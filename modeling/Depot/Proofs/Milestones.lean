/-
Milestones of an upload and a bulk deletion that take turns.

An upload puts its content before it adds its row, and a bulk deletion removes contents before it removes rows. Nothing
keeps one from coming between two calls of the other, so there are more outcomes than those of one after the other. Which
one it is depends on four calls: the put of the content, a removal of objects that names its key, the removal of rows, and
the insertion of the row. These are the milestones; `uploading` and `culling` say in which order each of the two reaches
its own.

Apart from them the two do not meet. What an upload is answered with does not depend on contents or on the rows of others,
so beside a deletion it goes on as it does alone (`World.Abreast`). `Raced` says what the milestones so far have left, and
each call of either of the two keeps it (`Raced.uploads`, `Raced.culls`).
-/
import Depot.Proofs.Holding
import Depot.Proofs.Overlap
import Depot.Proofs.RoundTrip

namespace Depot

open World Key

variable {α : Type} {l : Location} {w s t σ : World} {key space name : String} {ns : Option String} {site : Site}
  {selection : Selection} {q : FileQuery} {events : List Event}

/-! ## Milestones -/

/-- what decides how a race ends -/
inductive Milestone where
  /-- the content was put -/
  | kept
  /-- objects were removed, and its key was among those named -/
  | erased
  /-- rows were removed -/
  | removed
  /-- the row was added -/
  | added
  deriving DecidableEq

def Milestone.ofUpload : Milestone → Bool
  | .kept | .added => true
  | .erased | .removed => false

/-- the milestones that a call brings, for a content at a key -/
def Call.marks (key : String) : (c : Call) → c.Reply → List Milestone
  | .putObject .., .ok () => [.kept]
  | .deleteObjects keys, .ok _ => if key ∈ keys then [.erased] else []
  | .deleteFiles _, .ok _ => [.removed]
  | .insertFile _, .ok () => [.added]
  | _, _ => []

/-- what calls are answered with while milestones are collected -/
abbrev World.marking (key : String) : (c : Call) → World × List Milestone → c.Reply × (World × List Milestone) :=
  Prog.collect (I := service) serve (Call.marks key)

section Order

variable {a b c : Milestone} {log : List Milestone}

theorem pair_sublist_snoc : [a, b].Sublist (log ++ [c]) ↔ [a, b].Sublist log ∨ a ∈ log ∧ b = c := by
  constructor
  · intro h
    obtain ⟨first, last, same, before, after⟩ := List.sublist_append_iff.1 h
    match first, last with
    | [], last =>
      obtain rfl : [a, b] = last := same
      have short := after.length_le
      simp at short
    | [x], last =>
      obtain ⟨rfl, rfl⟩ : a = x ∧ [b] = last := by simpa using same
      exact .inr ⟨List.singleton_sublist.1 before, by simpa using after⟩
    | x :: y :: first, last =>
      have empty : x :: y :: first = [a, b] := by
        obtain ⟨rfl, rfl, rest⟩ : a = x ∧ b = y ∧ [] = first ++ last := by simpa using same
        rw [(List.append_eq_nil_iff.1 rest.symm).1]
      exact .inl (empty ▸ before)
  · rintro (before | ⟨there, rfl⟩)
    · exact before.trans (List.sublist_append_left log [c])
    · exact (List.singleton_sublist.2 there).append (List.Sublist.refl [b])

theorem not_pair_snoc (first : a ∉ log) : ¬[a, b].Sublist (log ++ [c]) := by
  rw [pair_sublist_snoc]
  rintro (both | ⟨there, -⟩)
  · exact first (both.subset List.mem_cons_self)
  · exact first there

end Order

/-! ## The calls of an upload -/

/-- the disk, the clock and the ids to come are the same -/
structure World.SameSources (w t : World) : Prop where
  disk : t.disk = w.disk
  clock : t.clock = w.clock
  tick : t.tick = w.tick
  ids : t.ids = w.ids
  serial : t.serial = w.serial

/-- what an upload draws on is the same in both worlds, there is a bucket in both or in none, the second one has no rows
of its own, and nothing will fail -/
structure World.Abreast (σ s : World) : Prop extends SameSources σ s where
  calm : Calm σ
  calm' : Calm s
  bucket : s.bucket.isSome = σ.bucket.isSome
  rows : ∀ e ∈ s.files.rows, e ∈ σ.files.rows

theorem World.Abreast.refl (calm : Calm w) : Abreast w w :=
  ⟨⟨rfl, rfl, rfl, rfl, rfl⟩, calm, calm, rfl, fun _ => id⟩

/-- a call of an upload that has reached some milestones, in the world as it would be without others: it puts its content
at a key once, and adds its row once, with an id that no row has -/
def Call.Uploads (key : String) (x : World × List Milestone) : Call → Prop
  | .putObject k _ _ => k = key ∧ .kept ∉ x.2
  | .insertFile e => e.id ∉ x.1.files.rows.map (·.id) ∧ .added ∉ x.2
  | .freshId | .now => True
  | c => c.IsLocal

theorem Call.IsLocal.uploads {c : Call} (h : c.IsLocal) (x : World × List Milestone) : c.Uploads key x := by
  cases c with
  | putObject | insertFile | freshId | now => exact h.elim
  | _ => exact h

theorem Call.Reads.marks {c : Call} (h : c.Reads) (r : c.Reply) : c.marks key r = [] := by
  cases c with
  | putObject | deleteObjects | deleteFiles | insertFile => exact h.elim
  | _ => rfl

theorem World.marking_reads (key : String) {c : Call} (h : c.Reads) (x : World × List Milestone) :
    SameStores x.1 (marking key c x).2.1 ∧ (marking key c x).2.2 = x.2 := by
  refine ⟨serve_reads h x.1, ?_⟩
  rw [marking, Prog.collect, h.marks, List.append_nil]

theorem Call.Uploads.marks {c : Call} {x : World × List Milestone} (h : c.Uploads key x) (r : c.Reply) :
    ∀ m ∈ c.marks key r, m.ofUpload = true := by
  cases c with
  | putObject | insertFile => cases r <;> simp [Call.marks, Milestone.ofUpload]
  | deleteObjects | deleteFiles => exact h.elim
  | _ => rintro m ⟨⟩

theorem World.SameSources.serve_local {c : Call} (h : SameSources σ s) (hc : c.IsLocal) :
    (serve c s).1 = (serve c σ).1 ∧ SameSources (serve c σ).2 (serve c s).2 := by
  obtain ⟨disk, clock, tick, ids, serial⟩ := h
  cases c with
  | createTemporary folder | removeFile path =>
    simp only [serve, disk]
    split
    · exact ⟨rfl, ⟨rfl, clock, tick, ids, serial⟩⟩
    · exact ⟨rfl, ⟨disk, clock, tick, ids, serial⟩⟩
  | close | writeFile =>
    simp only [serve, close, disk]
    exact ⟨trivial, ⟨rfl, clock, tick, ids, serial⟩⟩
  | readFile =>
    simp only [serve, disk]
    exact ⟨trivial, ⟨disk, clock, tick, ids, serial⟩⟩
  | drain | closeContent | print => exact ⟨rfl, ⟨disk, clock, tick, ids, serial⟩⟩
  | _ => exact hc.elim

/-- **A call of an upload is answered as it would be without others.** -/
theorem World.Abreast.uploads {c : Call} {log : List Milestone} (h : Abreast σ s) (hc : c.Uploads key (σ, log)) :
    (serve c s).1 = (serve c σ).1 ∧ Abreast (serve c σ).2 (serve c s).2 := by
  obtain ⟨sources, calm, calm', bucket, rows⟩ := h
  suffices same : (serve c s).1 = (serve c σ).1 ∧ SameSources (serve c σ).2 (serve c s).2 ∧
      ∀ e ∈ (serve c s).2.files.rows, e ∈ (serve c σ).2.files.rows from
    ⟨same.1, same.2.1, serve_calm c calm, serve_calm c calm', by rw [serve_bucket, serve_bucket, bucket], same.2.2⟩
  by_cases isLocal : c.IsLocal
  · obtain ⟨reply, after⟩ := sources.serve_local isLocal
    have same w : (serve c w).2.files = w.files := (serve_local isLocal w).files
    exact ⟨reply, after, by rwa [same, same]⟩
  obtain ⟨disk, clock, tick, ids, serial⟩ := sources
  cases c with
  | putObject k content metadata =>
    simp only [serve, request, strike_calm calm.strikes, strike_calm calm'.strikes]
    split
    · exact ⟨rfl, ⟨disk, clock, tick, ids, serial⟩, rows⟩
    · cases hσ : σ.bucket with
      | none =>
        obtain hs : s.bucket = none := by simpa [hσ] using bucket
        simp only [hs]
        exact ⟨trivial, ⟨disk, clock, tick, ids, serial⟩, rows⟩
      | some b =>
        obtain ⟨b', hs⟩ := Option.isSome_iff_exists.1 (bucket.trans (by rw [hσ]; rfl))
        simp only [hs]
        exact ⟨trivial, ⟨disk, clock, tick, ids, serial⟩, rows⟩
  | insertFile e =>
    have unused : e.id ∉ s.files.rows.map (·.id) := by
      intro used
      obtain ⟨x, hx, same⟩ := List.mem_map.1 used
      exact hc.1 (List.mem_map.2 ⟨x, rows x hx, same⟩)
    have unused' : e.id ∉ σ.files.rows.map (·.id) := hc.1
    simp only [serve, statement_calm calm.strikes, statement_calm calm'.strikes, insertFile, FileTable.insert?, dif_neg unused,
      dif_neg unused']
    refine ⟨trivial, ⟨disk, clock, tick, ids, serial⟩, fun x hx => ?_⟩
    exact (List.mem_append.1 hx).elim (fun hx => List.mem_append_left _ (rows x hx)) (List.mem_append_right _)
  | freshId =>
    simp only [serve, freshId, ids, serial]
    split <;> exact ⟨rfl, ⟨disk, clock, tick, rfl, rfl⟩, rows⟩
  | now =>
    simp only [serve, now, clock, tick]
    exact ⟨trivial, ⟨disk, rfl, rfl, ids, serial⟩, rows⟩
  | _ => exact absurd hc isLocal

/-- an upload to a key, which is what it would be without others: the world that goes with it is the one in which it is
alone -/
def uploading (key : String) : Protocol service (World × List Milestone) where
  allows c x := c.Uploads key x
  leads c x r y := r = (marking key c x).1 ∧ y = (marking key c x).2

theorem Prog.Follows.and_ends {p : Op α} {Q : Except Failure α → World × List Milestone → Prop}
    {R : Except Failure α → World → Prop} {x : World × List Milestone} (h : p.Follows (uploading key) Q x)
    (ends : p.Ends serve (fun r t _ => R r t) x.1 events) :
    p.Follows (uploading key) (fun r y => Q r y ∧ R r y.1) x := by
  induction p generalizing x events with
  | done a => exact ⟨h, ends⟩
  | fail e => exact ⟨h, ends⟩
  | note e next ih => exact ih h ends
  | call c next ih =>
    refine ⟨h.1, ?_⟩
    rintro _ _ ⟨rfl, rfl⟩
    exact ih _ (h.2 _ _ ⟨rfl, rfl⟩) ends

/-- **An upload ends in another world as it would without others.** -/
theorem Prog.Follows.ends_abreast {p : Op α} {Q : Except Failure α → World × List Milestone → Prop}
    {x : World × List Milestone} (h : p.Follows (uploading key) Q x) (abreast : Abreast x.1 s) :
    p.Ends serve (fun r _ _ => ∃ y, Q r y) s events := by
  induction p generalizing x s events with
  | done a => exact ⟨x, h⟩
  | fail e => exact ⟨x, h⟩
  | note e next ih => exact ih h abreast
  | call c next ih =>
    obtain ⟨reply, after⟩ := abreast.uploads h.1
    exact ih _ (reply ▸ h.2 _ _ ⟨rfl, rfl⟩) after

theorem Prog.Only.follows_local {p : Op α} (h : p.Only Call.IsLocal) (x : World × List Milestone) :
    p.Follows (uploading key) (fun _ y => Aside x.1 y.1 ∧ y.2 = x.2) x := by
  refine h.follows_keeps (P := uploading key) (J := fun y => Aside x.1 y.1 ∧ y.2 = x.2)
    (fun c y hc hy => ⟨hc.uploads y, ?_⟩) ⟨.refl _, rfl⟩
  rintro _ _ ⟨rfl, rfl⟩
  exact ⟨hy.1.trans (serve_local hc _), (marking_reads key hc.reads y).2.trans hy.2⟩

theorem Content.uploading_put {e : Entry} {x : World × List Milestone} (first : .kept ∉ x.2)
    (hkey : site.location.key e.space e.id = .ok key) (content : ByteArray) : (put site e content).Follows (uploading key)
      (Yields fun _ y => y.1.files = x.1.files ∧ y.2 = x.2 ++ [.kept]) x := by
  rw [put, hkey, Prog.ofExcept_ok_bind]
  refine Prog.Follows.yields (J := fun _ y => y.1.files = x.1.files ∧ y.2 = x.2 ++ [.kept])
    (Op.follows_account ?_ fun _ e _ _ => yields_error e) fun _ y hy => ?_
  · rw [Prog.follows_record_bind, Op.follows_ask_bind]
    refine ⟨⟨rfl, first⟩, ?_⟩
    rintro _ _ ⟨rfl, rfl⟩
    rw [Prog.follows_ofReply]
    rintro ⟨⟩ kept
    rw [Prog.bare_eq_ok] at kept
    rcases serve_put x.1 key content (metadataOf e) with ⟨f, reply, -⟩ | ⟨reply, b, -, -, files⟩
    · cases reply.symm.trans kept
    · refine ⟨files, congrArg (x.2 ++ ·) ?_⟩
      rw [reply]
      rfl
  · exact yields_ok hy

namespace Files

theorem uploading_keep {e : Entry} {x : World × List Milestone} (first : x.2 = [])
    (unused : e.id ∉ x.1.files.rows.map (·.id)) (hkey : site.location.key e.space e.id = .ok key) (content : ByteArray)
    (last : Event) :
    (do
      Content.put site e content
      statement (.insertEntry e.id) do
        let utc ← inUtc e.modified
        Prog.ofReply (← Op.ask (.insertFile { e with modified := utc }))
      Prog.record last
      pure e : Op Entry).Follows (uploading key) (Yields fun _ y => .kept ∈ y.2 ∧ .added ∈ y.2) x := by
  refine (Content.uploading_put (first ▸ List.not_mem_nil) hkey content).yields fun _ y kept => ?_
  rw [first, List.nil_append] at kept
  refine Prog.Follows.yields (J := fun _ z => .kept ∈ z.2 ∧ .added ∈ z.2) (Op.follows_account ?_ fun _ e _ _ =>
    yields_error e) fun _ z hz => yields_ok hz
  rw [inUtc]
  cases e.modified.toUtc? with
  | none => exact yields_error _
  | some utc =>
    refine ⟨⟨?_, ?_⟩, ?_⟩
    · rwa [kept.1]
    · rw [kept.2]
      decide
    · rintro reply z ⟨rfl, rfl⟩
      refine (Prog.follows_ofReply _).2 fun _ added => ?_
      rw [Prog.bare_eq_ok] at added
      rw [marking, Prog.collect] at added ⊢
      rw [added, kept.2]
      exact ⟨List.mem_append_left _ (List.mem_singleton_self _), List.mem_append_right _ (List.mem_singleton_self _)⟩

theorem uploading_store {x : World × List Milestone} (first : x.2 = [])
    (unused : x.1.freshId.1 ∉ x.1.files.rows.map (·.id)) (hkey : site.location.key space x.1.freshId.1 = .ok key)
    (file : Upload.LocalFile) :
    (store site space ns name file).Follows (uploading key) (Yields fun _ y => .kept ∈ y.2 ∧ .added ∈ y.2) x := by
  refine ⟨trivial, ?_⟩
  rintro id y ⟨given, hy⟩
  refine ⟨trivial, ?_⟩
  rintro modified z ⟨-, hz⟩
  refine ⟨trivial, ?_⟩
  rintro reply t ⟨-, ht⟩
  let e : Entry := ⟨id, space, ns, name, file.size, file.digest, file.algorithm, modified⟩
  have hid : e.id = x.1.freshId.1 := given
  have quiet : t.1.files = x.1.files ∧ t.2 = [] := by
    have three := marking_reads key (c := .readFile file.path) trivial z
    have two := marking_reads key (c := .now) trivial y
    have one := marking_reads key (c := .freshId) trivial x
    rw [← hy] at one
    rw [← hz] at two
    rw [← ht] at three
    exact ⟨((one.1.trans two.1).trans three.1).files, three.2.trans (two.2.trans (one.2.trans first))⟩
  cases reply with
  | error f => exact yields_error _
  | ok content => exact uploading_keep (e := e) quiet.2 (by rwa [quiet.1, hid]) (by rwa [hid]) content _

/-- **An upload puts its content once and adds its row once,** and ends well only after both. -/
theorem uploading_add (unused : w.freshId.1 ∉ w.files.rows.map (·.id))
    (hkey : site.location.key space w.freshId.1 = .ok key) (s : Stream) : (add site space ns name s).Follows (uploading key)
      (Yields fun _ y => .kept ∈ y.2 ∧ .added ∈ y.2) (w, []) := by
  refine ((local_receive s).follows_local (w, [])).bind (fun file y hy => ?_) (fun e _ _ => yields_error e)
  obtain ⟨aside, first⟩ := hy
  have same : y.1.freshId.1 = w.freshId.1 := freshId_eq aside.ids aside.serial
  refine Prog.Follows.bind (R := fun r z => ∀ stored, r = .ok stored →
    Yields (fun _ z => .kept ∈ z.2 ∧ .added ∈ z.2) stored z) ?_ (fun stored z hz => ?_) (fun e _ _ => yields_error e)
  · refine ((uploading_store first ?_ ?_ file).mono fun r z hz => ?_).attempt
    · rwa [same, aside.files]
    · rwa [same]
    · rintro _ ⟨⟩
      exact hz
  · refine ((local_removeStaged file.path).follows_local z).bind (fun _ t ht => ?_) (fun e _ _ => yields_error e)
    rw [Prog.follows_ofExcept]
    intro e given
    rw [ht.2]
    exact hz stored rfl e given

end Files

/-! ## The calls of a deletion -/

/-- a call of a bulk deletion that has reached some milestones: it removes rows once -/
def Call.Culls (q : FileQuery) (log : List Milestone) : Call → Prop
  | .listObjects .. | .headObject _ | .deleteObjects _ => True
  | .deleteFiles asked => asked = q ∧ .removed ∉ log
  | _ => False

theorem Call.Culls.marks {c : Call} {log : List Milestone} (h : c.Culls q log) (r : c.Reply) :
    ∀ m ∈ c.marks key r, m.ofUpload = false := by
  cases c with
  | deleteObjects keys =>
    cases r with
    | error => simp [Call.marks]
    | ok =>
      rw [Call.marks]
      split <;> simp [Milestone.ofUpload]
  | deleteFiles => cases r <;> simp [Call.marks, Milestone.ofUpload]
  | putObject | insertFile => exact h.elim
  | _ => rintro m ⟨⟩

/-- a bulk deletion, whatever it is answered with -/
def culling (key : String) (q : FileQuery) : Protocol service (List Milestone) where
  allows c log := c.Culls q log
  leads c log r log' := log' = log ++ c.marks key r

/-- a selection by place is one of a space and a namespace -/
def Selection.Chooses (space : String) (ns : Option String) : Selection → Prop
  | .inNamespace space' ns' => space' = space ∧ ns' = ns
  | .inSpaces spaces => space ∈ spaces
  | .before _ => False

namespace Selection.Chooses

theorem byPlace (h : selection.Chooses space ns) : selection.ByPlace := by
  cases selection with
  | before => exact h.elim
  | _ => exact trivial

theorem searched (h : selection.Chooses space ns) : some space ∈ Content.searched selection := by
  cases selection with
  | inNamespace => simp [Content.searched, h.1]
  | inSpaces => exact List.mem_map_of_mem h
  | before => exact h.elim

theorem asks (h : selection.Chooses space ns) : (Files.queryOf selection).isEmpty = false := by
  cases selection with
  | inNamespace => rfl
  | inSpaces spaces =>
    cases spaces with
    | nil => cases h
    | cons => rfl
  | before => exact h.elim

theorem holds {e : Entry} (h : selection.Chooses space ns) (hspace : e.space = space) (hns : e.namespace_ = ns) :
    (Files.queryOf selection).holds e = true := by
  cases selection with
  | inNamespace => simp [Files.queryOf, FileQuery.holds, hspace, hns, h.1, h.2]
  | inSpaces spaces =>
    have listed : space ∈ spaces := h
    simp [Files.queryOf, FileQuery.holds, hspace, listed]
  | before => exact h.elim

theorem picks {a : Arrival} (h : selection.Chooses a.space a.namespace_) (segment : IsSegment a.id)
    (other : a.id ≠ l.lastName) (hkey : l.key a.space a.id = .ok key) : selection.Picks l key a.object := by
  obtain ⟨start, hstart, rfl⟩ := Location.key_eq_start segment other hkey
  refine ⟨⟨some a.space, h.searched, start, hstart, ?_⟩, ?_⟩
  · rw [Location.startsWith_iff, String.toList_append]
    exact List.prefix_append _ _
  · cases selection with
    | inNamespace => exact (Content.namespaceIn_metadataOf _).trans h.2.symm
    | inSpaces => trivial
    | before => exact h.elim

end Selection.Chooses

/-- a call that is none to remove rows leaves it at that -/
theorem Call.Culls.not_removed {c : Call} (h : ∀ log, c.Culls q log) (r : c.Reply) : .removed ∉ c.marks key r := by
  cases c with
  | deleteFiles => exact absurd (List.mem_singleton_self Milestone.removed) (h [.removed]).2
  | deleteObjects keys =>
    cases r with
    | error => simp [Call.marks]
    | ok =>
      rw [Call.marks]
      split <;> simp
  | putObject | insertFile => exact (h []).elim
  | _ => rintro ⟨⟩

/-- a call of a deletion leaves an upload what it draws on -/
theorem World.Abreast.culls {c : Call} {log : List Milestone} (h : Abreast σ s) (hc : c.Culls q log) :
    Abreast σ (serve c s).2 := by
  obtain ⟨sources, calm, calm', bucket, rows⟩ := h
  suffices same : SameSources σ (serve c s).2 ∧ ∀ e ∈ (serve c s).2.files.rows, e ∈ s.files.rows from
    ⟨same.1, calm, serve_calm c calm', (serve_bucket c s).trans bucket, fun e he => rows e (same.2 e he)⟩
  have strikes : ∀ t strikes, SameSources σ t → SameSources σ { t with strikes := strikes } :=
    fun _ _ h => ⟨h.disk, h.clock, h.tick, h.ids, h.serial⟩
  cases c with
  | listObjects =>
    exact ⟨request_keeps strikes _ _ (fun _ _ h => h) sources, (serve_shrinks (by exact trivial) s).rows⟩
  | headObject =>
    refine ⟨request_keeps strikes _ _ (fun b t h => ?_) sources, (serve_shrinks (by exact trivial) s).rows⟩
    split <;> exact h
  | deleteObjects =>
    refine ⟨request_keeps strikes _ _ (fun b t h => ?_) sources, (serve_shrinks (by exact trivial) s).rows⟩
    exact ⟨h.disk, h.clock, h.tick, h.ids, h.serial⟩
  | deleteFiles =>
    refine ⟨statement_keeps strikes _ (fun t h => ?_) sources, (serve_shrinks (by exact trivial) s).rows⟩
    rw [deleteFiles]
    split <;> exact ⟨h.disk, h.clock, h.tick, h.ids, h.serial⟩
  | _ => exact hc.elim

/-- **A bulk deletion removes rows once,** after all contents, and ends well only after that. -/
theorem Files.culling_deleteSelected (chosen : selection.Chooses space ns) : (deleteSelected site selection).Follows
    (culling key (queryOf selection)) (Yields fun _ log => .removed ∈ log) [] := by
  have only : (Content.deleteMatching site selection).Only fun c : Call => ∀ log, c.Culls (queryOf selection) log :=
    Content.only_deleteMatching (fun _ _ _ => trivial) (fun _ _ => trivial) (fun _ _ => trivial) selection
  have contents : (Content.deleteMatching site selection).Follows (culling key (queryOf selection))
      (fun _ log => .removed ∉ log) [] := by
    refine only.follows_keeps (P := culling key (queryOf selection)) (J := fun log => .removed ∉ log)
      (fun c log hc before => ⟨hc log, ?_⟩) List.not_mem_nil
    rintro r _ rfl
    exact List.not_mem_append before (Call.Culls.not_removed hc r)
  rw [deleteSelected]
  refine contents.bind (fun _ log before => ?_) (fun e _ _ => yields_error e)
  refine Op.follows_account ?_ fun _ e _ _ => yields_error e
  rw [remove, chosen.byPlace.prepare, LawfulMonad.pure_bind, chosen.asks, if_neg Bool.false_ne_true, Op.follows_ask_bind]
  refine ⟨⟨rfl, before⟩, ?_⟩
  rintro r _ rfl
  refine (Prog.follows_ofReply r).2 fun n removed => ?_
  rw [Prog.bare_eq_ok] at removed
  rw [removed]
  exact List.mem_append_right _ (List.mem_singleton_self _)

/-- **A deletion leaves an upload what it draws on.** -/
theorem Prog.Follows.keeps_abreast {p : Op α} {Q : Except Failure α → List Milestone → Prop} {log : List Milestone}
    (h : p.Follows (culling key q) Q log) (abreast : Abreast σ s) :
    p.Ends serve (fun _ t _ => Abreast σ t) s events := by
  induction p generalizing log s events with
  | done a => exact abreast
  | fail e => exact abreast
  | note e next ih => exact ih h abreast
  | call c next ih => exact ih _ (h.2 _ _ rfl) (abreast.culls h.1)

/-! ## What a race leaves -/

/-- **No call changes what is at the empty key.** -/
theorem World.serve_nameless (c : Call) (w : World) : (serve c w).2.object? "" = w.object? "" := by
  by_cases keeps : c.KeepsBucket
  · exact object?_of_bucket (serve_keepsBucket keeps w) ""
  cases c with
  | putObject k content metadata =>
    by_cases named : k = ""
    · rw [serve, named, request_emptyKey List.mem_cons_self]
    · rcases serve_put w k content metadata with ⟨f, -, same⟩ | ⟨-, b, hb, ht, -⟩
      · exact same.object? ""
      · rw [object?_put hb ht, if_neg (Ne.symm named)]
  | deleteObject k =>
    by_cases named : k = ""
    · rw [serve, named, request_emptyKey List.mem_cons_self]
    · rcases serve_deleteObject w k with ⟨f, -, same⟩ | ⟨-, b, hb, ht, -⟩
      · exact same.object? ""
      · rw [object?_erase hb ht, if_neg (by simpa using Ne.symm named)]
  | deleteObjects keys =>
    by_cases named : "" ∈ keys
    · rw [serve, request_emptyKey named]
    · rcases serve_deleteObjects w keys with ⟨f, -, same⟩ | ⟨refused, -, -, b, hb, ht, -⟩
      · exact same.object? ""
      · rw [object?_erase hb ht, if_neg fun gone => named (List.mem_of_mem_filter gone)]
  | _ => exact absurd trivial keeps

/-- what an upload to a key and a deletion of the rows asked for have left so far, when the upload alone would have left
`σ`: its content is there from the put on, until it is erased after that; and of the rows that it added, those asked for
are gone if rows were removed after that -/
structure Raced (q : FileQuery) (key : String) (w σ : World) (log : List Milestone) (s : World) : Prop where
  abreast : Abreast σ s
  nameless : s.object? "" = w.object? ""
  content : .kept ∈ log → s.object? key = if [.kept, .erased].Sublist log then none else σ.object? key
  rows : ∃ more, σ.files.rows = w.files.rows ++ more ∧ (.added ∉ log → more = []) ∧ s.files.rows =
    (if .removed ∈ log then w.files.rows.filter (!q.holds ·) else w.files.rows) ++
      if .removed ∈ log ∧ ¬[.removed, .added].Sublist log then more.filter (!q.holds ·) else more

namespace Raced

variable {log : List Milestone} {c : Call}

theorem start (calm : Calm w) : Raced q key w w [] w :=
  ⟨.refl calm, rfl, (by simp), [], by simp⟩

section Milestones

variable {u v : World} (h : Raced q key w σ log s) (abreast : Abreast u v) (nameless : v.object? "" = s.object? "")

include h abreast nameless

/-- nothing changes in the rows, and what is at the key does not change -/
theorem quiet (object : u.object? key = σ.object? key) (object' : v.object? key = s.object? key)
    (files : u.files = σ.files) (files' : v.files = s.files) : Raced q key w u log v := by
  refine ⟨abreast, nameless.trans h.nameless, ?_, ?_⟩
  · rw [object, object']
    exact h.content
  · rw [files, files']
    exact h.rows

omit nameless in
/-- nothing changes in the stores -/
theorem unmarked {r : c.Reply} (unlogged : c.marks key r = []) (same : SameStores σ u) (same' : SameStores s v) :
    Raced q key w u (log ++ c.marks key r) v := by
  rw [unlogged, List.append_nil]
  exact h.quiet abreast (same'.object? "") (same.object? key) (same'.object? key) same.files same'.files

theorem kept (first : .kept ∉ log) (objects : v.object? key = u.object? key) (files : u.files = σ.files)
    (files' : v.files = s.files) : Raced q key w u (log ++ [.kept]) v := by
  refine ⟨abreast, nameless.trans h.nameless, fun _ => by rw [objects, if_neg (not_pair_snoc first)], ?_⟩
  simpa [pair_sublist_snoc, files, files'] using h.rows

theorem erased (gone : v.object? key = none) (same : u = σ) (files : v.files = s.files) :
    Raced q key w u (log ++ [.erased]) v := by
  subst same
  refine ⟨abreast, nameless.trans h.nameless, fun kept => ?_, ?_⟩
  · have kept : .kept ∈ log := by simpa using kept
    rw [gone, if_pos (pair_sublist_snoc.2 (.inr ⟨kept, rfl⟩))]
  · simpa [pair_sublist_snoc, files] using h.rows

theorem removed (first : .removed ∉ log) (same : u = σ) (objects : v.object? key = s.object? key)
    (rows : v.files.rows = s.files.rows.filter (!q.holds ·)) : Raced q key w u (log ++ [.removed]) v := by
  subst same
  refine ⟨abreast, nameless.trans h.nameless, fun kept => ?_, ?_⟩
  · have kept : .kept ∈ log := by simpa using kept
    rw [objects, h.content kept]
    simp [pair_sublist_snoc]
  · obtain ⟨more, longer, before, below⟩ := h.rows
    refine ⟨more, longer, by simpa using before, ?_⟩
    rw [if_neg first, if_neg fun both => first both.1] at below
    rw [if_pos (by simp), if_pos ⟨by simp, not_pair_snoc first⟩, rows, below, List.filter_append]

theorem added {e : Entry} (first : .added ∉ log) (objects : u.object? key = σ.object? key)
    (objects' : v.object? key = s.object? key) (rows : u.files.rows = σ.files.rows ++ [e])
    (rows' : v.files.rows = s.files.rows ++ [e]) : Raced q key w u (log ++ [.added]) v := by
  refine ⟨abreast, nameless.trans h.nameless, fun kept => ?_, [e], ?_⟩
  · have kept : .kept ∈ log := by simpa using kept
    rw [objects', h.content kept, objects]
    simp [pair_sublist_snoc]
  · obtain ⟨more, longer, before, below⟩ := h.rows
    obtain rfl := before first
    have last : ¬(Milestone.removed ∈ log ++ [.added] ∧ ¬[Milestone.removed, .added].Sublist (log ++ [.added])) := by
      rw [pair_sublist_snoc]
      rintro ⟨there, apart⟩
      exact apart (.inr ⟨by simpa using there, rfl⟩)
    refine ⟨by rw [rows, longer, List.append_nil], by simp, ?_⟩
    rw [if_neg last, rows', below]
    simp

end Milestones

/-- **After a call of the upload.** -/
theorem uploads (h : Raced q key w σ log s) (hc : c.Uploads key (σ, log.filter (·.ofUpload))) :
    Raced q key w (serve c σ).2 (log ++ c.marks key (serve c s).1) (serve c s).2 := by
  obtain ⟨reply, abreast⟩ := h.abreast.uploads hc
  by_cases reads : c.Reads
  · exact h.unmarked abreast (reads.marks _) (serve_reads reads σ) (serve_reads reads s)
  cases c with
  | putObject k bytes metadata =>
    obtain ⟨rfl, first⟩ := hc
    rcases serve_put σ k bytes metadata with ⟨f, refused, same⟩ | ⟨put, b, hb, ht, files⟩
    · rcases serve_put s k bytes metadata with ⟨f', refused', same'⟩ | ⟨put', -⟩
      · exact h.unmarked abreast (by rw [refused']; rfl) same same'
      · cases (put'.symm.trans reply).trans refused
    · rcases serve_put s k bytes metadata with ⟨f', refused', -⟩ | ⟨put', b', hb', ht', files'⟩
      · cases (refused'.symm.trans reply).trans put
      · rw [put']
        refine h.kept abreast (serve_nameless _ s) (fun there => first (List.mem_filter.2 ⟨there, rfl⟩)) ?_ files files'
        rw [object?_put hb' ht', if_pos rfl, object?_put hb ht, if_pos rfl]
  | insertFile e =>
    have taken : (serve (.insertFile e) σ).1 = .ok () := by
      rw [serve, statement_calm h.abreast.calm.strikes, insertFile, FileTable.insert?, dif_neg hc.1]
    rcases serve_insert σ e with ⟨f, refused, -⟩ | ⟨-, bucket, rows⟩
    · cases refused.symm.trans taken
    rcases serve_insert s e with ⟨f, refused, -⟩ | ⟨inserted, bucket', rows'⟩
    · cases (refused.symm.trans reply).trans taken
    rw [inserted]
    exact h.added abreast (serve_nameless _ s) (fun there => hc.2 (List.mem_filter.2 ⟨there, rfl⟩))
      (object?_of_bucket bucket key) (object?_of_bucket bucket' key) rows rows'
  | deleteObjects | deleteFiles | deleteObject => exact hc.elim
  | _ => exact absurd trivial reads

/-- **After a call of the deletion.** -/
theorem culls (h : Raced q key w σ log s) (hc : c.Culls q (log.filter (!·.ofUpload))) :
    Raced q key w σ (log ++ c.marks key (serve c s).1) (serve c s).2 := by
  have abreast := h.abreast.culls hc
  by_cases reads : c.Reads
  · exact h.unmarked abreast (reads.marks _) (.refl σ) (serve_reads reads s)
  cases c with
  | deleteObjects keys =>
    rcases serve_deleteObjects s keys with ⟨f, refused, same⟩ | ⟨refused, reply, all, b, hb, ht, files⟩
    · exact h.unmarked abreast (by rw [refused]; rfl) (.refl σ) same
    · obtain rfl := all h.abreast.calm'.refusals
      have erased k : (serve (.deleteObjects keys) s).2.object? k = if k ∈ keys then none else s.object? k := by
        rw [object?_erase hb ht, List.filterMap_nil]
        simp
      rw [reply, Call.marks]
      split
      case isTrue named => exact h.erased abreast (serve_nameless _ s) (by rw [erased, if_pos named]) rfl files
      case isFalse other =>
        rw [List.append_nil]
        exact h.quiet abreast (serve_nameless _ s) rfl (by rw [erased, if_neg other]) rfl files
  | deleteFiles asked =>
    obtain ⟨rfl, first⟩ := hc
    rcases serve_deleteFiles s asked with ⟨f, refused, same⟩ | ⟨reply, bucket, files⟩
    · exact h.unmarked abreast (by rw [refused]; rfl) (.refl σ) same
    · rw [reply]
      exact h.removed abreast (serve_nameless _ s) (fun there => first (List.mem_filter.2 ⟨there, rfl⟩)) rfl
        (object?_of_bucket bucket key) (congrArg (·.rows) files)
  | putObject | insertFile | deleteObject => exact hc.elim
  | _ => exact absurd trivial reads

/-- the row of the upload stays just if it was added after rows were removed -/
theorem rows_left {row : Entry} (h : Raced q key w σ log s) (longer : σ.files.rows = w.files.rows ++ [row])
    (removed : .removed ∈ log) (asked : q.holds row = true) : s.files.rows =
      w.files.rows.filter (!q.holds ·) ++ if [Milestone.removed, .added].Sublist log then [row] else [] := by
  obtain ⟨more, longer', -, rows⟩ := h.rows
  obtain rfl : [row] = more := List.append_cancel_left (longer.symm.trans longer')
  rw [rows, if_pos removed]
  by_cases later : [Milestone.removed, .added].Sublist log
  · rw [if_neg fun both => both.2 later, if_pos later]
  · rw [if_pos ⟨removed, later⟩, if_neg later, List.filter_singleton, asked]
    rfl

/-- its content is there just if its key was not among those removed after it was put -/
theorem content_left_iff {row : Entry} {o : Object} (h : Raced q key w σ log s) (kept : .kept ∈ log)
    (ho : σ.object? key = some o) (hkey : l.key row.space row.id = .ok key) :
    s.HasContent l row ↔ ¬[Milestone.kept, .erased].Sublist log := by
  have object := h.content kept
  constructor
  · rintro ⟨k, o', hk, there⟩ later
    obtain rfl : key = k := Except.ok.inj (hkey.symm.trans hk)
    rw [if_pos later, there] at object
    cases object
  · intro apart
    rw [if_neg apart] at object
    exact ⟨key, o, hkey, object.trans ho⟩

end Raced

end Depot
