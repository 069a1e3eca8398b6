/-
An upload races a bulk deletion.

Let an upload and a deletion of its space or its namespace take turns, one call at a time and in any order, where nothing
fails. The row of the upload stays just if it was added after the rows were removed; and its content is there just if its
key was not among those removed after it was put. So the row is left without its content in one order of the four
milestones only, and in all others the outcome is that of one of the two after the other, but for a content without a row
(`upload_beside_deletion`). That one order is possible (`tornRace`): no lock is held and no transaction spans both stores.
-/
import Depot.Proofs.Milestones

namespace Depot

open World Key

variable {l : Location} {w s t σ : World} {key space name : String} {ns : Option String} {site : Site}
  {selection : Selection} {events : List Event}

/-! ## Turns -/

/-- an upload and a deletion that are about to start -/
def Crowd.race (site : Site) (w : World) (upload : Op Entry) (selection : Selection) :
    Crowd service (World × List Milestone) :=
  ⟨(w, []), [upload.void, ((Deletion.selected selection).program site).void]⟩

theorem Selection.ByPlace.program (byPlace : selection.ByPlace) :
    (Deletion.selected selection).program site = Files.deleteSelected site selection := by
  cases selection with
  | before => exact byPlace.elim
  | _ => rfl

/-- an upload has ended well: it has put its content, and it ends as it does without others -/
structure Uploaded (upload : Op Entry) (w : World) (x : World × List Milestone) : Prop where
  kept : .kept ∈ x.2
  alone : x.1 = (w.run upload).state
  given : ∃ e, (w.run upload).outcome = .ok e

/-- what is left of an upload and of a deletion, when the upload alone would have left `σ` -/
structure Racing (l : Location) (selection : Selection) (key : String) (upload : Op Entry) (w : World)
    (c : Crowd service (World × List Milestone)) (σ : World) (p d : Op Unit) : Prop where
  programs : c.programs = [p, d]
  raced : Raced (Files.queryOf selection) key w σ c.state.2 c.state.1
  uploads : p.Follows (uploading key) (Yields fun _ => Uploaded upload w) (σ, c.state.2.filter (·.ofUpload))
  culls : d.Follows (culling key (Files.queryOf selection)) (Yields fun _ log => .removed ∈ log)
    (c.state.2.filter (!·.ofUpload))
  sifts : d.Follows (besides key) (Yields fun _ t => Content.Sifted l selection key w t) c.state.1

/-- what an upload does at other keys than its own -/
theorem Call.Uploads.apart {c : Call} {x : World × List Milestone} (h : c.Uploads key x) (calm : Calm s) :
    Apart key s (serve c s).2 := by
  refine ⟨serve_calm c calm, fun k other => ?_⟩
  by_cases keeps : c.KeepsBucket
  · exact object?_of_bucket (serve_keepsBucket keeps s) k
  cases c with
  | putObject k' content metadata =>
    obtain ⟨rfl, -⟩ := h
    rcases serve_put s k' content metadata with ⟨f, -, same⟩ | ⟨-, b, hb, ht, -⟩
    · exact same.object? k
    · rw [object?_put hb ht, if_neg other]
  | deleteObject | deleteObjects => exact h.elim
  | _ => exact absurd trivial keeps

/-- while others change the object at one key, a program goes on as before -/
theorem Prog.Follows.apart {p : Op Unit} {J : Unit → World → Prop} (h : p.Follows (besides key) (Yields J) s)
    (stable : ∀ a, J a s → J a t) (apart : Apart key s t) : p.Follows (besides key) (Yields J) t := by
  refine h.shift (fun _ => id) ?_ fun r hr a ok => stable a (hr a ok)
  rintro c r u ⟨v, later, reply, left⟩
  exact ⟨v, apart.trans later, reply, left⟩

namespace Racing

variable {upload : Op Entry} {c : Crowd service (World × List Milestone)} {p d : Op Unit}

theorem upload_calls {call : Call} {next : call.Reply → Op Unit}
    (h : Racing l selection key upload w c σ (.call call next) d) :
    Racing l selection key upload w ⟨(marking key call c.state).2, [next (marking key call c.state).1, d]⟩ (serve call σ).2
      (next (marking key call c.state).1) d where
  programs := rfl
  raced := h.raced.uploads h.uploads.1
  uploads := by
    have reply : (serve call c.state.1).1 = (serve call σ).1 := (h.raced.abreast.uploads h.uploads.1).1
    have marks : (call.marks key (serve call σ).1).filter (·.ofUpload) = call.marks key (serve call σ).1 :=
      List.filter_eq_self.2 (h.uploads.1.marks _)
    show (next (serve call c.state.1).1).Follows _ _ (_, (c.state.2 ++ _).filter _)
    rw [reply, List.filter_append, marks]
    exact h.uploads.2 _ _ ⟨rfl, rfl⟩
  culls := by
    have marks : (call.marks key (serve call c.state.1).1).filter (!·.ofUpload) = [] :=
      List.filter_eq_nil_iff.2 fun m hm => by simp [h.uploads.1.marks _ m hm]
    show d.Follows _ _ ((c.state.2 ++ _).filter _)
    rw [List.filter_append, marks, List.append_nil]
    exact h.culls
  sifts := h.sifts.apart (fun _ hJ => hJ.apart (h.uploads.1.apart h.raced.abreast.calm'))
    (h.uploads.1.apart h.raced.abreast.calm')

theorem deletion_calls {call : Call} {next : call.Reply → Op Unit}
    (h : Racing l selection key upload w c σ p (.call call next)) :
    Racing l selection key upload w ⟨(marking key call c.state).2, [p, next (marking key call c.state).1]⟩ σ p
      (next (marking key call c.state).1) where
  programs := rfl
  raced := h.raced.culls h.culls.1
  uploads := by
    have marks : (call.marks key (serve call c.state.1).1).filter (·.ofUpload) = [] :=
      List.filter_eq_nil_iff.2 fun m hm => by simp [h.culls.1.marks _ m hm]
    show p.Follows _ _ (σ, (c.state.2 ++ _).filter _)
    rw [List.filter_append, marks, List.append_nil]
    exact h.uploads
  culls := by
    have marks : (call.marks key (serve call c.state.1).1).filter (!·.ofUpload) =
        call.marks key (serve call c.state.1).1 :=
      List.filter_eq_self.2 fun m hm => by simp [h.culls.1.marks _ m hm]
    show (next _).Follows _ _ ((c.state.2 ++ _).filter _)
    rw [List.filter_append, marks]
    exact h.culls.2 _ _ rfl
  sifts := h.sifts.2 _ _ ⟨c.state.1, .refl h.raced.abreast.calm', rfl, rfl⟩

/-- **A turn of either of them.** -/
theorem turn (h : Racing l selection key upload w c σ p d) (i : Nat) :
    ∃ σ p d, Racing l selection key upload w (c.turn (marking key) i) σ p d := by
  have turned := c.turned (marking key) i
  revert turned
  generalize c.turn (marking key) i = after
  intro turned
  cases turned with
  | rests => exact ⟨σ, p, d, h⟩
  | notes event next own =>
    rw [h.programs] at own ⊢
    match i, own with
    | 0, own =>
      obtain rfl : p = .note event next := Option.some.inj own
      exact ⟨σ, next, d, rfl, h.raced, h.uploads, h.culls, h.sifts⟩
    | 1, own =>
      obtain rfl : d = .note event next := Option.some.inj own
      exact ⟨σ, p, next, rfl, h.raced, h.uploads, h.culls, h.sifts⟩
  | calls call next own =>
    rw [h.programs] at own ⊢
    match i, own with
    | 0, own =>
      obtain rfl : p = .call call next := Option.some.inj own
      exact ⟨_, _, _, h.upload_calls⟩
    | 1, own =>
      obtain rfl : d = .call call next := Option.some.inj own
      exact ⟨_, _, _, h.deletion_calls⟩

/-- **Whatever turns they take.** -/
theorem after (h : Racing l selection key upload w c σ p d) (turns : List Nat) :
    ∃ σ p d, Racing l selection key upload w (c.after (marking key) turns) σ p d := by
  induction turns using List.reverseRecOn with
  | nil => exact ⟨σ, p, d, h⟩
  | append_singleton turns i ih =>
    rw [Crowd.after_snoc]
    obtain ⟨σ, p, d, h⟩ := ih
    exact h.turn i

theorem start (calm : Calm w) (unused : w.freshId.1 ∉ w.files.rows.map (·.id))
    (hkey : site.location.key space w.freshId.1 = .ok key) (chosen : selection.Chooses space ns) (s : Stream) :
    Racing site.location selection key (Files.add site space ns name s) w
      (.race site w (Files.add site space ns name s) selection) w (Files.add site space ns name s).void
      ((Deletion.selected selection).program site).void where
  programs := rfl
  raced := .start calm
  uploads := by
    have alone : (Files.add site space ns name s).Ends serve (fun r t _ =>
        r = (w.run (Files.add site space ns name s)).outcome ∧ t = (w.run (Files.add site space ns name s)).state) w [] :=
      (Prog.ends_iff _ _ _ _).2 ⟨rfl, rfl⟩
    refine ((Files.uploading_add unused hkey s).and_ends alone).bind (fun e x hx => ?_) (fun e _ _ => yields_error e)
    obtain ⟨reached, given, alone⟩ := hx
    exact yields_ok ⟨(reached e rfl).1, alone, e, given.symm⟩
  culls := by
    rw [chosen.byPlace.program]
    exact (Files.culling_deleteSelected chosen).yields fun _ _ removed => yields_ok removed
  sifts := by
    rw [chosen.byPlace.program]
    exact (Files.follows_deleteSelected chosen.byPlace calm).yields fun _ _ sifted => yields_ok sifted

end Racing

/-! ## One after the other -/

section Orders

variable {e : Entry} {v : World}

/-- nothing stands in the way of a deletion: it removes what it picks -/
theorem clears_of_named (chosen : selection.Chooses space ns) (calm : Calm v)
    (pages : ∀ b, v.bucket = some b → b.objects.length < site.pageLimit) (bucket : v.bucket.isSome)
    (starts : ∀ space ∈ Content.searched selection, ∃ start, site.location.start space = .ok start)
    (named : ∀ o, v.object? "" = some o → ¬selection.Reaches site.location "") :
    ((Deletion.selected selection).program site).Ends serve
      (Prog.Succeeds fun _ t _ => (Deletion.selected selection).Clears site.location v t) v events := by
  refine Deletion.program_clears calm pages ⟨⟨fun _ => bucket, starts, fun k o ho reached => ⟨?_, ?_⟩⟩, ?_⟩
  · rintro rfl
    exact named o ho reached
  · exact chosen.byPlace.canTell o
  · exact chosen.byPlace.answerable

theorem run_upload_first {upload : Op Entry} (given : (w.run upload).outcome = .ok e)
    (clears : ∀ events, ((Deletion.selected selection).program site).Ends serve (Prog.Succeeds fun _ t _ =>
      (Deletion.selected selection).Clears l (w.run upload).state t) (w.run upload).state events) :
    (∃ n, (w.run (do let _ ← upload; (Deletion.selected selection).program site)).outcome = .ok n) ∧
      (Deletion.selected selection).Clears l (w.run upload).state
        (w.run (do let _ ← upload; (Deletion.selected selection).program site)).state := by
  have alone : upload.Ends serve (fun r t _ => r = .ok e ∧ t = (w.run upload).state) w [] :=
    (Prog.ends_iff _ _ _ _).2 ⟨given, rfl⟩
  have both : (do let _ ← upload; (Deletion.selected selection).program site).Ends serve (Prog.Succeeds fun _ t _ =>
      (Deletion.selected selection).Clears l (w.run upload).state t) w [] :=
    alone.bind_value fun t more same => by
      rw [same]
      exact clears more
  obtain ⟨n, outcome, left⟩ := run_of_ends both
  exact ⟨⟨n, outcome⟩, left⟩

theorem run_upload_last (unused : w.freshId.1 ∉ w.files.rows.map (·.id))
    (hkey : site.location.key space w.freshId.1 = .ok key) (chosen : selection.Chooses space ns) (calm : Calm w) (s : Stream)
    (given : (w.run (Files.add site space ns name s)).outcome = .ok e)
    (clears : ((Deletion.selected selection).program site).Ends serve
      (Prog.Succeeds fun _ t _ => (Deletion.selected selection).Clears site.location w t) w []) :
    ∃ v, (Deletion.selected selection).Clears site.location w v ∧
      (w.run (do let _ ← (Deletion.selected selection).program site; Files.add site space ns name s)).outcome = .ok e ∧
      Files.Lands site.location ⟨w.freshId.1, space, ns, name, s.reading.content, w.clock⟩ v
        (w.run (do let _ ← (Deletion.selected selection).program site; Files.add site space ns name s)).state e := by
  have alone : (Files.add site space ns name s).Ends serve (fun r _ _ => r = .ok e) w [] :=
    (Prog.ends_iff _ _ _ _).2 given
  have abreast : ((Deletion.selected selection).program site).Ends serve (fun _ t _ => Abreast w t) w [] := by
    have culls : (Files.deleteSelected site selection).Follows (culling key (Files.queryOf selection)) _ [] :=
      Files.culling_deleteSelected chosen
    rw [chosen.byPlace.program]
    exact culls.keeps_abreast (.refl calm)
  have both : (do let _ ← (Deletion.selected selection).program site; Files.add site space ns name s : Op Entry).Ends serve
      (fun r t _ => ∃ v, (Deletion.selected selection).Clears site.location w v ∧ r = .ok e ∧
        Files.Lands site.location ⟨w.freshId.1, space, ns, name, s.reading.content, w.clock⟩ v t e) w [] := by
    refine (clears.and abreast).bind (fun n v more h => ?_) (fun failure v more h => ?_)
    · obtain ⟨⟨_, -, clears⟩, abreast⟩ := h
      have same : v.freshId.1 = w.freshId.1 := freshId_eq abreast.ids abreast.serial
      have again : (Files.add site space ns name s).Ends serve _ v more :=
        ((Files.uploading_add unused hkey s).and_ends alone).ends_abreast abreast
      refine (again.and (Files.add_lands s)).mono fun r t more h => ?_
      obtain ⟨⟨x, -, rfl⟩, lands⟩ := h
      rw [same, abreast.clock] at lands
      exact ⟨v, clears, rfl, (lands e rfl).2⟩
    · obtain ⟨⟨_, failed, -⟩, -⟩ := h
      cases failed
  exact run_of_ends both

end Orders

/-! ## Both at once -/

/-- an upload and a deletion that took turns have ended well; the upload alone leaves `u`, with one row more and an object
at its key -/
structure Ended (l : Location) (selection : Selection) (key : String) (row : Entry) (o : Object) (w u : World)
    (log : List Milestone) (t : World) : Prop where
  raced : Raced (Files.queryOf selection) key w u log t
  sifted : Content.Sifted l selection key w t
  kept : .kept ∈ log
  removed : .removed ∈ log
  objects : ∀ k, u.object? k = if k = key then some o else w.object? k
  rows : u.files.rows = w.files.rows ++ [row]
  asked : (Files.queryOf selection).holds row = true
  new : row ∉ w.files.rows
  place : l.key row.space row.id = .ok key

namespace Ended

variable {row : Entry} {o : Object} {u v z : World} {log : List Milestone}

theorem stays_iff (h : Ended l selection key row o w u log t) :
    row ∈ t.files.rows ↔ [Milestone.removed, .added].Sublist log := by
  rw [h.raced.rows_left h.rows h.removed h.asked]
  by_cases later : [Milestone.removed, .added].Sublist log
  · simp [later]
  · simp [later, h.new]

theorem content_left_iff (h : Ended l selection key row o w u log t) :
    t.HasContent l row ↔ ¬[Milestone.kept, .erased].Sublist log :=
  h.raced.content_left_iff h.kept ((h.objects key).trans (if_pos rfl)) h.place

/-- at other keys there is what a deletion alone leaves -/
theorem elsewhere (h : Ended l selection key row o w u log t)
    (objects : ∀ k o, k ≠ key → (z.object? k = some o ↔ w.object? k = some o ∧ ¬selection.Picks l k o)) (k : String)
    (other : k ≠ key) : t.object? k = z.object? k :=
  Option.ext fun o => (h.sifted.objects k o other).trans (objects k o other).symm

/-- **With its row and its content, the upload comes last.** -/
theorem like_last (h : Ended l selection key row o w u log t)
    (clears : (Deletion.selected selection).Clears l w v) (bucket : z.bucket.isSome = u.bucket.isSome)
    (objects : ∀ k, z.object? k = if k = key then some o else v.object? k) (rows : z.files.rows = v.files.rows ++ [row])
    (stays : row ∈ t.files.rows) (has : t.HasContent l row) : SameStores z t := by
  refine .of_objects (FileTable.eq_of_rows ?_) (h.raced.abreast.bucket.trans bucket.symm) fun k => ?_
  · rw [h.raced.rows_left h.rows h.removed h.asked, if_pos (h.stays_iff.1 stays), rows, clears.files]
    rfl
  · by_cases own : k = key
    · rw [own, h.raced.content h.kept, if_neg (h.content_left_iff.1 has), h.objects, objects, if_pos rfl, if_pos rfl]
    · refine h.elsewhere (fun k o other => ?_) k own
      rw [objects, if_neg other]
      exact clears.objects k o

/-- **Without its row, the upload comes first,** but for its content, which may be there. -/
theorem like_first (h : Ended l selection key row o w u log t) (clears : (Deletion.selected selection).Clears l u z)
    (picked : selection.Picks l key o) (gone : row ∉ t.files.rows) :
    t.files = z.files ∧ z.object? key = none ∧ ∀ k, k ≠ key → t.object? k = z.object? k := by
  refine ⟨FileTable.eq_of_rows ?_, Option.eq_none_iff_forall_ne_some.2 fun o' there => ?_, h.elsewhere fun k o other => ?_⟩
  · have asked : (!(Deletion.selected selection).query.holds row) = false := congrArg (!·) h.asked
    rw [h.raced.rows_left h.rows h.removed h.asked, if_neg fun later => gone (h.stays_iff.2 later), clears.files]
    show _ = u.files.rows.filter _
    rw [h.rows, List.filter_append, List.filter_singleton, asked]
    rfl
  · obtain ⟨same, unpicked⟩ := (clears.objects key o').1 there
    rw [h.objects, if_pos rfl, Option.some.injEq] at same
    exact unpicked (same ▸ picked)
  · rw [clears.objects, h.objects, if_neg other]
    rfl

end Ended

/-- **When both have returned.** -/
theorem Racing.ended {c : Crowd service (World × List Milestone)} {s : Stream}
    (race : Racing site.location selection key (Files.add site space ns name s) w c σ (.done ()) (.done ()))
    (unused : w.freshId.1 ∉ w.files.rows.map (·.id)) (hkey : site.location.key space w.freshId.1 = .ok key)
    (chosen : selection.Chooses space ns) :
    ∃ e utc, (w.run (Files.add site space ns name s)).outcome = .ok e ∧ w.clock.toUtc? = some utc ∧
      Files.Lands site.location ⟨w.freshId.1, space, ns, name, s.reading.content, w.clock⟩ w
        (w.run (Files.add site space ns name s)).state e ∧
      Ended site.location selection key { e with modified := utc }
        (Arrival.object ⟨w.freshId.1, space, ns, name, s.reading.content, w.clock⟩) w
        (w.run (Files.add site space ns name s)).state c.state.2 c.state.1 := by
  obtain ⟨kept, alone, e, given⟩ := race.uploads () rfl
  obtain rfl : σ = (w.run (Files.add site space ns name s)).state := alone
  obtain ⟨-, lands⟩ := run_of_ends (Files.add_lands s) e given
  obtain ⟨key', b, hkey', -, hb, hu⟩ := lands.object
  obtain rfl : key = key' := Except.ok.inj (hkey.symm.trans hkey')
  obtain ⟨utc, hutc, row, longer⟩ := lands.row
  exact ⟨e, utc, given, hutc, lands, race.raced, race.sifts () rfl, List.mem_of_mem_filter kept,
    List.mem_of_mem_filter (race.culls () rfl), object?_put hb hu, longer, chosen.holds row.space row.namespace_,
    fun there => unused (List.mem_map.2 ⟨_, there, row.id⟩), by rw [row.space, row.id, hkey]⟩

def Prog.hasReturned {I : Interface} : Prog I α → Bool
  | .done _ => true
  | _ => false

theorem Prog.eq_done_of_returned {I : Interface} {p : Prog I Unit} (h : p.hasReturned = true) : p = .done () := by
  cases p with
  | done => rfl
  | _ => cases h

/-- **An upload beside a bulk deletion.** Let an upload and a deletion of its space or its namespace take turns in any
order, one call or one event at a time, where no fault is scheduled, there are pages enough, and the id that the upload is
given is fresh; and let both have returned. Then both return in either order as well when one follows the other, and for
the row that the upload alone adds:
- it is there without its content just if the deletion removed objects by the upload's key after the upload had put its
content, and the upload added the row after the deletion had removed rows;
- where it is there with its content, the stores are as if the upload had come last;
- where it is not there, they are as if the upload had come first, but for what is at its key: a content without a row may
be left there. -/
theorem upload_beside_deletion (site : Site) (w : World) (calm : Calm w)
    (pages : ∀ b, w.bucket = some b → b.objects.length + 1 < site.pageLimit) (space : String) (ns : Option String)
    (name : String) (s : Stream) (selection : Selection) (chosen : selection.Chooses space ns)
    (fresh : Fresh site.location w [w.freshId.1]) (key : String) (hkey : site.location.key space w.freshId.1 = .ok key)
    (turns : List Nat) (c : Crowd service (World × List Milestone))
    (reached : c = (Crowd.race site w (Files.add site space ns name s) selection).after (marking key) turns)
    (returned : ∀ p ∈ c.programs, p.hasReturned = true) :
    let upload := Files.add site space ns name s
    let deletion := (Deletion.selected selection).program site
    let first := w.run (do let _ ← upload; deletion)
    let last := w.run (do let _ ← deletion; upload)
    let t := c.state.1
    ∃ e row, ((w.run upload).outcome = .ok e ∧ (w.run upload).state.files.rows = w.files.rows ++ [row]) ∧
      ((∃ n, first.outcome = .ok n) ∧ last.outcome = .ok e) ∧
      (row ∈ t.files.rows ∧ ¬t.HasContent site.location row ↔
        [.kept, .erased].Sublist c.state.2 ∧ [.removed, .added].Sublist c.state.2) ∧
      (row ∈ t.files.rows → t.HasContent site.location row → SameStores last.state t) ∧
      (row ∉ t.files.rows → t.files = first.state.files ∧ first.state.object? key = none ∧
        ∀ k, k ≠ key → t.object? k = first.state.object? k) := by
  intro upload deletion first last t
  have unused := fresh.unused _ (List.mem_singleton_self _)
  obtain ⟨segment, other⟩ := fresh.names _ (List.mem_singleton_self _)
  have named : "" ≠ key := Ne.symm (Location.key_ne_empty segment hkey)
  have start : Racing site.location selection key upload w _ _ _ _ := .start calm unused hkey chosen s
  obtain ⟨σ, p, d, race⟩ := start.after turns
  rw [← reached] at race
  obtain rfl : p = .done () := Prog.eq_done_of_returned (returned p (by simp [race.programs]))
  obtain rfl : d = .done () := Prog.eq_done_of_returned (returned d (by simp [race.programs]))
  obtain ⟨e, utc, given, hutc, lands, ended⟩ := race.ended unused hkey chosen
  obtain ⟨key', b, -, -, hb, hu⟩ := lands.object
  -- no call changes what is at the empty key, so a deletion alone does not come across it either
  have nameless : ∀ o, w.object? "" = some o → ¬selection.Reaches site.location "" :=
    fun o ho => ended.sifted.named o named (ended.raced.nameless.trans ho)
  obtain ⟨v, between, again, landed⟩ := run_upload_last unused hkey chosen calm s given
    (clears_of_named chosen calm (fun b hb => Nat.lt_of_succ_lt (pages b hb)) (by rw [hb]; rfl) ended.sifted.starts nameless)
  have clears events : deletion.Ends serve (Prog.Succeeds fun _ t _ =>
      (Deletion.selected selection).Clears site.location (w.run upload).state t) (w.run upload).state events := by
    refine clears_of_named chosen ended.raced.abreast.calm (fun b' hb' => ?_) (by rw [hu]; rfl) ended.sifted.starts ?_
    · obtain rfl := Option.some.inj (hu.symm.trans hb')
      exact Nat.lt_of_le_of_lt (Bucket.length_put_le b key' _) (pages b hb)
    · intro o ho
      rw [ended.objects, if_neg named] at ho
      exact nameless o ho
  obtain ⟨counted, cleared⟩ := run_upload_first given clears
  refine ⟨e, { e with modified := utc }, ⟨given, ended.rows⟩, ⟨counted, again⟩, ?_, fun here has => ?_, fun gone => ?_⟩
  · rw [ended.stays_iff, ended.content_left_iff, not_not, and_comm]
  · obtain ⟨key', b', hkey', -, hb', hlast⟩ := landed.object
    obtain rfl : key = key' := Except.ok.inj (hkey.symm.trans hkey')
    obtain ⟨utc', hutc', -, rows⟩ := landed.row
    obtain rfl : utc = utc' := Option.some.inj (hutc.symm.trans hutc')
    exact ended.like_last between (by rw [hlast, hu]; rfl) (object?_put hb' hlast) rows here has
  · exact ended.like_first cleared (chosen.picks segment other hkey) gone

/-- settings with more pages than there will be -/
def threePages : Site :=
  { Site.standard .top with pageLimit := 3 }

/-- an upload to a space and a deletion of the space, after some turns -/
def racedSpace (turns : List Nat) : Crowd service (World × List Milestone) :=
  (Crowd.race threePages .fresh (Files.add threePages "s" none "a.txt" inTwoReads) (.inSpaces ["s"])).after
    (marking "s/id-0001") turns

/-- the upload puts its content, the deletion goes its whole way, and the upload adds its row -/
def tornRace : Crowd service (World × List Milestone) :=
  racedSpace (List.replicate 10 0 ++ List.replicate 5 1 ++ List.replicate 4 0)

/-- **A row can lose its content for good:** it is left without one, while no such row comes of one after the other. -/
theorem tornRace_dangles :
    let upload := Files.add threePages "s" none "a.txt" inTwoReads
    let deletion := (Deletion.selected (.inSpaces ["s"])).program threePages
    (Calm World.fresh ∧ (Selection.inSpaces ["s"]).Chooses "s" none ∧ ∀ p ∈ tornRace.programs, p.hasReturned = true) ∧
    (∃ e ∈ tornRace.state.1.files.rows, e.id = World.fresh.freshId.1 ∧ ¬tornRace.state.1.HasContent .top e ∧
      (World.fresh.run (do let _ ← deletion; upload)).state.HasContent .top e) ∧
    (World.fresh.run (do let _ ← upload; deletion)).state.files.rows = [] := by
  refine ⟨⟨⟨rfl, rfl, rfl⟩, List.mem_singleton_self _, ?_⟩, ?_, ?_⟩
  · decide +kernel
  · decide +kernel
  · decide +kernel

/-- the deletion lists nothing, the upload goes its whole way, and the deletion removes the rows -/
def orphanRace : Crowd service (World × List Milestone) :=
  racedSpace (List.replicate 2 1 ++ List.replicate 14 0 ++ [1])

theorem upload_beside_deletion_orphanRace :
    let upload := Files.add threePages "s" none "a.txt" inTwoReads
    let deletion := (Deletion.selected (.inSpaces ["s"])).program threePages
    (Fresh .top .fresh [World.fresh.freshId.1] ∧ ∀ p ∈ orphanRace.programs, p.hasReturned = true) ∧
    orphanRace.state.1.files = (World.fresh.run (do let _ ← upload; deletion)).state.files ∧
    (orphanRace.state.1.object? "s/id-0001").isSome := by
  have fresh : Fresh .top .fresh [World.fresh.freshId.1] := ⟨by decide +kernel, by decide +kernel, by decide +kernel⟩
  have returned : ∀ p ∈ orphanRace.programs, p.hasReturned = true := by decide +kernel
  obtain ⟨e, row, -, -, -, -, gone⟩ := upload_beside_deletion threePages .fresh ⟨rfl, rfl, rfl⟩ (by decide +kernel)
    "s" none "a.txt" inTwoReads (.inSpaces ["s"]) (List.mem_singleton_self _) fresh "s/id-0001" (by decide +kernel) _
    orphanRace rfl returned
  have empty : orphanRace.state.1.files.rows = [] := by decide +kernel
  exact ⟨⟨fresh, returned⟩, (gone (empty ▸ List.not_mem_nil)).1, by decide +kernel⟩

end Depot
