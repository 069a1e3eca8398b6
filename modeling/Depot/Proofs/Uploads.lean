/-
What an upload does to the stores, whatever faults strike on its way.

An upload brings an `Arrival`: an id and a time given to it, and a content. It leaves the stores as they are, or keeps
the content under the arrival's key, and then adds a row for it or fails to (`Brings`). The steps of an upload before
the store is touched only prepare a local file with the content (`receive_ends`, `describe_ends`); the rest is common
to both kinds of uploads (`store_ends`).
-/
import Depot.Files
import Depot.Proofs.Digests
import Depot.Proofs.Disks
import Depot.Proofs.Replies
import Depot.Proofs.Run

namespace Depot

open World

/-! ## Arrivals -/

/-- what an upload brings to the stores -/
structure Arrival where
  id : String
  space : String
  namespace_ : Option String
  name : String
  content : ByteArray
  modified : Time.Timestamp

namespace Arrival

/-- an entry with the same id, space, namespace, name and time -/
def entry (a : Arrival) (size : Int) (digest algorithm : String) : Entry :=
  ⟨a.id, a.space, a.namespace_, a.name, size, digest, algorithm, a.modified⟩

def object (a : Arrival) : Object :=
  ⟨a.content, Content.metadataOf (a.entry 0 "" "")⟩

/-- a row is one of an arrival: its size and digest are those of the content, and its time is the same in UTC -/
structure Row (a : Arrival) (e : Entry) : Prop where
  id : e.id = a.id
  space : e.space = a.space
  namespace_ : e.namespace_ = a.namespace_
  name : e.name = a.name
  size : e.size = a.content.size
  digest : Digest.Describes e.algorithm a.content.size e.digest a.content
  modified : a.modified.toUtc? = some e.modified

/-- a run leaves the stores as they are, or keeps the object of an arrival, and then adds a row for it or does not; in
the latter case the time has no date in UTC, or something else `failed` -/
def Brings (l : Key.Location) (a : Arrival) (w t : World) (failed : Prop) : Prop :=
  SameStores w t ∨ ∃ key b, l.key a.space a.id = .ok key ∧ w.bucket = some b ∧ t.bucket = some (b.put key a.object) ∧
    (t.files = w.files ∧ (a.modified.toUtc? = none ∨ failed) ∨ ∃ e, a.Row e ∧ t.files.rows = w.files.rows ++ [e])

theorem Brings.then_aside {l : Key.Location} {a : Arrival} {w t u : World} {failed later : Prop}
    (h : Brings l a w t failed) (aside : SameStores t u) (still : failed → later) : Brings l a w u later := by
  rcases h with same | ⟨key, b, hkey, hb, ht, rows⟩
  · exact .inl (same.trans aside)
  · refine .inr ⟨key, b, hkey, hb, aside.bucket.trans ht, ?_⟩
    rcases rows with ⟨hfiles, why⟩ | ⟨e, he, hrows⟩
    · exact .inl ⟨aside.files.trans hfiles, why.imp_right still⟩
    · exact .inr ⟨e, he, aside.files ▸ hrows⟩

theorem Brings.after_aside {l : Key.Location} {a : Arrival} {w t u : World} {failed : Prop} (aside : SameStores w t)
    (h : Brings l a t u failed) : Brings l a w u failed := by
  rcases h with same | ⟨key, b, hkey, hb, hu, rows⟩
  · exact .inl (aside.trans same)
  · refine .inr ⟨key, b, hkey, aside.bucket ▸ hb, hu, ?_⟩
    rcases rows with ⟨hfiles, why⟩ | ⟨e, he, hrows⟩
    · exact .inl ⟨hfiles.trans aside.files, why⟩
    · exact .inr ⟨e, he, aside.files ▸ hrows⟩

end Arrival

def failedInsert : (c : Call) → c.Reply → Prop
  | .insertFile _, .error _ => True
  | _, _ => False

/-! ## Local steps -/

variable {w : World} {events : List Event} {l : Key.Location} {site : Site}

theorem aside_of_local {α : Type} {p : Op α} (h : p.Only Call.IsLocal) :
    p.Ends serve (fun _ t _ => Aside w t) w events :=
  h.keeps (J := Aside w) (fun _ _ hc ht => ht.trans (serve_local hc _)) (Aside.refl w)

theorem local_removeStaged (path : Disk.Path) : (Upload.removeStaged path).Only Call.IsLocal := by
  refine Prog.Only.bind (Op.only_ask trivial) fun reply => ?_
  split
  · exact Prog.only_pure _
  · split
    · exact Prog.only_record _
    · exact .fail _

namespace Upload

theorem local_stage (s : Stream) (algorithm : String) (folder : Disk.Path) :
    (stage s algorithm folder).Only Call.IsLocal := by
  refine Prog.Only.bind (Op.only_ask trivial) fun reply => ?_
  cases reply with
  | error f => exact .fail _
  | ok path =>
    have filled : (fill path s algorithm).Only Call.IsLocal := by
      refine (Prog.only_ofExcept _).bind fun known => Prog.Only.bind (Op.only_ask trivial) fun reading => ?_
      refine Prog.Only.bind (Op.only_ask trivial) fun _ => ?_
      split
      · exact Prog.only_pure _
      · split
        · exact Prog.only_pure _
        · exact .fail _
    refine filled.attempt.bind fun outcome => ?_
    cases outcome with
    | error failure => exact (local_removeStaged path).bind fun _ => .fail _
    | ok filled =>
      cases filled with
      | whole => exact (Prog.only_record _).bind fun _ => .done _
      | interrupted e => exact .fail e

theorem local_describe (path : Disk.Path) (algorithm : String) : (describe path algorithm).Only Call.IsLocal := by
  refine Prog.Only.bind (Op.only_ask trivial) fun reply => ?_
  cases reply with
  | error f => exact .fail _
  | ok content => exact (Prog.only_ofExcept _).bind fun _ => .done _

end Upload

theorem Files.local_receive {site : Site} (s : Stream) : (receive site s).Only Call.IsLocal := by
  have staged : (do
      let algorithm ← setting site.digestAlgorithm
      let folder ← setting site.stagingFolder
      Upload.stage s algorithm folder : Op Upload.LocalFile).Only Call.IsLocal := by
    cases site.digestAlgorithm with
    | none => exact .fail _
    | some algorithm =>
      cases site.stagingFolder with
      | none => exact .fail _
      | some folder => exact Upload.local_stage s algorithm folder
  exact staged.attempt.bind fun outcome => Prog.Only.bind (Op.only_ask trivial) fun reply =>
    (Prog.only_ofReply reply).bind fun _ => Prog.only_ofExcept outcome

def HoldsContent (w : World) (file : Upload.LocalFile) (content : ByteArray) : Prop :=
  Digest.Describes file.algorithm file.size file.digest content ∧ ∀ c, w.disk.read file.path = .ok c → c = content

namespace Upload

theorem fill_ends (s : Stream) (name : String) {folder path : Disk.Path} {before : Disk}
    (made : before.createTemporary folder = .ok (path, w.disk)) :
    (fill path s name).Ends serve (fun r t _ => Aside w t ∧ ∀ n digest, r = .ok (.whole n digest) →
      Digest.Describes name n digest s.reading.content ∧
      t.disk.find path = .ok (path.names, some (.file s.reading.content)) ∧ Disk.Straight path.names) w events := by
  rw [fill]
  cases known : Digest.algorithmOf name with
  | error e =>
    rw [Prog.ofExcept_error_bind, Prog.ends_fail]
    exact ⟨.refl w, by simp⟩
  | ok a =>
    rw [Prog.ofExcept_ok_bind, Op.ends_ask_bind, Op.ends_ask_bind]
    have drained : Aside w (serve (.drain s) w).2 := serve_local (by exact trivial) w
    let copied := Digest.copy s.reading.ending none s.reading.pieces
    have aside : Aside w (serve (.writeFile path copied.written) (serve (.drain s) w).2).2 :=
      drained.trans (serve_local (by exact trivial) _)
    split
    · rename_i n digest ok
      refine ⟨aside, fun n digest same => ?_⟩
      cases same
      obtain ⟨described, written⟩ := Digest.result_ok (r := s.reading) known ok
      refine ⟨described, ?_⟩
      show ((w.disk.write path (Digest.copy s.reading.ending none s.reading.pieces).written).find path = _) ∧ _
      rw [written]
      exact Disk.read_temporary made s.reading.content
    · split
      · exact ⟨aside, nofun⟩
      · exact ⟨aside, nofun⟩

theorem stage_ends (s : Stream) (algorithm : String) (folder : Disk.Path) :
    (stage s algorithm folder).Ends serve (fun r t _ => Aside w t ∧ ∀ file, r = .ok file →
      Digest.Describes file.algorithm file.size file.digest s.reading.content ∧
      t.disk.find file.path = .ok (file.path.names, some (.file s.reading.content)) ∧
      Disk.Straight file.path.names) w events := by
  rw [stage, Op.ends_ask_bind]
  cases made : w.disk.createTemporary folder with
  | error trouble =>
    have reply : serve (.createTemporary folder) w = (.error (.file trouble folder), w) := by simp only [serve, made]
    rw [reply]
    exact ⟨.refl w, by simp⟩
  | ok new =>
    obtain ⟨path, disk⟩ := new
    have reply : serve (.createTemporary folder) w = (.ok path, { w with disk := disk }) := by simp only [serve, made]
    have aside : Aside w { w with disk := disk } := ⟨⟨rfl, rfl⟩, rfl, rfl, rfl, rfl, rfl, rfl⟩
    rw [reply]
    dsimp only
    rw [Prog.ends_bind, Prog.ends_attempt]
    refine (fill_ends (w := { w with disk := disk }) s algorithm made).mono fun r t more hr => ?_
    obtain ⟨ht, filled⟩ := hr
    cases r with
    | error e =>
      refine (aside_of_local (local_removeStaged path)).bind (fun _ u _ hu => ?_) (fun _ u _ hu => ?_)
      · exact ⟨(aside.trans ht).trans hu, by simp⟩
      · exact ⟨(aside.trans ht).trans hu, by simp⟩
    | ok left =>
      cases left with
      | interrupted e => exact ⟨aside.trans ht, by simp⟩
      | whole n digest =>
        dsimp only
        rw [Prog.ends_record_bind, Prog.ends_pure]
        refine ⟨aside.trans ht, fun file ok => ?_⟩
        cases ok
        exact filled n digest rfl

theorem describe_ends (path : Disk.Path) (algorithm : String) :
    (describe path algorithm).Ends serve (fun r t _ => t = w ∧ ∀ file, r = .ok file →
      ∃ content, w.disk.read path = .ok content ∧ HoldsContent w file content) w events := by
  rw [describe, Op.ends_ask_bind]
  cases read : w.disk.read path with
  | error trouble =>
    have reply : serve (.readFile path) w = (.error (.file trouble path), w) := by simp only [serve, read, ofDisk]
    rw [reply]
    exact ⟨rfl, by simp⟩
  | ok content =>
    have reply : serve (.readFile path) w = (.ok content, w) := by simp only [serve, read, ofDisk]
    rw [reply]
    dsimp only
    rw [Prog.ends_bind, Prog.ends_ofExcept]
    cases h : (Digest.digestCopy algorithm none ((Device.ofContent content).reading Digest.chunkSize)).outcome with
    | error e => exact ⟨rfl, by simp⟩
    | ok result =>
      obtain ⟨n, digest⟩ := result
      refine ⟨rfl, fun file ok => ⟨content, rfl, ?_⟩⟩
      cases ok
      have described := Digest.digestCopy_ok h
      rw [Device.content_reading content (by decide)] at described
      exact ⟨described, fun c hc => Except.ok.inj (hc.symm.trans read)⟩

end Upload

namespace Files

/-- a stream that was received is in a local file, unless this went away with the staging folder -/
theorem receive_ends (s : Stream) : (receive site s).Ends serve (fun r t _ => Aside w t ∧ ∀ file, r = .ok file →
    HoldsContent t file s.reading.content ∧ Disk.check file.path = .ok ()) w events := by
  rw [receive, Prog.ends_bind, Prog.ends_attempt]
  refine Prog.Ends.mono (R := fun r t _ => Aside w t ∧ ∀ file, r = .ok file →
      Digest.Describes file.algorithm file.size file.digest s.reading.content ∧
      t.disk.find file.path = .ok (file.path.names, some (.file s.reading.content)) ∧
      Disk.Straight file.path.names) ?_ fun r t more hr => ?_
  · cases site.digestAlgorithm with
    | none => exact ⟨.refl w, by simp⟩
    | some algorithm =>
      cases site.stagingFolder with
      | none => exact ⟨.refl w, by simp⟩
      | some folder => exact Upload.stage_ends s algorithm folder
  · obtain ⟨ht, staged⟩ := hr
    dsimp only
    rw [Op.ends_ask_bind]
    have closed : Aside w (serve (.close s) t).2 := ht.trans (serve_local (by exact trivial) t)
    have reply : (serve (.close s) t).1 = if s.closeFails then .error .closeFailed else .ok () := rfl
    rw [reply, Prog.ends_bind, Prog.ends_ofReply]
    cases s.closeFails with
    | true => exact ⟨closed, by simp⟩
    | false =>
      show (Prog.ofExcept r : Op Upload.LocalFile).Ends _ _ _ _
      rw [Prog.ends_ofExcept]
      refine ⟨closed, fun file ok => ?_⟩
      obtain ⟨described, there, straight⟩ := staged file ok
      refine ⟨⟨described, fun c hc => ?_⟩, (Disk.find_ok there).1⟩
      have disk : (serve (.close s) t).2.disk = if s.clearsStaging then t.disk.clear .staging else t.disk := rfl
      rw [disk] at hc
      split at hc
      · exact Disk.read_clear straight there hc
      · exact Except.ok.inj (hc.symm.trans (Disk.read_of_find there))

/-! ## Storing -/

end Files

/-- the content of an entry is kept, or nothing happens and this is a failure -/
theorem Content.put_ends (e : Entry) (content : ByteArray) :
    (Content.put site e content).Ends serve (fun r t _ => (∃ failure, r = .error failure ∧ SameStores w t) ∨
      r = .ok () ∧ ∃ key b, site.location.key e.space e.id = .ok key ∧ w.bucket = some b ∧
        t.bucket = some (b.put key ⟨content, metadataOf e⟩) ∧ t.files = w.files) w events := by
  rw [Content.put]
  cases hkey : site.location.key e.space e.id with
  | error failure =>
    rw [Prog.ofExcept_error_bind, Prog.ends_fail]
    exact .inl ⟨failure, rfl, .refl w⟩
  | ok key =>
    rw [Prog.ofExcept_ok_bind]
    refine Prog.Ends.bind_either (a := ()) (F := SameStores w) (R := fun t => ∃ b, w.bucket = some b ∧
      t.bucket = some (b.put key ⟨content, metadataOf e⟩) ∧ t.files = w.files) (Op.ends_account_either ?_) ?_ ?_
    · rw [Prog.ends_record_bind, Op.ends_ask_bind, Prog.ends_ofReply]
      rcases serve_put w key content (metadataOf e) with ⟨f, reply, same⟩ | ⟨reply, stored⟩
      · exact .inl ⟨.fault f, congrArg Prog.bare reply, same⟩
      · exact .inr ⟨congrArg Prog.bare reply, stored⟩
    · rintro t more ⟨b, hb, ht, hfiles⟩
      exact .inr ⟨rfl, key, b, rfl, hb, ht, hfiles⟩
    · intro failure t more same
      exact .inl ⟨failure, rfl, same⟩

namespace Files

theorem freshId_keeps (w : World) : SameStores w w.freshId.2 ∧ w.freshId.2.disk = w.disk ∧ w.freshId.2.clock = w.clock := by
  rw [freshId]
  split <;> exact ⟨⟨rfl, rfl⟩, rfl, rfl⟩

theorem insert_ends (e : Entry) (seen : Prop) (task : Task) :
    (statement task (do
      let utc ← inUtc e.modified
      Prog.ofReply (← Op.ask (.insertFile { e with modified := utc })))).Ends (Prog.watch serve failedInsert)
    (fun r t _ => (∃ failure, r = .error failure ∧ SameStores w t.1 ∧ (e.modified.toUtc? = none ∨ t.2)) ∨
      r = .ok () ∧ ∃ utc, e.modified.toUtc? = some utc ∧ t.1.bucket = w.bucket ∧
        t.1.files.rows = w.files.rows ++ [{ e with modified := utc }]) (w, seen) events := by
  apply Op.ends_account_either
  cases hutc : e.modified.toUtc? with
  | none =>
    rw [inUtc, hutc]
    exact .inl ⟨_, rfl, .refl w, .inl rfl⟩
  | some utc =>
    rw [inUtc, hutc]
    show (Op.ask (.insertFile { e with modified := utc }) >>= fun r => Prog.ofReply r : Op Unit).Ends _ _ _ _
    rw [Op.ends_ask_bind, Prog.ends_ofReply]
    rcases serve_insert w { e with modified := utc } with ⟨f, reply, same⟩ | ⟨reply, hbucket, hrows⟩
    · refine .inl ⟨.fault f, congrArg Prog.bare reply, same, .inr (.inr ?_)⟩
      rw [reply]
      trivial
    · exact .inr ⟨congrArg Prog.bare reply, utc, rfl, hbucket, hrows⟩

theorem keep_ends {a : Arrival} {n : Nat} {digest algorithm : String}
    (described : Digest.Describes algorithm n digest a.content) (seen : Prop) (last : Event) :
    (do
      Content.put site (a.entry n digest algorithm) a.content
      statement (.insertEntry a.id) do
        let utc ← inUtc (a.entry n digest algorithm).modified
        Prog.ofReply (← Op.ask (.insertFile { a.entry n digest algorithm with modified := utc }))
      Prog.record last
      pure (a.entry n digest algorithm) : Op Entry).Ends (Prog.watch serve failedInsert)
    (fun _ t _ => a.Brings site.location w t.1 t.2) (w, seen) events := by
  have kept : (Content.put site (a.entry n digest algorithm) a.content).Ends (Prog.watch serve failedInsert) _ (w, seen)
      events := (Content.put_ends _ _).watched
  apply (kept.mono fun _ _ _ h => h.1).bind_either
  · rintro ⟨u, noted⟩ more ⟨key, b, hkey, hb, ht, hfiles⟩
    apply (insert_ends (a.entry n digest algorithm) noted _).bind_either
    · rintro v more ⟨utc, hutc, hbucket, hrows⟩
      refine .inr ⟨key, b, hkey, hb, hbucket.trans ht, .inr ⟨_, ?_, hfiles ▸ hrows⟩⟩
      exact ⟨rfl, rfl, rfl, rfl, congrArg _ described.1, ⟨rfl, described.2⟩, hutc⟩
    · rintro failure v more ⟨same, why⟩
      exact .inr ⟨key, b, hkey, hb, same.bucket.trans ht, .inl ⟨same.files.trans hfiles, why⟩⟩
  · intro failure t more same
    exact .inl same

theorem store_ends {space name : String} {ns : Option String} {file : Upload.LocalFile} {content : ByteArray}
    (holds : HoldsContent w file content) (seen : Prop) :
    (store site space ns name file).Ends (Prog.watch serve failedInsert) (fun _ t _ =>
      Arrival.Brings site.location ⟨w.freshId.1, space, ns, name, content, w.clock⟩ w t.1 t.2) (w, seen) events := by
  obtain ⟨stores, disk, clock⟩ := freshId_keeps w
  obtain ⟨described, only⟩ := holds
  rw [store, Op.ends_ask_bind_watch, Op.ends_ask_bind_watch]
  have id : (serve .freshId w).1 = w.freshId.1 := rfl
  have now : (serve .now (serve .freshId w).2).1 = w.clock := clock
  rw [id, now]
  obtain ⟨before, hbefore⟩ : ∃ before, (serve .now (serve .freshId w).2).2 = before := ⟨_, rfl⟩
  have same : SameStores w before := hbefore ▸ stores.trans ⟨rfl, rfl⟩
  have readable : ∀ c, before.disk.read file.path = .ok c → c = content := by
    have : before.disk = w.disk := hbefore ▸ disk
    rwa [this]
  rw [hbefore]
  dsimp only
  rw [Op.ends_ask_bind_watch]
  have reply : serve (.readFile file.path) before = (ofDisk file.path (before.disk.read file.path), before) := rfl
  rw [reply]
  generalize (_ ∨ _ : Prop) = seen
  cases read : before.disk.read file.path with
  | error trouble =>
    rw [ofDisk]
    exact .inl same
  | ok c =>
    rw [ofDisk, readable c read]
    let a : Arrival := ⟨w.freshId.1, space, ns, name, content, w.clock⟩
    exact (keep_ends (a := a) described seen _).mono fun r t more h => h.after_aside same

/-- **An upload of a stream brings its content**, with the next id and the time. -/
theorem add_ends (space : String) (ns : Option String) (name : String) (s : Stream) :
    (add site space ns name s).Ends serve (fun _ t _ =>
      Arrival.Brings site.location ⟨w.freshId.1, space, ns, name, s.reading.content, w.clock⟩ w t
        ((add site space ns name s).Makes serve failedInsert w)) w events := by
  refine (Prog.ends_watch _ (fun _ t _ =>
    Arrival.Brings site.location ⟨w.freshId.1, space, ns, name, s.reading.content, w.clock⟩ w t.1 t.2) w events).1 ?_
  rw [add]
  refine (receive_ends s).watched.bind (fun file t more h => ?_) (fun failure t more h => ?_)
  · obtain ⟨⟨aside, received⟩, -⟩ := h
    obtain ⟨t, noted⟩ := t
    rw [Prog.ends_bind, Prog.ends_attempt]
    refine (store_ends (received file rfl).1 noted).mono fun r u more h => ?_
    obtain ⟨u, noted⟩ := u
    dsimp only at h ⊢
    rw [freshId_eq aside.ids aside.serial, aside.clock] at h
    have brought := h.after_aside aside.toSameStores
    refine (aside_of_local (local_removeStaged file.path)).watched.bind (fun _ v more h => ?_)
      (fun failure v more h => ?_)
    · rw [Prog.ends_ofExcept]
      exact brought.then_aside h.1.toSameStores h.2
    · exact brought.then_aside h.1.toSameStores h.2
  · exact .inl h.1.1.toSameStores

/-- **An upload of a local file brings its content**, with the next id and the time. -/
theorem addExisting_ends (space : String) (ns : Option String) (name : String) {path : Disk.Path} :
    (addExisting site space ns name path).Ends serve (fun _ t _ => SameStores w t ∨ ∃ content,
      w.disk.read path = .ok content ∧ Arrival.Brings site.location ⟨w.freshId.1, space, ns, name, content, w.clock⟩ w t
        ((addExisting site space ns name path).Makes serve failedInsert w)) w events := by
  refine (Prog.ends_watch _ (fun _ t _ => SameStores w t.1 ∨ ∃ content, w.disk.read path = .ok content ∧
    Arrival.Brings site.location ⟨w.freshId.1, space, ns, name, content, w.clock⟩ w t.1 t.2) w events).1 ?_
  rw [addExisting]
  cases site.digestAlgorithm with
  | none => exact .inl (.refl w)
  | some algorithm =>
    refine (Upload.describe_ends path algorithm).watched.bind (fun file t more h => ?_) (fun failure t more h => ?_)
    · obtain ⟨⟨rfl, described⟩, -⟩ := h
      obtain ⟨content, read, holds⟩ := described file rfl
      exact (store_ends holds t.2).mono fun r u more h => .inr ⟨content, read, h⟩
    · obtain ⟨⟨same, -⟩, -⟩ := h
      exact .inl (same ▸ .refl w)

end Files

end Depot
