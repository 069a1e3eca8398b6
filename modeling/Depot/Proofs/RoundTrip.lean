/-
Uploads are read back as they were made.

An upload of a stream that ends well has put all bytes of the stream at the key of the entry that it gives, and has added
the row of this entry and no other, whatever happened on the way (`Files.add_lands`). The row has the entry's time in UTC,
so on a clock in UTC it is the entry itself. What is read without faults from the stores that it left is then what was
uploaded (`upload_round_trip`).
-/
import Depot.Proofs.Isolation

namespace Depot

open World

variable {w v t : World} {events : List Event} {site : Site} {space name id : String} {ns : Option String} {e : Entry}

theorem Time.Timestamp.toUtc?_of_utc {time : Time.Timestamp} (h : time.offset = some 0) : time.toUtc? = some time := by
  have same : time.instant = time.wall := by
    rw [instant, h, Option.getD_some, Int.sub_zero]
  have inside : 0 ≤ time.instant ∧ time.instant < limit := by
    have within := time.wall_lt
    omega
  rw [toUtc?, ofInstant?, dif_pos inside, Option.some.injEq]
  obtain ⟨wall, offset, within, bounds⟩ := time
  obtain rfl : offset = some 0 := h
  rfl

/-! ## What uploads give -/

/-- what holds however the last of two programs ends, when the first one may do anything -/
theorem Prog.Ends.last {I : Interface} {α β σ : Type} {serve : (c : I.Call) → σ → I.Reply c × σ} {p : Prog I α}
    {f : α → Prog I β} {Q : Prog.Goal σ β} {s : σ} {events : List Event}
    (ok : ∀ a s events, (f a).Ends serve Q s events) (error : ∀ e s events, Q (.error e) s events) :
    (p >>= f).Ends serve Q s events :=
  (Prog.ends_of p (fun _ _ _ => trivial) s events).bind (fun a s events _ => ok a s events) (fun e s events _ =>
    error e s events)

theorem Upload.stage_algorithm (s : Stream) (algorithm : String) (folder : Disk.Path) :
    (stage s algorithm folder).Ends serve (fun r _ _ => ∀ file, r = .ok file → file.algorithm = algorithm) w events := by
  refine Prog.Ends.last (fun reply t more => ?_) (fun _ _ _ => by simp)
  cases reply with
  | error f => simp [failAt]
  | ok path =>
    refine Prog.Ends.last (fun outcome u more => ?_) (fun _ _ _ => by simp)
    cases outcome with
    | error failure => exact Prog.Ends.last (fun _ _ _ => by simp) (fun _ _ _ => by simp)
    | ok filled =>
      cases filled with
      | interrupted e => simp
      | whole size digest =>
        dsimp only
        rw [Prog.ends_record_bind, Prog.ends_pure]
        rintro file ⟨⟩
        rfl

namespace Files

theorem receive_algorithm (s : Stream) : (receive site s).Ends serve (fun r _ _ =>
    ∀ file, r = .ok file → site.digestAlgorithm = some file.algorithm) w events := by
  rw [receive, Prog.ends_bind, Prog.ends_attempt]
  refine Prog.Ends.mono (R := fun r _ _ => ∀ file, r = .ok file → site.digestAlgorithm = some file.algorithm) ?_
    fun r t more staged => ?_
  · cases site.digestAlgorithm with
    | none => simp [setting]
    | some algorithm =>
      cases site.stagingFolder with
      | none => simp [setting]
      | some folder => exact (Upload.stage_algorithm s algorithm folder).mono fun r t _ h file ok => by rw [h file ok]
  · refine Prog.Ends.last (fun reply u more => ?_) (fun _ _ _ => by simp)
    refine Prog.Ends.last (fun _ v more => ?_) (fun _ _ _ => by simp)
    rw [Prog.ends_ofExcept]
    exact staged

end Files

theorem Content.put_named (e : Entry) (content : ByteArray) : (Content.put site e content).Ends serve
    (fun r _ _ => r = .ok () → ∀ key, site.location.key e.space e.id = .ok key → key ≠ "") w events := by
  rw [Content.put]
  cases hkey : site.location.key e.space e.id with
  | error failure => simp
  | ok key =>
    rw [Prog.ofExcept_ok_bind]
    refine Prog.Ends.bind (R := fun r _ _ => (∃ a, r = .ok a) → key ≠ "") (Op.ends_account
      (R := fun r _ _ => (∃ a, r = .ok a) → key ≠ "") ?_ (fun _ _ _ h => h) (by simp)) (fun _ t more named => ?_) (by simp)
    · rw [Prog.ends_record_bind, Op.ends_ask_bind, Prog.ends_ofReply]
      rintro ⟨_, kept⟩ rfl
      rw [serve, request_emptyKey List.mem_cons_self] at kept
      cases kept
    · rintro - _ ⟨⟩
      exact named ⟨_, rfl⟩

namespace Files

/-- an entry that is given has the next id and the time, and its content has a key -/
theorem store_gives {file : Upload.LocalFile} : (store site space ns name file).Ends serve (fun r _ _ => ∀ e, r = .ok e →
    (e.algorithm = file.algorithm ∧ e.modified = w.clock) ∧
      ∀ key, site.location.key space w.freshId.1 = .ok key → key ≠ "") w events := by
  unfold store
  rw [Op.ends_ask_bind, Op.ends_ask_bind, Op.ends_ask_bind]
  have time : (serve .now (serve .freshId w).2).1 = w.clock := (freshId_keeps w).2.2
  rw [time]
  generalize (serve (.readFile file.path) (serve .now (serve .freshId w).2).2) = read
  cases read.1 with
  | error f => simp [Upload.failAt]
  | ok content =>
    refine (Content.put_named _ content).bind (fun _ t more named => ?_) (by simp)
    refine Prog.Ends.last (fun _ u more => ?_) (by simp)
    rw [Prog.ends_record_bind, Prog.ends_pure]
    rintro e ⟨⟩
    exact ⟨⟨rfl, rfl⟩, named rfl⟩

theorem add_gives (s : Stream) : (add site space ns name s).Ends serve (fun r _ _ => ∀ e, r = .ok e →
    (site.digestAlgorithm = some e.algorithm ∧ e.modified = w.clock) ∧
      ∀ key, site.location.key space w.freshId.1 = .ok key → key ≠ "") w events := by
  unfold add
  refine ((aside_of_local (local_receive s)).and (receive_algorithm s)).bind (fun file t more h => ?_) (by simp)
  obtain ⟨aside, algorithm⟩ := h
  rw [Prog.ends_bind, Prog.ends_attempt]
  refine store_gives.mono fun r u more gives => Prog.Ends.last (fun _ v more => ?_) (by simp)
  rw [Prog.ends_ofExcept]
  intro e given
  obtain ⟨⟨made, time⟩, named⟩ := gives e given
  rw [freshId_eq aside.ids aside.serial] at named
  exact ⟨⟨(algorithm file rfl).trans (congrArg some made.symm), time.trans aside.clock⟩, named⟩

/-- the content of an arrival was kept and its row was added, which is an entry with the time in UTC -/
structure Lands (l : Key.Location) (a : Arrival) (w t : World) (e : Entry) : Prop where
  time : e.modified = a.modified
  object : ∃ key b, l.key a.space a.id = .ok key ∧ key ≠ "" ∧ w.bucket = some b ∧ t.bucket = some (b.put key a.object)
  row : ∃ utc, a.modified.toUtc? = some utc ∧ a.Row { e with modified := utc } ∧
    t.files.rows = w.files.rows ++ [{ e with modified := utc }]

/-- on a clock in UTC the row is the entry -/
theorem Lands.in_utc {l : Key.Location} {a : Arrival} (h : Lands l a w t e) (utc : a.modified.offset = some 0) :
    a.Row e ∧ t.files.rows = w.files.rows ++ [e] := by
  obtain ⟨utc', hutc, row, added⟩ := h.row
  rw [Time.Timestamp.toUtc?_of_utc utc, ← h.time, Option.some.injEq] at hutc
  subst hutc
  exact ⟨row, added⟩

/-- **An upload that ends well has kept its content and added its row.** -/
theorem add_lands (s : Stream) : (add site space ns name s).Ends serve (fun r t _ => ∀ e, r = .ok e →
    site.digestAlgorithm = some e.algorithm ∧
      Lands site.location ⟨w.freshId.1, space, ns, name, s.reading.content, w.clock⟩ w t e) w events := by
  refine ((add_gives s).and ((add_uploads space ns name s).and (add_ends space ns name s))).mono ?_
  rintro r t more ⟨gives, uploads, brings⟩ e rfl
  obtain ⟨⟨algorithm, time⟩, named⟩ := gives e rfl
  obtain ⟨-, -, utc, hutc, added⟩ := uploads.rows
  have longer : t.files ≠ w.files := by
    intro same
    have number := congrArg List.length (added.symm.trans (congrArg (·.rows) same))
    simp at number
  rcases brings with same | ⟨key, b, hkey, hb, ht, ⟨same, -⟩ | ⟨e', row, added'⟩⟩
  · exact absurd same.files longer
  · exact absurd same longer
  · obtain rfl : e' = { e with modified := utc } :=
      List.singleton_injective (List.append_cancel_left (added'.symm.trans added))
    exact ⟨algorithm, time, ⟨key, b, hkey, named key hkey, hb, ht⟩, utc, time ▸ hutc, row, added⟩

/-! ## Reading -/

theorem unstruck_select (unstruck : w.strikes = []) {q q' : FileQuery} (prepared : prepare q = pure q')
    (asks : q'.isEmpty = false) : (select q).Ends serve (fun r _ _ => r = .ok (w.files.select q')) w events := by
  rw [select, prepared, LawfulMonad.pure_bind, asks, if_neg Bool.false_ne_true, Op.ends_ask_bind, Prog.ends_ofReply, serve,
    statement_calm unstruck]
  rfl

theorem unstruck_statement (unstruck : w.strikes = []) {q : FileQuery} (prepared : prepare q = pure q)
    (asks : q.isEmpty = false) (task : Task) :
    (statement task (select q)).Ends serve (fun r _ _ => r = .ok (w.files.select q)) w events :=
  Op.ends_account (unstruck_select unstruck prepared asks) (fun _ _ _ h => h) (by simp)

theorem unstruck_get (unstruck : w.strikes = []) (he : e ∈ w.files.rows) :
    (get e.space e.id).Ends serve (fun r _ _ => r = .ok e) w events := by
  have asked : e ∈ w.files.select (.file e.space e.id) := List.mem_filter.2 ⟨he, by simp [FileQuery.holds]⟩
  have one : w.files.select (.file e.space e.id) = [e] := by
    have few := w.files.length_select_file e.space e.id
    obtain ⟨x, single⟩ := List.length_eq_one_iff.1 (Nat.le_antisymm few (List.length_pos_of_mem asked))
    rw [single, List.mem_singleton] at asked
    rw [single, asked]
  refine (unstruck_statement unstruck rfl rfl _).bind (fun rows t more given => ?_) (fun _ _ _ failed => by cases failed)
  rw [one, Except.ok.injEq] at given
  rw [given]
  exact rfl

theorem unstruck_list (unstruck : w.strikes = []) (space : String) (ns : Option String) :
    (list space ns).Ends serve (fun r _ _ => r = .ok (w.files.select (.inNamespace space ns))) w events :=
  unstruck_statement unstruck rfl rfl _

end Files

theorem FileTable.count_inNamespace (table : FileTable) (he : e ∈ table.rows) :
    (table.select (.inNamespace e.space e.namespace_)).count e = 1 := by
  rw [select, List.count_filter (by simp [FileQuery.holds])]
  exact List.count_eq_one_of_mem (List.Nodup.of_map _ table.distinct) he

theorem FileTable.not_mem_inNamespace (table : FileTable) (other : (space, ns) ≠ (e.space, e.namespace_)) :
    e ∉ table.select (.inNamespace space ns) := by
  intro listed
  have held := (List.mem_filter.1 listed).2
  simp only [FileQuery.holds, Bool.and_eq_true, beq_iff_eq] at held
  exact other (Prod.ext held.1.symm held.2.symm)

/-- **Uploads are read back as they were made.** Let an upload of a stream on a clock in UTC give an entry, whatever the
stores were and whatever failed. Then
- the entry has the next id, what was asked for, and the size and the digest of the bytes of the stream;
- the row of the entry was added, and the objects at other keys than its own are what they were;
- in the stores that it left, where no fault strikes, the entry is got by its space and id, is listed once under its
space and namespace and under no other, and its content is all bytes of the stream. -/
theorem upload_round_trip (site : Site) (space : String) (ns : Option String) (name : String) (s : Stream) (w : World)
    (utc : w.clock.offset = some 0) (e : Entry)
    (returned : (w.run (Files.add site space ns name s)).outcome = .ok e) :
    let t := (w.run (Files.add site space ns name s)).state
    (e.id = w.freshId.1 ∧ e.space = space ∧ e.namespace_ = ns ∧ e.name = name ∧ e.modified = w.clock ∧
      site.digestAlgorithm = some e.algorithm ∧ e.size = s.reading.content.size ∧
      Digest.Describes e.algorithm s.reading.content.size e.digest s.reading.content) ∧
    (t.files.rows = w.files.rows ++ [e] ∧ ∀ k, site.location.key space e.id ≠ .ok k → t.object? k = w.object? k) ∧
    ∀ v, SameStores t v → v.strikes = [] →
      (v.run (Files.get space e.id)).outcome = .ok e ∧
      (∃ listed, (v.run (Files.list space ns)).outcome = .ok listed ∧ listed.count e = 1) ∧
      (∀ space' ns', (space', ns') ≠ (space, ns) →
        ∃ listed, (v.run (Files.list space' ns')).outcome = .ok listed ∧ e ∉ listed) ∧
      ∀ {α : Type} (receive : ByteArray → Except Fault α),
        (v.run (Files.process site space e.id receive)).outcome = .ok (receive s.reading.content) := by
  intro t
  obtain ⟨algorithm, landed⟩ := run_of_ends (Files.add_lands s) e returned
  obtain ⟨row, added⟩ := landed.in_utc utc
  obtain ⟨key, b, hkey, named, hb, ht⟩ := landed.object
  obtain rfl : e.space = space := row.space
  obtain rfl : e.namespace_ = ns := row.namespace_
  rw [← row.id] at hkey
  refine ⟨⟨row.id, row.space, row.namespace_, row.name, landed.time, algorithm, row.size, row.digest⟩,
    ⟨added, fun k other => ?_⟩, fun v same unstruck => ?_⟩
  · have apart : k ≠ key := by
      rintro rfl
      exact other hkey
    rw [object?_put hb ht, if_neg apart]
  · have there : e ∈ v.files.rows := by
      rw [same.files, added]
      exact List.mem_append_right _ (List.mem_singleton_self e)
    refine ⟨run_of_ends (Files.unstruck_get unstruck there), ⟨_, run_of_ends (Files.unstruck_list unstruck _ _),
      v.files.count_inNamespace there⟩, fun space' ns' other => ⟨_, run_of_ends (Files.unstruck_list unstruck _ _),
      v.files.not_mem_inNamespace other⟩, fun receive => ?_⟩
    obtain ⟨o, object, bytes⟩ : ∃ o, v.object? key = some o ∧ o.content = s.reading.content :=
      ⟨_, by rw [same.object?, object?_put hb ht, if_pos rfl], rfl⟩
    rw [← bytes]
    exact run_of_ends (Files.unstruck_process site unstruck hkey named object receive)

def inTwoReads : Stream :=
  ⟨⟨[⟨#[97, 98]⟩, ⟨#[99]⟩], .finished⟩, false, false⟩

theorem upload_round_trip_inTwoReads :
    let e : Entry := ⟨"id-0001", "s", some "", "a.txt", 3, "a9993e364706816aba3e25717850c26c9cd0d89d", "sha1", World.start⟩
    let t := (World.fresh.run (Files.add (.standard .top) "s" (some "") "a.txt" inTwoReads)).state
    (World.fresh.clock.offset = some 0 ∧
      (World.fresh.run (Files.add (.standard .top) "s" (some "") "a.txt" inTwoReads)).outcome = .ok e) ∧
    (t.run (Files.get "s" "id-0001")).outcome = .ok e ∧
    (∃ listed, (t.run (Files.list "s" none)).outcome = .ok listed ∧ e ∉ listed) ∧
    (t.run (Files.process (.standard .top) "s" "id-0001" Except.ok)).outcome = .ok (.ok ⟨#[97, 98, 99]⟩) := by
  intro e t
  have utc : World.fresh.clock.offset = some 0 := by decide +kernel
  have returned : (World.fresh.run (Files.add (.standard .top) "s" (some "") "a.txt" inTwoReads)).outcome = .ok e := by
    decide +kernel
  obtain ⟨-, -, reading⟩ := upload_round_trip (.standard .top) "s" (some "") "a.txt" inTwoReads .fresh utc e returned
  obtain ⟨got, -, others, given⟩ := reading t (.refl t) (by decide +kernel)
  have content : inTwoReads.reading.content = ⟨#[97, 98, 99]⟩ := by decide +kernel
  exact ⟨⟨utc, returned⟩, got, others "s" none (by decide), content ▸ given Except.ok⟩

end Depot
