/-
Histories: operations one after the other, and where what they leave comes from.

A `Step` is an operation with all that surrounds it but the stores: the settings, the clock, the next ids, the disk, and
the faults and locks that it will meet. These may be others at each step; the bucket and the rows are those that the
step before left. Operations are those of the file service, the cleanup, and both programs that run commands.

Whatever happens on the way, every object that is in the bucket and every row comes from an upload of the history
(`after_stored`): uploads bring their `Arrival`, and nothing else adds to the stores (`Step.brings`, `Step.shrinks`).
-/
import Mathlib.Data.List.Nodup
import Depot.Proofs.Calls
import Depot.Proofs.Keys
import Depot.Proofs.Uploads

namespace Depot

open World

/-! ## Operations -/

/-- one thing that is asked of the file service, the cleanup or a command -/
inductive Operation where
  | add (space : String) (namespace_ : Option String) (name : String) (stream : Stream)
  | addExisting (space : String) (namespace_ : Option String) (name : String) (path : Disk.Path)
  | get (space id : String)
  | list (space : String) (namespace_ : Option String)
  | process (space id : String) (receiver : ByteArray → Except Fault Unit)
  | delete (space id : String)
  | deleteNamespace (space : String) (namespace_ : Option String)
  | deleteSpaces (spaces : List String)
  | deleteBefore (cutoff : Time.Timestamp)
  | sweep
  | cleanup (pageSize : Option Int) (cutoff : Time.Timestamp)
  /-- calls a command -/
  | call (command : String) (arguments : List String)
  /-- runs the program that runs commands -/
  | manage (arguments : List String)

/-- a program without its value -/
def Prog.void {I : Interface} {α : Type} (p : Prog I α) : Prog I Unit :=
  p >>= fun _ => pure ()

def Operation.program (site : Site) : Operation → Op Unit
  | .add space ns name stream => (Files.add site space ns name stream).void
  | .addExisting space ns name path => (Files.addExisting site space ns name path).void
  | .get space id => (Files.get space id).void
  | .list space ns => (Files.list space ns).void
  | .process space id receiver => (Files.process site space id receiver).void
  | .delete space id => (Files.delete site space id).void
  | .deleteNamespace space ns => (Files.deleteNamespace site space ns).void
  | .deleteSpaces spaces => (Files.deleteSpaces site spaces).void
  | .deleteBefore cutoff => (Files.deleteBefore site cutoff).void
  | .sweep => (Files.sweep site).void
  | .cleanup size cutoff => (Retention.cleanup site size cutoff).void
  | .call command arguments => Command.call site command arguments
  | .manage arguments => (Command.manage site arguments).void

def Operation.isUpload : Operation → Bool
  | .add .. | .addExisting .. => true
  | _ => false

namespace Prog

variable {I : Interface} {α σ : Type} {serve : (c : I.Call) → σ → I.Reply c × σ} {p : Prog I α} {s : σ}
  {events : List Event} {Q : Goal σ Unit}

theorem ends_void : p.void.Ends serve Q s events ↔
    p.Ends serve (fun r s events => Q (r.map fun _ => ()) s events) s events := by
  rw [void, ends_bind]
  constructor
  · exact fun h => h.mono fun r t more ht => by cases r <;> exact ht
  · exact fun h => h.mono fun r t more ht => by cases r <;> exact ht

theorem makes_void {kind : (c : I.Call) → I.Reply c → Prop} : p.void.Makes serve kind s ↔ p.Makes serve kind s := by
  induction p generalizing s with
  | done a => rfl
  | fail e => rfl
  | note e next ih => exact ih
  | call c next ih => exact or_congr_right (ih _)

theorem Only.void {ok : I.Call → Prop} (h : p.Only ok) : p.void.Only ok :=
  h.bind fun _ => only_pure _

end Prog

/-- **Operations that are no uploads ask for nothing more in the stores.** -/
theorem Operation.only_program {site : Site} {o : Operation} (h : o.isUpload = false) :
    (o.program site).Only Call.AddsNothing := by
  cases o with
  | add | addExisting => cases h
  | get space id => exact (Files.only_get (fun _ => trivial) space id).void
  | list space ns => exact (Files.only_list (fun _ => trivial) space ns).void
  | process space id receiver => exact ((Files.only_process space id receiver).mono fun _ => Call.Reads.addsNothing).void
  | delete space id => exact Prog.Only.void (Files.only_delete (fun _ => trivial) (fun _ => trivial) space id)
  | deleteNamespace | deleteSpaces => exact (Files.only_deleteSelected _).void
  | deleteBefore cutoff => exact (Files.only_deleteBefore cutoff).void
  | sweep => exact (Files.only_sweep.mono fun _ hc => hc.2).void
  | cleanup size cutoff => exact (Retention.only_cleanup size cutoff).void
  | call command arguments => exact Command.only_call command arguments
  | manage arguments => exact (Command.only_manage arguments).void

/-! ## Steps -/

/-- an operation, and what surrounds it -/
structure Step where
  settings : Site
  /-- all but the stores -/
  around : World
  operation : Operation

namespace Step

/-- an operation in fresh surroundings -/
def fresh (operation : Operation) : Step :=
  ⟨.standard .top, .fresh, operation⟩

/-- an upload to a space, in fresh surroundings that give it an id -/
def upload (space id : String) : Step where
  settings := .standard .top
  around := { World.fresh with ids := [id] }
  operation := .add space none "a.txt" ⟨⟨["abc".toUTF8], .finished⟩, false, false⟩

/-- a step in which the next call of a kind fails -/
def struck (s : Step) (e : Endpoint) (f : Fault) : Step :=
  { s with around := { s.around with strikes := [⟨⟨e, f⟩, 0, some 1⟩] } }

variable {l : Key.Location} {s : Step} {w : World}

/-- the surroundings at the start, with the stores as they are -/
def start (s : Step) (w : World) : World :=
  { s.around with bucket := w.bucket, files := w.files }.cleared

/-- what the operation is given -/
def site (l : Key.Location) (s : Step) (w : World) : Site :=
  (s.start w).provide { s.settings with location := l }

/-- how the operation goes where contents are kept in one place -/
def run (l : Key.Location) (s : Step) (w : World) : Prog.Run World Unit :=
  (s.start w).run (s.operation.program (s.site l w))

/-- what the step brings to the stores, if it is an upload -/
def arrival? (s : Step) : Option Arrival :=
  match s.operation with
  | .add space ns name stream =>
    some ⟨s.around.freshId.1, space, ns, name, stream.reading.content, s.around.clock⟩
  | .addExisting space ns name path =>
    (s.around.disk.read path).toOption.map fun content =>
      ⟨s.around.freshId.1, space, ns, name, content, s.around.clock⟩
  | _ => none

theorem arrival?_modified {a : Arrival} (h : s.arrival? = some a) : a.modified = s.around.clock := by
  obtain ⟨settings, around, operation⟩ := s
  cases operation with
  | add => cases h; rfl
  | addExisting =>
    obtain ⟨content, -, rfl⟩ := Option.map_eq_some_iff.1 h
    rfl
  | _ => cases h

/-- the statement that adds the row of an upload fails on the way -/
def InsertFails (l : Key.Location) (s : Step) (w : World) : Prop :=
  (s.operation.program (s.site l w)).Makes serve failedInsert (s.start w)

theorem start_stores (s : Step) (w : World) : SameStores w (s.start w) := ⟨rfl, rfl⟩

theorem start_freshId (s : Step) (w : World) : (s.start w).freshId.1 = s.around.freshId.1 :=
  freshId_eq rfl rfl

/-- **What is known of its program is known of a step.** -/
theorem run_of_ends {Q : Prog.Goal World Unit}
    (h : (s.operation.program (s.site l w)).Ends serve Q (s.start w) []) :
    Q (s.run l w).outcome (s.run l w).state (s.run l w).record :=
  (Prog.ends_iff _ _ _ _).1 h

/-- **An upload brings its arrival.** -/
theorem brings {a : Arrival} (h : s.arrival? = some a) : a.Brings l w (s.run l w).state (s.InsertFails l w) := by
  refine Arrival.Brings.after_aside (s.start_stores w) ?_
  obtain ⟨settings, around, operation⟩ := s
  cases operation with
  | add space ns name stream =>
    cases h
    refine run_of_ends (Q := fun _ t _ => Arrival.Brings l _ _ t _) (Prog.ends_void.2 ?_)
    rw [InsertFails, Operation.program, Prog.makes_void, ← start_freshId _ w]
    exact Files.add_ends space ns name stream
  | addExisting space ns name path =>
    obtain ⟨content, read, made⟩ := Option.map_eq_some_iff.1 h
    refine run_of_ends (Q := fun _ t _ => Arrival.Brings l _ _ t _) (Prog.ends_void.2 ?_)
    rw [InsertFails, Operation.program, Prog.makes_void, ← made, ← start_freshId _ w]
    refine (Files.addExisting_ends space ns name).mono fun r t more ht => ?_
    rcases ht with same | ⟨content', read', brought⟩
    · exact .inl same
    · have : content' = content := by
        rw [show around.disk.read path = .ok content' from read'] at read
        exact Option.some.inj read
      exact this ▸ brought
  | _ => cases h

theorem arrival?_of_upload (h : s.operation.isUpload = true) (missing : s.arrival? = none) :
    ∃ space ns name path trouble, s.operation = .addExisting space ns name path ∧
      s.around.disk.read path = .error trouble := by
  obtain ⟨settings, around, operation⟩ := s
  cases operation with
  | add => cases missing
  | addExisting space ns name path =>
    cases read : around.disk.read path with
    | error trouble => exact ⟨space, ns, name, path, trouble, rfl, read⟩
    | ok content =>
      simp only [arrival?, read, Except.toOption, Option.map_some] at missing
      cases missing
  | _ => cases h

/-- an upload that brings nothing leaves the stores as they are -/
theorem same_of_upload (upload : s.operation.isUpload = true) (h : s.arrival? = none) :
    SameStores w (s.run l w).state := by
  refine (s.start_stores w).trans (run_of_ends (Q := fun _ t _ => SameStores (s.start w) t) ?_)
  obtain ⟨space, ns, name, path, trouble, same, read⟩ := arrival?_of_upload upload h
  rw [same]
  refine Prog.ends_void.2 ((Files.addExisting_ends space ns name).mono fun r t more ht => ?_)
  rcases ht with same | ⟨content, read', -⟩
  · exact same
  · rw [show s.around.disk.read path = .ok content from read'] at read
    cases read

/-- **A step that brings nothing adds nothing to the stores.** -/
theorem shrinks (h : s.arrival? = none) : Shrinks w (s.run l w).state := by
  cases upload : s.operation.isUpload with
  | true => exact (same_of_upload upload h).shrinks
  | false =>
    refine (s.start_stores w).shrinks.trans (run_of_ends (Q := fun _ t _ => Shrinks (s.start w) t) ?_)
    exact (Operation.only_program upload).keeps (fun _ _ hc ht => ht.trans (serve_shrinks hc _)) (.refl _)

theorem same_of_reads (reads : (s.operation.program (s.site l w)).Only Call.Reads) :
    SameStores w (s.run l w).state := by
  refine (s.start_stores w).trans (run_of_ends (Q := fun _ t _ => SameStores (s.start w) t) ?_)
  exact reads.keeps (fun c t hc ht => ht.trans (serve_reads hc t)) (.refl _)

theorem bucket_eq (h : (s.operation.program (s.site l w)).Only Call.KeepsBucket) :
    (s.run l w).state.bucket = w.bucket :=
  run_of_ends (Q := fun _ (t : World) _ => t.bucket = w.bucket)
    (h.keeps (J := fun (t : World) => t.bucket = w.bucket) (fun _ _ hc ht => (serve_keepsBucket hc _).trans ht) rfl)

theorem bucket_isSome (s : Step) (h : w.bucket.isSome) : (s.run l w).state.bucket.isSome :=
  run_of_ends (Q := fun _ (t : World) _ => t.bucket.isSome)
    ((Prog.only_any (fun _ => trivial) _).keeps (J := fun (t : World) => t.bucket.isSome)
      (fun c _ _ ht => (serve_bucket c _).trans ht) h)

end Step

/-! ## Histories -/

def after (l : Key.Location) (w : World) (steps : List Step) : World :=
  steps.foldl (fun w s => (s.run l w).state) w

/-- what the uploads among some steps bring -/
def arrivals (steps : List Step) : List Arrival :=
  steps.filterMap Step.arrival?

section Histories

variable {l : Key.Location} {w : World} {s : Step} {steps more : List Step} {as : List Arrival}

@[simp] theorem after_nil : after l w [] = w := rfl

theorem after_append : after l w (steps ++ more) = after l (after l w steps) more := by
  simp [after, List.foldl_append]

theorem after_snoc : after l w (steps ++ [s]) = (s.run l (after l w steps)).state := by
  simp [after, List.foldl_append]

@[simp] theorem arrivals_nil : arrivals [] = [] := rfl

@[simp] theorem arrivals_cons : arrivals (s :: steps) = s.arrival?.toList ++ arrivals steps := by
  cases h : s.arrival? <;> simp [arrivals, h]

theorem mem_arrivals {a : Arrival} : a ∈ arrivals steps ↔ ∃ s ∈ steps, s.arrival? = some a := by
  simp [arrivals]

theorem arrivals_append : arrivals (steps ++ more) = arrivals steps ++ arrivals more := by
  simp [arrivals, List.filterMap_append]

theorem after_bucket (l : Key.Location) (steps : List Step) : (after l .fresh steps).bucket.isSome := by
  induction steps using List.reverseRecOn with
  | nil => rfl
  | append_singleton steps s ih =>
    rw [after_snoc]
    exact s.bucket_isSome ih

/-! ## Where contents and rows come from -/

/-- every object was brought by one of some uploads, and so was every row -/
structure Stored (l : Key.Location) (as : List Arrival) (w : World) : Prop where
  objects : ∀ k o, w.object? k = some o → ∃ a ∈ as, l.key a.space a.id = .ok k ∧ o = a.object
  rows : ∀ e ∈ w.files.rows, ∃ a ∈ as, a.Row e ∧ ∃ k, l.key a.space a.id = .ok k

namespace Stored

theorem mono {as' : List Arrival} (h : Stored l as w) (sub : as ⊆ as') : Stored l as' w := by
  refine ⟨fun k o ho => ?_, fun e he => ?_⟩
  · obtain ⟨a, ha, rest⟩ := h.objects k o ho
    exact ⟨a, sub ha, rest⟩
  · obtain ⟨a, ha, rest⟩ := h.rows e he
    exact ⟨a, sub ha, rest⟩

theorem shrink {t : World} (h : Stored l as w) (less : Shrinks w t) : Stored l as t :=
  ⟨fun k o ho => h.objects k o (less.objects k o ho), fun e he => h.rows e (less.rows e he)⟩

theorem bring {a : Arrival} {t : World} {failed : Prop} (h : Stored l as w) (brought : a.Brings l w t failed)
    (ha : a ∈ as) : Stored l as t := by
  rcases brought with same | ⟨key, b, hkey, hb, ht, rows⟩
  · exact h.shrink same.shrinks
  · refine ⟨fun k o ho => ?_, fun e he => ?_⟩
    · rw [object?_put hb ht] at ho
      split at ho
      case isTrue same => exact ⟨a, ha, same ▸ hkey, (Option.some.inj ho).symm⟩
      case isFalse => exact h.objects k o ho
    · rcases rows with ⟨hfiles, -⟩ | ⟨new, hnew, hrows⟩
      · exact h.rows e (hfiles ▸ he)
      · rw [hrows, List.mem_append, List.mem_singleton] at he
        rcases he with he | rfl
        · exact h.rows e he
        · exact ⟨a, ha, hnew, key, hkey⟩

theorem step (h : Stored l as w) (s : Step) : Stored l (as ++ s.arrival?.toList) (s.run l w).state := by
  cases ha : s.arrival? with
  | none => simpa using h.shrink (s.shrinks ha)
  | some a => exact (h.mono (List.subset_append_left _ _)).bring (s.brings ha) (by simp)

end Stored

theorem stored_fresh : Stored l [] World.fresh :=
  ⟨fun k o ho => by simp [object?, fresh] at ho, fun e he => by simp [fresh, FileTable.empty] at he⟩

/-- **Whatever is in the stores comes from an upload of the history.** -/
theorem after_stored (l : Key.Location) (steps : List Step) : Stored l (arrivals steps) (after l .fresh steps) := by
  induction steps using List.reverseRecOn with
  | nil => exact stored_fresh
  | append_singleton steps s ih =>
    rw [after_snoc, arrivals_append]
    simpa using ih.step s

end Histories

/-! ## Ids of uploads -/

/-- the ids of uploads are segments of paths, and no two of them are the same -/
structure Identified (as : List Arrival) : Prop where
  distinct : (as.map (·.id)).Nodup
  segments : ∀ a ∈ as, Key.IsSegment a.id

namespace Identified

variable {as bs : List Arrival} {a b : Arrival} {l : Key.Location} {k : String}

theorem of_append (h : Identified (as ++ bs)) : Identified as := by
  have distinct := h.distinct
  rw [List.map_append, List.nodup_append] at distinct
  exact ⟨distinct.1, fun a ha => h.segments a (List.mem_append_left _ ha)⟩

/-- **A key belongs to one upload.** -/
theorem eq_of_key (h : Identified as) (ha : a ∈ as) (hb : b ∈ as) (hka : l.key a.space a.id = .ok k)
    (hkb : l.key b.space b.id = .ok k) : a = b :=
  List.inj_on_of_nodup_map h.distinct ha hb (Key.Location.key_id (h.segments a ha) (h.segments b hb) hka hkb)

end Identified

/-- **A row and the object at its key come from one upload.** -/
theorem Stored.shared {l : Key.Location} {as : List Arrival} {w : World} {e : Entry} {k : String} {o : Object}
    (h : Stored l as w) (ids : Identified as) (he : e ∈ w.files.rows) (hk : l.key e.space e.id = .ok k)
    (ho : w.object? k = some o) : ∃ a ∈ as, l.key a.space a.id = .ok k ∧ a.Row e ∧ o = a.object := by
  obtain ⟨a, ha, hka, same⟩ := h.objects k o ho
  obtain ⟨b, hb, row, -⟩ := h.rows e he
  have one : b = a := ids.eq_of_key hb ha (row.space ▸ row.id ▸ hk) hka
  exact ⟨a, ha, hka, one ▸ row, same⟩

end Depot
