/-
What single calls do to the stores.

Most calls leave the bucket and the rows as they are (`serve_reads`), and calls about local files and streams leave
nearly everything as it is (`serve_local`). Each call that changes a store either fails and changes nothing, or does
what it was asked to (`serve_put` and so on). Where no fault is scheduled and no row is locked (`World.Calm`) it does
the latter, and no call changes that (`serve_calm`).
-/
import Mathlib.Tactic
import Depot.Proofs.Listing
import Depot.World

namespace Depot.World

variable {α : Type} {w t u : World} {k : String} {o : Object}

/-! ## Views of the stores -/

def object? (w : World) (key : String) : Option Object :=
  w.bucket.bind (·.get? key)

structure SameStores (w t : World) : Prop where
  bucket : t.bucket = w.bucket
  files : t.files = w.files

theorem SameStores.refl (w : World) : SameStores w w := ⟨rfl, rfl⟩

theorem SameStores.trans (h : SameStores w t) (h' : SameStores t u) : SameStores w u :=
  ⟨h'.bucket.trans h.bucket, h'.files.trans h.files⟩

theorem SameStores.symm (h : SameStores w t) : SameStores t w :=
  ⟨h.bucket.symm, h.files.symm⟩

theorem SameStores.object? (h : SameStores w t) (key : String) : t.object? key = w.object? key := by
  rw [World.object?, World.object?, h.bucket]

/-- **Stores are known by the rows, by the objects, and by whether there is a bucket.** -/
theorem SameStores.of_objects (files : t.files = w.files) (bucket : t.bucket.isSome = w.bucket.isSome)
    (objects : ∀ k, t.object? k = w.object? k) : SameStores w t := by
  refine ⟨?_, files⟩
  cases hw : w.bucket with
  | none => simpa [hw] using bucket
  | some b =>
    obtain ⟨c, hc⟩ := Option.isSome_iff_exists.1 (bucket.trans (by rw [hw]; rfl))
    have same : c = b := Bucket.ext_get? fun k => by simpa [World.object?, hw, hc] using objects k
    rw [hc, same]

/-- all but the disk, the use of streams and the output are the same -/
structure Aside (w t : World) : Prop extends SameStores w t where
  locked : t.locked = w.locked
  strikes : t.strikes = w.strikes
  refusals : t.refusals = w.refusals
  clock : t.clock = w.clock
  ids : t.ids = w.ids
  serial : t.serial = w.serial

theorem Aside.refl (w : World) : Aside w w := ⟨.refl w, rfl, rfl, rfl, rfl, rfl, rfl⟩

theorem Aside.trans (h : Aside w t) (h' : Aside t u) : Aside w u :=
  ⟨h.toSameStores.trans h'.toSameStores, h'.locked.trans h.locked, h'.strikes.trans h.strikes,
    h'.refusals.trans h.refusals, h'.clock.trans h.clock, h'.ids.trans h.ids, h'.serial.trans h.serial⟩

theorem freshId_eq (ids : t.ids = w.ids) (serial : t.serial = w.serial) : t.freshId.1 = w.freshId.1 := by
  rw [World.freshId, World.freshId, ids, serial]
  split <;> rfl

/-- no object is new or other than it was, and no row is new -/
structure Shrinks (w t : World) : Prop where
  objects : ∀ k o, t.object? k = some o → w.object? k = some o
  rows : ∀ e ∈ t.files.rows, e ∈ w.files.rows

theorem Shrinks.refl (w : World) : Shrinks w w := ⟨fun _ _ => id, fun _ => id⟩

theorem Shrinks.trans (h : Shrinks w t) (h' : Shrinks t u) : Shrinks w u :=
  ⟨fun k o ho => h.objects k o (h'.objects k o ho), fun e he => h.rows e (h'.rows e he)⟩

theorem SameStores.shrinks (h : SameStores w t) : Shrinks w t :=
  ⟨fun k _ ho => (h.object? k).symm.trans ho, fun _ he => h.files ▸ he⟩

/-- no fault is scheduled and no row is locked -/
structure Calm (w : World) : Prop where
  strikes : w.strikes = []
  refusals : w.refusals = []
  locked : w.locked = []

/-! ## Requests and statements -/

theorem strike_eq (w : World) (e : Endpoint) : ∃ hit strikes, w.strike e = (hit, { w with strikes := strikes }) ∧
    (w.strikes = [] → hit = none ∧ strikes = []) := by
  refine ⟨_, _, rfl, fun unstruck => ?_⟩
  rw [unstruck]
  exact ⟨rfl, rfl⟩

theorem strike_calm (h : w.strikes = []) (e : Endpoint) : w.strike e = (none, w) := by
  cases w
  cases h
  rfl

/-- a request fails and changes nothing, or reaches the bucket -/
theorem request_cases (w : World) (e : Endpoint) (keys : List String) (answer : Bucket → World → Except Fault α × World) :
    (∃ f strikes, w.request e keys answer = (.error f, { w with strikes := strikes }) ∧ (w.strikes = [] → strikes = [])) ∨
      ∃ b strikes, w.bucket = some b ∧ w.request e keys answer = answer b { w with strikes := strikes } ∧
        (w.strikes = [] → strikes = []) := by
  rw [request]
  split
  · exact .inl ⟨_, w.strikes, rfl, id⟩
  · obtain ⟨hit, strikes, struck, calm⟩ := strike_eq w e
    rw [struck]
    cases hit with
    | some f => exact .inl ⟨f, strikes, rfl, fun h => (calm h).2⟩
    | none =>
      cases hb : w.bucket with
      | none => exact .inl ⟨noBucket e, strikes, by simp, fun h => (calm h).2⟩
      | some b => exact .inr ⟨b, strikes, rfl, by simp, fun h => (calm h).2⟩

theorem request_emptyKey {keys : List String} (h : "" ∈ keys) (w : World) (e : Endpoint)
    (answer : Bucket → World → Except Fault α × World) : w.request e keys answer = (.error .emptyKey, w) := by
  rw [request, if_pos (by simpa using h)]

theorem request_calm (calm : w.strikes = []) {keys : List String} (hkeys : "" ∉ keys) {b : Bucket}
    (hb : w.bucket = some b) (e : Endpoint) (answer : Bucket → World → Except Fault α × World) :
    w.request e keys answer = answer b w := by
  rw [request, if_neg (by simpa using hkeys), strike_calm calm]
  simp only [hb]

/-- a statement fails and changes nothing, or reaches the database -/
theorem statement_cases (w : World) (e : Endpoint) (answer : World → Except Fault α × World) :
    (∃ f strikes, w.statement e answer = (.error f, { w with strikes := strikes }) ∧ (w.strikes = [] → strikes = [])) ∨
      ∃ strikes, w.statement e answer = answer { w with strikes := strikes } ∧ (w.strikes = [] → strikes = []) := by
  obtain ⟨hit, strikes, struck, calm⟩ := strike_eq w e
  rw [statement, struck]
  cases hit with
  | some f => exact .inl ⟨f, strikes, rfl, fun h => (calm h).2⟩
  | none => exact .inr ⟨strikes, rfl, fun h => (calm h).2⟩

theorem statement_calm (calm : w.strikes = []) (e : Endpoint) (answer : World → Except Fault α × World) :
    w.statement e answer = answer w := by
  rw [statement, strike_calm calm]

/-! ## Calls that leave the stores as they are -/

end World

/-- a call about local files, streams or the output -/
def Call.IsLocal : Call → Prop
  | .drain _ | .close _ | .closeContent | .createTemporary _ | .writeFile .. | .readFile _ | .removeFile _ | .print _ =>
    True
  | _ => False

/-- a call that asks for no change of the bucket or of the rows of files -/
def Call.Reads : Call → Prop
  | .putObject .. | .deleteObject _ | .deleteObjects _ | .insertFile _ | .deleteFiles _ => False
  | _ => True

/-- a call that asks for no change of the bucket -/
def Call.KeepsBucket : Call → Prop
  | .putObject .. | .deleteObject _ | .deleteObjects _ => False
  | _ => True

/-- a call that asks for no object or row more -/
def Call.AddsNothing : Call → Prop
  | .putObject .. | .insertFile _ => False
  | _ => True

namespace World

variable {α : Type} {w t : World} {o : Object}

theorem serve_local {c : Call} (h : c.IsLocal) (w : World) : Aside w (serve c w).2 := by
  cases c with
  | createTemporary folder =>
    simp only [serve]
    split
    · exact ⟨⟨rfl, rfl⟩, rfl, rfl, rfl, rfl, rfl, rfl⟩
    · exact .refl w
  | removeFile path =>
    simp only [serve]
    split
    · exact ⟨⟨rfl, rfl⟩, rfl, rfl, rfl, rfl, rfl, rfl⟩
    · exact .refl w
  | readFile | drain | close | closeContent | writeFile | print => exact ⟨⟨rfl, rfl⟩, rfl, rfl, rfl, rfl, rfl, rfl⟩
  | _ => exact h.elim

section Kept

variable {J : World → Prop} (strikes : ∀ w strikes, J w → J { w with strikes := strikes })

include strikes

/-- what scheduled faults do not touch and the answer keeps, a request keeps -/
theorem request_keeps (e : Endpoint) (keys : List String) {answer : Bucket → World → Except Fault α × World}
    (h : ∀ b w, J w → J (answer b w).2) (hw : J w) : J (w.request e keys answer).2 := by
  rcases request_cases w e keys answer with ⟨f, left, struck, -⟩ | ⟨b, left, -, reached, -⟩
  · rw [struck]
    exact strikes w left hw
  · rw [reached]
    exact h b _ (strikes w left hw)

/-- what scheduled faults do not touch and the answer keeps, a statement keeps -/
theorem statement_keeps (e : Endpoint) {answer : World → Except Fault α × World} (h : ∀ w, J w → J (answer w).2)
    (hw : J w) : J (w.statement e answer).2 := by
  rcases statement_cases w e answer with ⟨f, left, struck, -⟩ | ⟨left, reached, -⟩
  · rw [struck]
    exact strikes w left hw
  · rw [reached]
    exact h _ (strikes w left hw)

theorem lookBelow_keeps (levels : List (List String)) (hw : J w) : J (w.lookBelow levels).2 := by
  induction levels generalizing w with
  | nil => exact hw
  | cons _ below ih => exact statement_keeps strikes _ (fun w hw => ih hw) hw

/-- what scheduled faults and the executions do not touch, the removal of an execution keeps -/
theorem deleteExecution_keeps (executions : ∀ w executions, J w → J { w with executions := executions }) (id : String)
    (hw : J w) : J (w.deleteExecution id).2 := by
  refine statement_keeps strikes _ (fun w hw => ?_) hw
  split
  · have looked := lookBelow_keeps strikes (Execution.treeLevels w.executions.rows id) hw
    dsimp only
    split
    · rename_i f t same
      rw [same] at looked
      exact looked
    · rename_i t same
      rw [same] at looked
      refine statement_keeps strikes _ (fun t ht => ?_) looked
      split
      · exact ht
      · exact executions t _ ht
  · exact hw

end Kept

/-- **Calls that ask for no change of the stores leave them as they are.** -/
theorem serve_reads {c : Call} (h : c.Reads) (w : World) : SameStores w (serve c w).2 := by
  have strikes : ∀ t strikes, SameStores w t → SameStores w { t with strikes := strikes } := fun _ _ h => ⟨h.bucket, h.files⟩
  cases c with
  | getObject key =>
    refine request_keeps strikes _ _ (fun b t ht => ?_) (.refl w)
    split <;> exact ⟨ht.bucket, ht.files⟩
  | headObject key =>
    refine request_keeps strikes _ _ (fun b t ht => ?_) (.refl w)
    split <;> exact ht
  | listObjects start after => exact request_keeps strikes _ _ (fun b t ht => ht) (.refl w)
  | selectFiles | countFiles | pageFiles | selectExecutions | countExecutions | pageExecutions =>
    exact statement_keeps strikes _ (fun t ht => ht) (.refl w)
  | deleteExecution id => exact deleteExecution_keeps strikes (fun _ _ h => ⟨h.bucket, h.files⟩) id (.refl w)
  | now => exact ⟨rfl, rfl⟩
  | freshId =>
    simp only [serve, freshId]
    split <;> exact ⟨rfl, rfl⟩
  | drain | close | closeContent | createTemporary | writeFile | readFile | removeFile | print =>
    exact (serve_local (by exact trivial) w).toSameStores
  | _ => exact h.elim

/-! ## Calls that change the stores -/

variable {key : String} {content : ByteArray} {metadata : Metadata} {keys : List String}

/-- **An object is kept, or nothing happens and this is a fault.** -/
theorem serve_put (w : World) (key : String) (content : ByteArray) (metadata : Metadata) :
    (∃ f, (serve (.putObject key content metadata) w).1 = .error f ∧
      SameStores w (serve (.putObject key content metadata) w).2) ∨
    (serve (.putObject key content metadata) w).1 = .ok () ∧
      ∃ b, w.bucket = some b ∧ (serve (.putObject key content metadata) w).2.bucket = some (b.put key ⟨content, metadata⟩) ∧
        (serve (.putObject key content metadata) w).2.files = w.files := by
  rcases request_cases w .putObject [key]
    (fun b w => (.ok (), { w with bucket := some (b.put key ⟨content, metadata⟩) }))
    with ⟨f, strikes, struck, -⟩ | ⟨b, strikes, hb, reached, -⟩
  · rw [serve, struck]
    exact .inl ⟨f, rfl, ⟨rfl, rfl⟩⟩
  · rw [serve, reached]
    exact .inr ⟨rfl, b, hb, rfl, rfl⟩

/-- **Some of the objects at some keys are removed, or nothing happens and this is a fault.** -/
theorem serve_deleteObjects (w : World) (keys : List String) :
    (∃ f, (serve (.deleteObjects keys) w).1 = .error f ∧ SameStores w (serve (.deleteObjects keys) w).2) ∨
    ∃ refused, (serve (.deleteObjects keys) w).1 = .ok refused ∧ (w.refusals = [] → refused = []) ∧
      ∃ b, w.bucket = some b ∧ (serve (.deleteObjects keys) w).2.bucket =
          some (b.erase (keys.filter fun k => !(refused.filterMap (·.key)).contains k)) ∧
        (serve (.deleteObjects keys) w).2.files = w.files := by
  rcases request_cases w .deleteObjects keys (deleteObjects keys)
    with ⟨f, strikes, struck, -⟩ | ⟨b, strikes, hb, reached, -⟩
  · rw [serve, struck]
    exact .inl ⟨f, rfl, ⟨rfl, rfl⟩⟩
  · rw [serve, reached]
    refine .inr ⟨_, rfl, fun calm => ?_, b, hb, rfl, rfl⟩
    show (Rule.next (fun _ => true) w.refusals).1.getD [] = []
    rw [calm]
    rfl

/-- **An object is removed, or nothing happens and this is a fault.** -/
theorem serve_deleteObject (w : World) (key : String) :
    (∃ f, (serve (.deleteObject key) w).1 = .error f ∧ SameStores w (serve (.deleteObject key) w).2) ∨
    (serve (.deleteObject key) w).1 = .ok () ∧
      ∃ b, w.bucket = some b ∧ (serve (.deleteObject key) w).2.bucket = some (b.erase [key]) ∧
        (serve (.deleteObject key) w).2.files = w.files := by
  rcases request_cases w .deleteObject [key] (fun b w => (.ok (), { w with bucket := some (b.erase [key]) }))
    with ⟨f, strikes, struck, -⟩ | ⟨b, strikes, hb, reached, -⟩
  · rw [serve, struck]
    exact .inl ⟨f, rfl, ⟨rfl, rfl⟩⟩
  · rw [serve, reached]
    exact .inr ⟨rfl, b, hb, rfl, rfl⟩

/-- **A row is added, or nothing happens and this is a fault.** -/
theorem serve_insert (w : World) (e : Entry) :
    (∃ f, (serve (.insertFile e) w).1 = .error f ∧ SameStores w (serve (.insertFile e) w).2) ∨
    (serve (.insertFile e) w).1 = .ok () ∧ (serve (.insertFile e) w).2.bucket = w.bucket ∧
      (serve (.insertFile e) w).2.files.rows = w.files.rows ++ [e] := by
  rcases statement_cases w .insertFiles (insertFile e) with ⟨f, strikes, struck, -⟩ | ⟨strikes, reached, -⟩
  · rw [serve, struck]
    exact .inl ⟨f, rfl, ⟨rfl, rfl⟩⟩
  · rw [serve, reached, insertFile]
    by_cases taken : e.id ∈ w.files.rows.map (·.id)
    · have refused : w.files.insert? e = none := by rw [FileTable.insert?, dif_pos taken]
      simp only [refused]
      exact .inl ⟨_, rfl, ⟨rfl, rfl⟩⟩
    · have inserted : ∃ files, w.files.insert? e = some files ∧ files.rows = w.files.rows ++ [e] := by
        rw [FileTable.insert?, dif_neg taken]
        exact ⟨_, rfl, rfl⟩
      obtain ⟨files, hfiles, rows⟩ := inserted
      simp only [hfiles]
      exact .inr ⟨trivial, trivial, rows⟩

/-- **The rows asked for are removed, or nothing happens and this is a fault.** -/
theorem serve_deleteFiles (w : World) (q : FileQuery) :
    (∃ f, (serve (.deleteFiles q) w).1 = .error f ∧ SameStores w (serve (.deleteFiles q) w).2) ∨
    (serve (.deleteFiles q) w).1 = .ok (w.files.select q).length ∧ (serve (.deleteFiles q) w).2.bucket = w.bucket ∧
      (serve (.deleteFiles q) w).2.files = w.files.remove q := by
  rcases statement_cases w .deleteFiles (deleteFiles q) with ⟨f, strikes, struck, -⟩ | ⟨strikes, reached, -⟩
  · rw [serve, struck]
    exact .inl ⟨f, rfl, ⟨rfl, rfl⟩⟩
  · rw [serve, reached, deleteFiles]
    dsimp only
    split
    · exact .inl ⟨_, rfl, ⟨rfl, rfl⟩⟩
    · exact .inr ⟨rfl, rfl, rfl⟩

theorem serve_keepsBucket {c : Call} (h : c.KeepsBucket) (w : World) : (serve c w).2.bucket = w.bucket := by
  by_cases reads : c.Reads
  · exact (serve_reads reads w).bucket
  cases c with
  | putObject | deleteObject | deleteObjects => exact h.elim
  | insertFile e =>
    rcases serve_insert w e with ⟨f, -, same⟩ | ⟨-, hbucket, -⟩
    · exact same.bucket
    · exact hbucket
  | deleteFiles q =>
    rcases serve_deleteFiles w q with ⟨f, -, same⟩ | ⟨-, hbucket, -⟩
    · exact same.bucket
    · exact hbucket
  | _ => exact absurd trivial reads

theorem serve_bucket (c : Call) (w : World) : (serve c w).2.bucket.isSome = w.bucket.isSome := by
  by_cases keeps : c.KeepsBucket
  · rw [serve_keepsBucket keeps]
  cases c with
  | putObject key content metadata =>
    rcases serve_put w key content metadata with ⟨f, -, same⟩ | ⟨-, b, hb, hbucket, -⟩
    · rw [same.bucket]
    · rw [hb, hbucket]
      rfl
  | deleteObject key =>
    rcases serve_deleteObject w key with ⟨f, -, same⟩ | ⟨-, b, hb, hbucket, -⟩
    · rw [same.bucket]
    · rw [hb, hbucket]
      rfl
  | deleteObjects keys =>
    rcases serve_deleteObjects w keys with ⟨f, -, same⟩ | ⟨refused, -, -, b, hb, hbucket, -⟩
    · rw [same.bucket]
    · rw [hb, hbucket]
      rfl
  | _ => exact absurd trivial keeps

/-! ## Calls that ask -/

/-- the reply to a request that only asks is a fault, or comes from the bucket -/
theorem request_asks {e : Endpoint} {keys : List String} {answer : Bucket → World → Except Fault α × World}
    {r : Bucket → Except Fault α} (h : ∀ b w, (answer b w).1 = r b) :
    (∃ f, (w.request e keys answer).1 = .error f) ∨ ∃ b, w.bucket = some b ∧ (w.request e keys answer).1 = r b := by
  rcases request_cases w e keys answer with ⟨f, strikes, struck, -⟩ | ⟨b, strikes, hb, reached, -⟩
  · exact .inl ⟨f, congrArg Prod.fst struck⟩
  · exact .inr ⟨b, hb, (congrArg Prod.fst reached).trans (h b _)⟩

theorem serve_head (w : World) (key : String) : (∃ f, (serve (.headObject key) w).1 = .error f) ∨
    ∃ o, key ≠ "" ∧ w.object? key = some o ∧ (serve (.headObject key) w).1 = .ok o.metadata := by
  by_cases empty : key = ""
  · exact .inl ⟨.emptyKey, congrArg Prod.fst (request_emptyKey (by simp [empty]) w _ _)⟩
  have asks : (∃ f, (serve (.headObject key) w).1 = .error f) ∨ ∃ b, w.bucket = some b ∧
      (serve (.headObject key) w).1 = (b.get? key).elim (.error (.client (some "404") .headObject "Not Found"))
        fun o => .ok o.metadata := by
    refine request_asks fun b w => ?_
    cases b.get? key <;> rfl
  rcases asks with failed | ⟨b, hb, reply⟩
  · exact .inl failed
  · cases h : b.get? key with
    | none => exact .inl ⟨_, by rw [reply, h, Option.elim_none]⟩
    | some o => exact .inr ⟨o, empty, by rw [object?, hb]; exact h, by rw [reply, h, Option.elim_some]⟩

theorem serve_get (w : World) (key : String) : (∃ f, (serve (.getObject key) w).1 = .error f) ∨
    ∃ o, w.object? key = some o ∧ (serve (.getObject key) w).1 = .ok o.content := by
  have asks : (∃ f, (serve (.getObject key) w).1 = .error f) ∨ ∃ b, w.bucket = some b ∧
      (serve (.getObject key) w).1 = (b.get? key).elim
        (.error (.client (some "NoSuchKey") .getObject "The specified key does not exist."))
        fun o => .ok o.content := by
    refine request_asks fun b w => ?_
    cases b.get? key <;> rfl
  rcases asks with failed | ⟨b, hb, reply⟩
  · exact .inl failed
  · cases h : b.get? key with
    | none => exact .inl ⟨_, by rw [reply, h, Option.elim_none]⟩
    | some o => exact .inr ⟨o, by rw [object?, hb]; exact h, by rw [reply, h, Option.elim_some]⟩

theorem serve_list (w : World) (start : String) (after : Option String) :
    (∃ f, (serve (.listObjects start after) w).1 = .error f) ∨
      ∃ b, w.bucket = some b ∧ (serve (.listObjects start after) w).1 = .ok (b.page start after) :=
  request_asks (r := fun b => .ok (b.page start after)) fun _ _ => rfl

theorem serve_select (w : World) (q : FileQuery) : (∃ f, (serve (.selectFiles q) w).1 = .error f) ∨
    (serve (.selectFiles q) w).1 = .ok (w.files.select q) := by
  rcases statement_cases w .selectFiles fun w => (.ok (w.files.select q), w) with
    ⟨f, strikes, struck, -⟩ | ⟨strikes, reached, -⟩
  · exact .inl ⟨f, congrArg Prod.fst struck⟩
  · exact .inr (congrArg Prod.fst reached)

/-! ## Objects after a change -/

theorem object?_put {b : Bucket} (hb : w.bucket = some b) (ht : t.bucket = some (b.put key o)) (k : String) :
    t.object? k = if k = key then some o else w.object? k := by
  rw [object?, object?, hb, ht, Option.bind_some, Option.bind_some, Bucket.get?_put]

theorem object?_erase {b : Bucket} (hb : w.bucket = some b) (ht : t.bucket = some (b.erase keys)) (k : String) :
    t.object? k = if k ∈ keys then none else w.object? k := by
  rw [object?, object?, hb, ht, Option.bind_some, Option.bind_some, Bucket.get?_erase]

theorem shrinks_of_erase {b : Bucket} (hb : w.bucket = some b) (ht : t.bucket = some (b.erase keys))
    (rows : ∀ e ∈ t.files.rows, e ∈ w.files.rows) : Shrinks w t := by
  refine ⟨fun k o ho => ?_, rows⟩
  rw [object?_erase hb ht] at ho
  split at ho
  · cases ho
  · exact ho

/-- **Calls that ask for nothing more add nothing.** -/
theorem serve_shrinks {c : Call} (h : c.AddsNothing) (w : World) : Shrinks w (serve c w).2 := by
  by_cases reads : c.Reads
  · exact (serve_reads reads w).shrinks
  cases c with
  | putObject | insertFile => exact h.elim
  | deleteObject key =>
    rcases serve_deleteObject w key with ⟨f, -, same⟩ | ⟨-, b, hb, ht, hfiles⟩
    · exact same.shrinks
    · exact shrinks_of_erase hb ht fun _ he => hfiles ▸ he
  | deleteObjects keys =>
    rcases serve_deleteObjects w keys with ⟨f, -, same⟩ | ⟨refused, -, -, b, hb, ht, hfiles⟩
    · exact same.shrinks
    · exact shrinks_of_erase hb ht fun _ he => hfiles ▸ he
  | deleteFiles q =>
    rcases serve_deleteFiles w q with ⟨f, -, same⟩ | ⟨-, hbucket, hfiles⟩
    · exact same.shrinks
    · refine ⟨fun k o ho => ?_, fun e he => ?_⟩
      · rwa [object?, hbucket] at ho
      · rw [hfiles] at he
        exact List.mem_of_mem_filter he
  | _ => exact absurd trivial reads

/-! ## Surroundings without faults -/

theorem calm_request (calm : Calm w) (e : Endpoint) (keys : List String)
    {answer : Bucket → World → Except Fault α × World} (h : ∀ b w, Calm w → Calm (answer b w).2) :
    Calm (w.request e keys answer).2 := by
  rcases request_cases w e keys answer with ⟨f, strikes, struck, unstruck⟩ | ⟨b, strikes, -, reached, unstruck⟩
  · rw [struck]
    exact ⟨unstruck calm.strikes, calm.refusals, calm.locked⟩
  · rw [reached]
    exact h b _ ⟨unstruck calm.strikes, calm.refusals, calm.locked⟩

theorem calm_statement (calm : Calm w) (e : Endpoint) {answer : World → Except Fault α × World}
    (h : ∀ w, Calm w → Calm (answer w).2) : Calm (w.statement e answer).2 := by
  rcases statement_cases w e answer with ⟨f, strikes, struck, unstruck⟩ | ⟨strikes, reached, unstruck⟩
  · rw [struck]
    exact ⟨unstruck calm.strikes, calm.refusals, calm.locked⟩
  · rw [reached]
    exact h _ ⟨unstruck calm.strikes, calm.refusals, calm.locked⟩

theorem Aside.calm (h : Aside w t) (calm : Calm w) : Calm t :=
  ⟨h.strikes.trans calm.strikes, h.refusals.trans calm.refusals, h.locked.trans calm.locked⟩

theorem calm_lookBelow (calm : Calm w) (levels : List (List String)) : Calm (w.lookBelow levels).2 := by
  induction levels generalizing w with
  | nil => exact calm
  | cons _ below ih => exact calm_statement calm _ fun w hw => ih hw

theorem calm_deleteExecution (calm : Calm w) (id : String) : Calm (w.deleteExecution id).2 := by
  refine calm_statement calm _ fun w hw => ?_
  split
  · have looked := calm_lookBelow hw (Execution.treeLevels w.executions.rows id)
    dsimp only
    split
    · rename_i f t same
      rw [same] at looked
      exact looked
    · rename_i t same
      rw [same] at looked
      refine calm_statement looked _ fun t ht => ?_
      split <;> exact ⟨ht.strikes, ht.refusals, ht.locked⟩
  · exact hw

/-- **No call schedules a fault or locks a row.** -/
theorem serve_calm (c : Call) (calm : Calm w) : Calm (serve c w).2 := by
  cases c with
  | putObject | deleteObject =>
    exact calm_request calm _ _ fun b w hw => ⟨hw.strikes, hw.refusals, hw.locked⟩
  | getObject | headObject =>
    refine calm_request calm _ _ fun b w hw => ?_
    split <;> exact ⟨hw.strikes, hw.refusals, hw.locked⟩
  | listObjects => exact calm_request calm _ _ fun b w hw => hw
  | deleteObjects keys =>
    refine calm_request calm _ _ fun b w hw => ⟨hw.strikes, ?_, hw.locked⟩
    show (Rule.next (fun _ => true) w.refusals).2 = []
    rw [hw.refusals]
    rfl
  | selectFiles | countFiles | pageFiles | selectExecutions | countExecutions | pageExecutions =>
    exact calm_statement calm _ fun w hw => hw
  | insertFile e =>
    refine calm_statement calm _ fun w hw => ?_
    rw [insertFile]
    split <;> exact ⟨hw.strikes, hw.refusals, hw.locked⟩
  | deleteFiles q =>
    refine calm_statement calm _ fun w hw => ?_
    rw [deleteFiles]
    split <;> exact ⟨hw.strikes, hw.refusals, hw.locked⟩
  | deleteExecution id => exact calm_deleteExecution calm id
  | now => exact ⟨calm.strikes, calm.refusals, calm.locked⟩
  | freshId =>
    simp only [serve, freshId]
    split <;> exact ⟨calm.strikes, calm.refusals, calm.locked⟩
  | drain | close | closeContent | createTemporary | writeFile | readFile | removeFile | print =>
    exact (serve_local (by exact trivial) w).calm calm

/-! ## Calls without faults -/

theorem unstruck_listObjects (unstruck : w.strikes = []) {b : Bucket} (hb : w.bucket = some b) (start : String)
    (after : Option String) : serve (.listObjects start after) w = (.ok (b.page start after), w) :=
  request_calm unstruck (by simp) hb _ _

theorem unstruck_headObject (unstruck : w.strikes = []) (hkey : key ≠ "") (h : w.object? key = some o) :
    serve (.headObject key) w = (.ok o.metadata, w) := by
  obtain ⟨b, hb, there⟩ := Option.bind_eq_some_iff.1 h
  rw [serve, request_calm unstruck (by simpa using hkey.symm) hb, there]

theorem unstruck_getObject (unstruck : w.strikes = []) (hkey : key ≠ "") (h : w.object? key = some o) :
    (serve (.getObject key) w).1 = .ok o.content := by
  obtain ⟨b, hb, there⟩ := Option.bind_eq_some_iff.1 h
  rw [serve, request_calm unstruck (by simpa using hkey.symm) hb, there]

theorem unstruck_deleteObject (unstruck : w.strikes = []) {b : Bucket} (hb : w.bucket = some b) (hkey : key ≠ "") :
    serve (.deleteObject key) w = (.ok (), { w with bucket := some (b.erase [key]) }) :=
  request_calm unstruck (by simpa using hkey.symm) hb _ _

theorem refuse_calm (h : w.refusals = []) : w.refuse = ([], w) := by
  cases w
  cases h
  rfl

theorem calm_deleteObjects (calm : Calm w) {b : Bucket} (hb : w.bucket = some b) (hkeys : "" ∉ keys) :
    serve (.deleteObjects keys) w = (.ok [], { w with bucket := some (b.erase keys) }) := by
  have answer : serve (.deleteObjects keys) w = deleteObjects keys b w := request_calm calm.strikes hkeys hb _ _
  have all : keys.filter (fun k => !([] : List String).contains k) = keys := List.filter_eq_self.2 fun _ _ => rfl
  rw [answer, deleteObjects, refuse_calm calm.refusals]
  show (Except.ok [], { w with bucket := some (b.erase (keys.filter fun k => !([] : List String).contains k)) }) = _
  rw [all]

theorem unstruck_deleteFiles (unstruck : w.strikes = []) (q : FileQuery) : serve (.deleteFiles q) w =
    if (w.files.select q).any fun e => w.locked.contains e.id then (.error .lockedRow, w)
    else (.ok (w.files.select q).length, { w with files := w.files.remove q }) := by
  rw [serve, statement_calm unstruck, deleteFiles]

theorem calm_deleteFiles (calm : Calm w) (q : FileQuery) :
    serve (.deleteFiles q) w = (.ok (w.files.select q).length, { w with files := w.files.remove q }) := by
  rw [unstruck_deleteFiles calm.strikes]
  simp [calm.locked]

theorem unstruck_selectFiles (unstruck : w.strikes = []) (q : FileQuery) :
    serve (.selectFiles q) w = (.ok (w.files.select q), w) := by
  rw [serve, statement_calm unstruck]

theorem unstruck_countFiles (unstruck : w.strikes = []) (q : FileQuery) :
    serve (.countFiles q) w = (.ok (w.files.select q).length, w) := by
  rw [serve, statement_calm unstruck]

theorem unstruck_pageFiles (unstruck : w.strikes = []) (q : FileQuery) {n : Nat} (hn : n ≤ maxLimit) :
    serve (.pageFiles q n) w = (.ok ((oldestFirst (·.modified) (w.files.select q)).take n), w) := by
  rw [serve, statement_calm unstruck, limited, if_pos hn]

theorem unstruck_countExecutions (unstruck : w.strikes = []) (cutoff : Time.Timestamp) :
    serve (.countExecutions cutoff) w = (.ok (w.executions.expired cutoff).length, w) := by
  rw [serve, statement_calm unstruck]

theorem unstruck_pageExecutions (unstruck : w.strikes = []) (cutoff : Time.Timestamp) {n : Nat} (hn : n ≤ maxLimit) :
    serve (.pageExecutions cutoff n) w =
      (.ok ((oldestFirst (·.startedAt) (w.executions.expired cutoff)).take n), w) := by
  rw [serve, statement_calm unstruck, limited, if_pos hn]

theorem lookBelow_unstruck (unstruck : w.strikes = []) (levels : List (List String)) :
    w.lookBelow levels = (.ok (), w) := by
  induction levels with
  | nil => rfl
  | cons _ below ih => rw [lookBelow, statement_calm unstruck, ih]

/-- a row in the tree of an execution is locked -/
def locksTree (w : World) (id : String) : Bool :=
  (Execution.treeLevels w.executions.rows id).flatten.any fun id => w.locked.any (Execution.sameId id)

theorem locksTree_of_calm (calm : Calm w) (id : String) : w.locksTree id = false := by
  simp [locksTree, calm.locked]

/-- an execution that is there is removed with its tree, unless a row of this is locked -/
theorem unstruck_deleteExecution (unstruck : w.strikes = []) {id : String} (there : id ∈ w.executions.rows.map (·.id)) :
    serve (.deleteExecution id) w =
      if w.locksTree id then (.error .lockedRow, w)
      else (.ok (Execution.treeLevels w.executions.rows id).flatten.length,
        { w with executions := w.executions.remove (Execution.treeLevels w.executions.rows id).flatten }) := by
  have row : w.executions.rows.any (·.id == id) = true := by simpa using there
  rw [serve, deleteExecution, statement_calm unstruck, if_pos row]
  dsimp only
  rw [lookBelow_unstruck unstruck]
  dsimp only
  rw [statement_calm unstruck]
  rfl

theorem calm_removeExecution (calm : Calm w) {id : String} (there : id ∈ w.executions.rows.map (·.id)) :
    serve (.deleteExecution id) w = (.ok (Execution.treeLevels w.executions.rows id).flatten.length,
      { w with executions := w.executions.remove (Execution.treeLevels w.executions.rows id).flatten }) := by
  rw [unstruck_deleteExecution calm.strikes there, locksTree_of_calm calm, if_neg Bool.false_ne_true]

end Depot.World
