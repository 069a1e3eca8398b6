/-
Ids that uploads hold.

An upload is given an id, puts a content at its key, and adds a row with this id as its last act on the stores. In between
it holds the id. `holding` says this of any program: it puts contents only at the keys of the id that it holds, and adds a
row only with this id, and then it holds none. Every operation follows it, whatever the replies are
(`Operation.follows_holding`).

So operations that take turns stay apart as long as the ids given to them are (`Orderly`): no two hold the same id, and no
row has an id that one of them holds. A turn of one of them brings nothing but at ids that it holds itself.
-/
import Depot.Proofs.History
import Depot.Proofs.Sweeps
import Depot.Proofs.Turns

namespace Depot

open World Key

variable {α : Type} {l : Location} {w t : World} {site : Site} {held : Option String}

/-! ## What a program holds -/

def Call.gives : (c : Call) → c.Reply → List String
  | .freshId, id => [id]
  | _, _ => []

/-- the id that is held after a call: the last one that was given, until there is a row with it -/
def Call.holds (held : Option String) : (c : Call) → c.Reply → Option String
  | .freshId, id => some id
  | .insertFile _, .ok () => none
  | _, _ => held

theorem Call.mem_holds {c : Call} {r : c.Reply} {id : String} (h : id ∈ c.holds held r) : id ∈ held ∨ id ∈ c.gives r := by
  cases c with
  | freshId => exact .inr (List.mem_singleton.2 (Option.mem_some_iff.1 h).symm)
  | insertFile e =>
    cases r with
    | ok => cases h
    | error f => exact .inl h
  | _ => exact .inl h

/-- an id that is held after a call of one program was held before, or was given to this one -/
theorem Call.mem_update_holds {c : Call} {r : c.Reply} {held : Nat → Option String} {i j : Nat} {id : String}
    (h : id ∈ Function.update held i (c.holds (held i) r) j) : id ∈ held j ∨ i = j ∧ id ∈ c.gives r := by
  by_cases same : j = i
  · subst same
    rw [Function.update_self] at h
    exact (Call.mem_holds h).imp_right fun new => ⟨rfl, new⟩
  · rw [Function.update_of_ne same] at h
    exact .inl h

/-- a call that puts nothing but at keys of the id that is held, and adds no row but with this id -/
def Call.KeepsTo (l : Location) (held : Option String) : Call → Prop
  | .putObject key _ _ => ∃ id ∈ held, ∃ space, l.key space id = .ok key
  | .insertFile e => e.id ∈ held ∧ ∃ key, l.key e.space e.id = .ok key
  | _ => True

/-- ids are given, held and used up -/
def holding (l : Location) : Protocol service (Option String) where
  allows c held := c.KeepsTo l held
  leads c held r held' := held' = c.holds held r

theorem Call.AddsNothing.keepsTo {c : Call} (h : c.AddsNothing) (held : Option String) : c.KeepsTo l held := by
  cases c with
  | putObject | insertFile => exact h.elim
  | _ => exact trivial

/-- what changes between two states is at the id that was held before and is not any more -/
structure World.Brings (l : Location) (held held' : Option String) (w t : World) : Prop where
  rows : ∀ e ∈ t.files.rows, e ∈ w.files.rows ∨ e.id ∈ held ∧ held' = none ∧ ∃ k, l.key e.space e.id = .ok k
  objects : ∀ k o, t.object? k = some o → (∃ o', w.object? k = some o') ∨ ∃ id ∈ held, ∃ space, l.key space id = .ok k

/-- **A call that keeps to an id brings nothing at others.** -/
theorem World.serve_brings {c : Call} (h : c.KeepsTo l held) (w : World) :
    Brings l held (c.holds held (serve c w).1) w (serve c w).2 := by
  have of_shrinks : Shrinks w (serve c w).2 → Brings l held (c.holds held (serve c w).1) w (serve c w).2 :=
    fun less => ⟨fun e he => .inl (less.rows e he), fun k o ho => .inl ⟨o, less.objects k o ho⟩⟩
  by_cases adds : c.AddsNothing
  · exact of_shrinks (serve_shrinks adds w)
  cases c with
  | putObject key content metadata =>
    obtain ⟨id, own, space, hkey⟩ := h
    rcases serve_put w key content metadata with ⟨f, -, same⟩ | ⟨-, b, hb, ht, hfiles⟩
    · exact of_shrinks same.shrinks
    · refine ⟨fun e he => .inl (hfiles ▸ he), fun k o ho => ?_⟩
      rw [object?_put hb ht] at ho
      split at ho
      case isTrue same => exact .inr ⟨id, own, space, same ▸ hkey⟩
      case isFalse => exact .inl ⟨o, ho⟩
  | insertFile e =>
    obtain ⟨own, placed⟩ := h
    rcases serve_insert w e with ⟨f, -, same⟩ | ⟨reply, hbucket, hrows⟩
    · exact of_shrinks same.shrinks
    · refine ⟨fun e' he => ?_, fun k o ho => .inl ⟨o, by rwa [object?, hbucket] at ho⟩⟩
      rw [hrows, List.mem_append, List.mem_singleton] at he
      rcases he with he | rfl
      · exact .inl he
      · exact .inr ⟨own, by rw [reply]; rfl, placed⟩
  | _ => exact absurd trivial adds

/-! ## Operations -/

theorem Prog.Only.follows_holding {p : Op α} (h : p.Only Call.AddsNothing) (held : Option String) :
    p.Follows (holding l) (fun _ _ => True) held :=
  h.follows (fun _ held hc => hc.keepsTo held) held

theorem Content.follows_put {e : Entry} (own : e.id ∈ held) (content : ByteArray) :
    (put site e content).Follows (holding site.location)
      (fun r held' => held' = held ∧ ((∃ failure, r = .error failure) ∨ ∃ k, site.location.key e.space e.id = .ok k))
      held := by
  rw [put]
  cases hkey : site.location.key e.space e.id with
  | error failure => exact ⟨rfl, .inl ⟨failure, rfl⟩⟩
  | ok key =>
    rw [Prog.ofExcept_ok_bind]
    refine Prog.Follows.bind (R := fun _ held' => held' = held) ?_ (fun _ _ same => ⟨same, .inr ⟨key, rfl⟩⟩)
      (fun failure _ same => ⟨same, .inr ⟨key, rfl⟩⟩)
    refine Op.follows_account ?_ fun _ _ _ same => same
    rw [Prog.follows_record_bind, Op.follows_ask_bind]
    refine ⟨⟨e.id, own, e.space, hkey⟩, ?_⟩
    rintro r _ rfl
    exact (Prog.follows_ofReply r).2 rfl

theorem Files.follows_store (space : String) (ns : Option String) (name : String) (file : Upload.LocalFile) :
    (store site space ns name file).Follows (holding site.location) (fun _ _ => True) held := by
  refine ⟨trivial, ?_⟩
  rintro id _ rfl
  refine ⟨trivial, ?_⟩
  rintro modified _ rfl
  refine ⟨trivial, ?_⟩
  rintro reply _ rfl
  cases reply with
  | error f => trivial
  | ok content =>
    refine (Content.follows_put rfl content).bind (fun _ held' put => ?_) (fun _ _ _ => trivial)
    obtain ⟨rfl, ⟨_, failed⟩ | placed⟩ := put
    · cases failed
    refine Prog.Follows.bind (R := fun _ _ => True) (Op.follows_account ?_ fun _ _ _ h => h) (fun _ _ _ => trivial)
      (fun _ _ _ => trivial)
    rw [inUtc]
    cases modified.toUtc? with
    | none => trivial
    | some utc =>
      refine ⟨⟨rfl, placed⟩, fun r _ _ => ?_⟩
      exact (Prog.follows_ofReply r).2 trivial

/-- **Every operation puts and adds only at the id that it holds.** -/
theorem Operation.follows_holding (o : Operation) (held : Option String) :
    (o.program site).Follows (holding site.location) (fun _ _ => True) held := by
  have after_local {β : Type} {p : Op β} (h : p.Only Call.IsLocal) (held : Option String) :
      p.Follows (holding site.location) (fun _ _ => True) held :=
    (h.mono fun _ hc => hc.addsNothing).follows_holding held
  cases o with
  | add space ns name s =>
    refine Prog.Follows.bind (R := fun _ _ => True) ?_ (fun _ _ _ => trivial) (fun _ _ _ => trivial)
    refine (after_local (Files.local_receive s) held).bind (fun file held _ => ?_) (fun _ _ _ => trivial)
    refine Prog.Follows.bind (R := fun _ _ => True) (Files.follows_store space ns name file).attempt
      (fun stored held _ => ?_) (fun _ _ _ => trivial)
    refine (after_local (local_removeStaged file.path) held).bind (fun _ held _ => ?_) (fun _ _ _ => trivial)
    rw [Prog.follows_ofExcept]
    trivial
  | addExisting space ns name path =>
    refine Prog.Follows.bind (R := fun _ _ => True) ?_ (fun _ _ _ => trivial) (fun _ _ _ => trivial)
    refine Prog.Follows.bind (R := fun _ _ => True) ?_ (fun algorithm held _ => ?_) (fun _ _ _ => trivial)
    · exact after_local (Files.only_setting _) held
    · exact (after_local (Upload.local_describe path algorithm) held).bind
        (fun file held _ => Files.follows_store space ns name file) (fun _ _ _ => trivial)
  | _ => exact (Operation.only_program rfl).follows_holding held

/-! ## Operations that take turns -/

/-- operations that are about to start, with the ids that were given so far -/
def Crowd.of (site : Site) (w : World) (operations : List Operation) : Crowd service (World × List String) :=
  ⟨(w, []), operations.map (·.program site)⟩

/-- what calls are answered with while the ids that they give are collected -/
abbrev World.collecting : (c : Call) → World × List String → c.Reply × (World × List String) :=
  Prog.collect (I := service) serve Call.gives

/-- ids that may be given to uploads: no two are the same, no row has one of them before, and each can be the last name of
a key without being a name of the location -/
structure Fresh (l : Location) (w : World) (ids : List String) : Prop where
  distinct : ids.Nodup
  unused : ∀ id ∈ ids, id ∉ w.files.rows.map (·.id)
  names : ∀ id ∈ ids, IsSegment id ∧ id ≠ l.lastName

theorem Fresh.of_append {ids more : List String} (h : Fresh l w (ids ++ more)) : Fresh l w ids :=
  ⟨(List.nodup_append.1 h.distinct).1, fun id hid => h.unused id (List.mem_append_left _ hid),
    fun id hid => h.names id (List.mem_append_left _ hid)⟩

theorem Fresh.last {ids more : List String} {id : String} (h : Fresh l w (ids ++ more)) (hid : id ∈ more) : id ∉ ids :=
  fun before => (List.nodup_append.1 h.distinct).2.2 id before id hid rfl

theorem Fresh.before_turn {c : Crowd service (World × List String)} {j : Nat}
    (h : Fresh l w (c.turn collecting j).state.2) : Fresh l w c.state.2 := by
  have turned := c.turned collecting j
  revert h turned
  generalize c.turn collecting j = d
  intro h turned
  cases turned with
  | rests => exact h
  | notes event next own => exact h
  | calls call next own => exact h.of_append

/-- operations that started in `w` and hold some ids: each holds its own, and the rows have others -/
structure Orderly (l : Location) (w : World) (held : Nat → Option String) (c : Crowd service (World × List String)) :
    Prop where
  follows : ∀ j (p : Op Unit), c.programs[j]? = some p → p.Follows (holding l) (fun _ _ => True) (held j)
  given : ∀ j, ∀ id ∈ held j, id ∈ c.state.2
  apart : ∀ i j, ∀ id ∈ held i, id ∈ held j → i = j
  unused : ∀ j, ∀ id ∈ held j, ∀ e ∈ c.state.1.files.rows, e.id ≠ id
  known : ∀ e ∈ c.state.1.files.rows, e.id ∈ w.files.rows.map (·.id) ∨ e.id ∈ c.state.2
  placed : Placed l c.state.1

namespace Orderly

variable {c : Crowd service (World × List String)} {i : Nat} {held : Nat → Option String}

theorem start (placed : Placed site.location w) (operations : List Operation) :
    Orderly site.location w (fun _ => none) (Crowd.of site w operations) where
  follows j p own := by
    rw [Crowd.of, List.getElem?_map, Option.map_eq_some_iff] at own
    obtain ⟨o, -, rfl⟩ := own
    exact o.follows_holding none
  given := by simp
  apart := by simp
  unused := by simp
  known e he := .inl (List.mem_map_of_mem he)
  placed := placed

theorem notes (h : Orderly l w held c) {e : Event} {next : Op Unit} (own : c.programs[i]? = some (.note e next)) :
    Orderly l w held ⟨c.state, c.programs.set i next⟩ where
  follows j p hp := by
    rcases Crowd.programs_set hp with ⟨rfl, rfl⟩ | ⟨-, hp⟩
    · have follows := h.follows i _ own
      exact follows
    · exact h.follows j p hp
  given := h.given
  apart := h.apart
  unused := h.unused
  known := h.known
  placed := h.placed

section Call

variable {call : Call} {next : call.Reply → Op Unit}

theorem brings (h : Orderly l w held c) (own : c.programs[i]? = some (.call call next)) :
    Brings l (held i) (call.holds (held i) (serve call c.state.1).1) c.state.1 (serve call c.state.1).2 :=
  serve_brings (h.follows i _ own).1 c.state.1

/-- what a call gives is held by nobody, and no row has it yet -/
theorem gives_new (fresh : Fresh l w (collecting call c.state).2.2) {id : String}
    (hid : id ∈ call.gives (serve call c.state.1).1) : id ∉ c.state.2 ∧ id ∉ w.files.rows.map (·.id) :=
  ⟨fresh.last hid, fresh.unused id (List.mem_append_right _ hid)⟩

/-- after a call, no two of them hold the same id -/
theorem apart_after (h : Orderly l w held c) (fresh : Fresh l w (collecting call c.state).2.2) (j j' : Nat) (id : String)
    (hid : id ∈ Function.update held i (call.holds (held i) (serve call c.state.1).1) j)
    (hid' : id ∈ Function.update held i (call.holds (held i) (serve call c.state.1).1) j') : j = j' := by
  rcases Call.mem_update_holds hid with old | ⟨same, gives⟩
  · rcases Call.mem_update_holds hid' with old' | ⟨-, gives'⟩
    · exact h.apart j j' id old old'
    · exact absurd (h.given j id old) (gives_new fresh gives').1
  · rcases Call.mem_update_holds hid' with old' | ⟨same', -⟩
    · exact absurd (h.given j' id old') (gives_new fresh gives).1
    · exact same.symm.trans same'

/-- after a call, no row has an id that one of them holds -/
theorem unused_after (h : Orderly l w held c) (own : c.programs[i]? = some (.call call next))
    (fresh : Fresh l w (collecting call c.state).2.2) (j : Nat) (id : String)
    (hid : id ∈ Function.update held i (call.holds (held i) (serve call c.state.1).1) j) :
    ∀ e ∈ (serve call c.state.1).2.files.rows, e.id ≠ id := by
  intro e he same
  rcases (h.brings own).rows e he with he | ⟨hers, used, -⟩
  · -- the row was there: its id is none that is given just now
    rcases Call.mem_update_holds hid with old | ⟨-, gives⟩
    · exact h.unused j id old e he same
    · rcases h.known e he with known | known
      · exact (gives_new fresh gives).2 (same ▸ known)
      · exact (gives_new fresh gives).1 (same ▸ known)
  · -- the row is new: its id was held by the one that makes the call, and is used up
    by_cases own : j = i
    · subst own
      rw [Function.update_self, used] at hid
      cases hid
    · rw [Function.update_of_ne own] at hid
      exact own (h.apart j i id hid (same ▸ hers))

/-- **A call keeps them orderly,** if what it gives is fresh. -/
theorem calls (h : Orderly l w held c) (own : c.programs[i]? = some (.call call next))
    (fresh : Fresh l w (collecting call c.state).2.2) :
    Orderly l w (Function.update held i (call.holds (held i) (serve call c.state.1).1))
      ⟨(collecting call c.state).2, c.programs.set i (next (collecting call c.state).1)⟩ := by
  have brings := h.brings own
  refine ⟨?follows, ?given, h.apart_after fresh, h.unused_after own fresh, ?known, ?placed⟩
  case follows =>
    intro j p hp
    rcases Crowd.programs_set hp with ⟨rfl, rfl⟩ | ⟨other, hp⟩
    · rw [Function.update_self]
      exact (h.follows i _ own).2 _ _ rfl
    · rw [Function.update_of_ne (Ne.symm other)]
      exact h.follows j p hp
  case given =>
    intro j id hid
    rcases Call.mem_update_holds hid with old | ⟨-, gives⟩
    · exact List.mem_append_left _ (h.given j id old)
    · exact List.mem_append_right _ gives
  case known =>
    intro e he
    rcases brings.rows e he with he | ⟨hers, -⟩
    · exact (h.known e he).imp_right fun given => List.mem_append_left _ given
    · exact .inr (List.mem_append_left _ (h.given i _ hers))
  case placed =>
    refine ⟨fun e he => ?_, fun e he => ?_⟩
    · rcases brings.rows e he with he | ⟨hers, -⟩
      · exact h.placed.ids e he
      · exact fresh.names e.id (List.mem_append_left _ (h.given i _ hers))
    · rcases brings.rows e he with he | ⟨-, -, placed⟩
      · exact h.placed.keys e he
      · exact placed

end Call

end Orderly

end Depot
