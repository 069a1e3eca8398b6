/-
A sweep beside other operations.

A sweep asks for the rows first and lists the contents after that; an upload puts its content first and adds its row after
that. So while others take turns between the calls of a sweep, the rows that it was given and their contents can go, but
they cannot come back (`World.Fades`): nobody holds the id of a row any more. What is not on its page of a listing is gone
for good, however the listing is cut and whatever comes and goes on the way (`Content.follows_overKeys`). Hence each row
that a sweep removes has no content when it is removed, in whatever order the operations take their turns
(`sweep_beside_others`).
-/
import Depot.Proofs.Holding
import Depot.Proofs.Paging

namespace Depot

open World Key

variable {l : Location} {w v s t u : World} {e : Entry} {site : Site}

/-! ## What a sweep relies on -/

/-- of the rows of `v` and of their contents some may go between two states, but none comes -/
structure World.Fades (l : Location) (v s t : World) : Prop where
  rows : ∀ e ∈ t.files.rows, e.id ∈ v.files.rows.map (·.id) → e ∈ s.files.rows
  contents : ∀ e ∈ v.files.rows, t.HasContent l e → s.HasContent l e

namespace World.Fades

theorem of_same (same : SameStores s t) : Fades l v s t :=
  ⟨fun _ he _ => same.files ▸ he, fun _ _ => same.hasContent.1⟩

theorem trans (h : Fades l v s t) (h' : Fades l v t u) : Fades l v s u :=
  ⟨fun e he own => h.rows e (h'.rows e he own) own, fun e he has => h.contents e he (h'.contents e he has)⟩

end World.Fades

/-- the rows that a call removes have no content -/
def Call.Tidies (l : Location) (w : World) (c : Call) : Prop :=
  ∀ e ∈ w.files.rows, e ∉ (serve c w).2.files.rows → ¬w.HasContent l e

/-- a sweep that was given the rows of `v`: others come between its calls, and it removes no row that has a content -/
def reconciling (l : Location) (v : World) : Protocol service World where
  allows c s := ∀ u, Fades l v s u → c.Tidies l u
  leads c s r t := ∃ u, Fades l v s u ∧ r = (serve c u).1 ∧ t = (serve c u).2

theorem reconciling_reads {c : Call} (h : c.Reads) : (reconciling l v).allows c s :=
  fun u _ _ he gone => absurd ((serve_reads h u).files ▸ he) gone

/-! ## Contents that are found -/

namespace Content

/-- the content of a row is among the keys found so far, if it is still there -/
def Found (l : Location) (keys : List String) (t : World) (e : Entry) : Prop :=
  t.HasContent l e → ∀ k, l.key e.space e.id = .ok k → k ∈ keys

/-- the rows fade, and the contents of those in some spaces are found, or their keys are still to come -/
structure Finds (l : Location) (v : World) (done : List (Option String)) (coming : String → Prop) (keys : List String)
    (t : World) : Prop where
  since : Fades l v v t
  found : ∀ e ∈ v.files.rows, some e.space ∈ done → t.HasContent l e → ∀ k, l.key e.space e.id = .ok k →
    k ∈ keys ∨ coming k

namespace Finds

variable {done : List (Option String)} {coming coming' : String → Prop} {keys : List String} {start : String}

theorem mono (h : Finds l v done coming keys t) (sub : ∀ k, coming k → coming' k) : Finds l v done coming' keys t :=
  ⟨h.since, fun e he hspace has k hk => (h.found e he hspace has k hk).imp_right (sub k)⟩

/-- a content that stays is found on the page where its key is when that page is given -/
theorem pages {after : Option String} (h : Finds l v done (Behind start after) keys s) :
    Pages (reconciling l v) (fun coming => Finds l v done coming keys) start after s := by
  refine ⟨reconciling_reads (by exact trivial), ?_⟩
  rintro _ _ ⟨u, fades, rfl, rfl⟩
  have same : SameStores u (serve (.listObjects start after) u).2 := serve_reads (by exact trivial) u
  rcases serve_list u start after with ⟨f, reply⟩ | ⟨b, hb, reply⟩
  · exact .inl ⟨f, reply⟩
  refine .inr ⟨b, reply, h.since.trans (fades.trans (.of_same same)), fun e he hspace has k hk => ?_⟩
  have has := same.hasContent.1 has
  refine (h.found e he hspace (fades.contents e he has) k hk).imp_right fun behind => ?_
  obtain ⟨k', o, hk', ho⟩ := has
  obtain rfl : k = k' := Except.ok.inj (hk.symm.trans hk')
  rw [object?, hb, Option.bind_some] at ho
  exact Bucket.mem_listed.2 ⟨Bucket.mem_keys_iff.2 ⟨o, ho⟩, behind⟩

theorem next {key : String} (h : Finds l v done (fun k => k = key ∨ coming k) keys t) :
    Finds l v done coming (key :: keys) t := by
  refine ⟨h.since, fun e he hspace has k hk => ?_⟩
  rcases h.found e he hspace has k hk with found | rfl | coming
  · exact .inl (List.mem_cons_of_mem _ found)
  · exact .inl List.mem_cons_self
  · exact .inr coming

end Finds

/-- **All contents that stay are found.** -/
theorem follows_keysOf (placed : Placed site.location v) (since : Fades site.location v v s) :
    (keysOf site (v.files.rows.map (·.space)).eraseDups).Follows (reconciling site.location v)
      (fun r t => ∀ keys, r = .ok keys → Fades site.location v v t ∧
        ∀ e ∈ v.files.rows, Found site.location keys t e) s := by
  rw [keysOf]
  refine (follows_overSpaces (J := Finds site.location v) (fun _ _ _ _ _ sub h => h.mono sub) (fun _ _ _ _ _ h => h.pages)
    ?body ?opens [] s ⟨since, by simp⟩).mono fun r t ends keys eq => ?_
  case body =>
    intro done space start key coming keys t _ _ _ h
    exact yields_ok h.next
  case opens =>
    intro done space start keys t hstart h
    refine ⟨h.since, fun e he hspace has k hk => ?_⟩
    rcases List.mem_append.1 hspace with before | here
    · exact .inl ((h.found e he before has k hk).resolve_right id)
    · obtain ⟨start', hstart', starts⟩ := placed.start he
      rw [List.mem_singleton.1 here, hstart, Except.ok.injEq] at hstart'
      exact .inr ⟨hstart' ▸ starts k hk, by simp⟩
  obtain ⟨⟨since, found⟩, -⟩ := ends keys eq
  refine ⟨since, fun e he has k hk => (found e he ?_ has k hk).resolve_right id⟩
  exact List.mem_map.2 ⟨e.space, List.mem_eraseDups.2 (List.mem_map_of_mem he), rfl⟩

/-- **What is taken for missing has no content,** then and later. -/
theorem follows_withoutContent (placed : Placed site.location v) (since : Fades site.location v v s) :
    (withoutContent site v.files.rows).Follows (reconciling site.location v)
      (fun r t => ∀ missing, r = .ok missing → Fades site.location v v t ∧
        ∀ e ∈ missing, e ∈ v.files.rows ∧ ¬t.HasContent site.location e) s := by
  unfold withoutContent
  refine Prog.Follows.bind (Op.follows_account (follows_keysOf placed since) fun _ _ _ _ _ impossible => by cases impossible)
    (fun keys t found => ?_) (fun _ _ _ _ impossible => by cases impossible)
  obtain ⟨since, found⟩ := found keys rfl
  have silent : (v.files.rows.mapM fun e => do pure (e, ← Prog.ofExcept (site.location.key e.space e.id)) : Op _).Only
      fun _ => False :=
    Prog.Only.mapM fun e _ => (Prog.only_ofExcept _).bind fun _ => Prog.only_pure _
  have located : (v.files.rows.mapM fun e => do pure (e, ← Prog.ofExcept (site.location.key e.space e.id)) :
      Op _).Follows (reconciling site.location v) (fun r u => u = t ∧ ∀ keyed, r = .ok keyed →
        keyed.map Prod.fst = v.files.rows ∧ ∀ x ∈ keyed, site.location.key x.1.space x.1.id = .ok x.2) t :=
    silent.follows_silent ((located_ends v.files.rows t []).mono fun r _ _ ends => ⟨rfl, ends.2.1⟩)
  refine located.bind (fun keyed u ends => ?_) (fun _ _ _ _ impossible => by cases impossible)
  obtain ⟨rfl, ends⟩ := ends
  obtain ⟨all, keys_ok⟩ := ends keyed rfl
  rintro missing ⟨⟩
  refine ⟨since, fun e he => ?_⟩
  obtain ⟨x, hx, rfl⟩ := List.mem_map.1 he
  obtain ⟨hx, absent⟩ := List.mem_filter.1 hx
  have row : x.1 ∈ v.files.rows := all ▸ List.mem_map_of_mem hx
  refine ⟨row, fun has => ?_⟩
  have listed := found x.1 row has x.2 (keys_ok x hx)
  simp [listed] at absent

end Content

/-! ## Sweeps -/

namespace Files

/-- a sweep after it was given the rows -/
def reconcile (site : Site) (entries : List Entry) : Op Nat := do
  let missing ← Content.withoutContent site entries
  if missing = [] then pure 0
  else do
    missing.forM fun e => Prog.record (.contentMissing e.id e.space)
    statement .deleteEntriesWithoutContent (remove (.withIds (missing.map (·.id))))

/-- **Once it was given the rows, a sweep removes no row that has a content,** whatever fades on the way. -/
theorem follows_reconcile (placed : Placed site.location v) (since : Fades site.location v v s) :
    (reconcile site v.files.rows).Follows (reconciling site.location v) (fun _ _ => True) s := by
  rw [reconcile]
  refine (Content.follows_withoutContent placed since).bind (fun missing t found => ?_) (fun _ _ _ => trivial)
  obtain ⟨since, missed⟩ := found missing rfl
  split
  · trivial
  have silent : (missing.forM fun e => Prog.record (I := service) (.contentMissing e.id e.space)).Only fun _ => False :=
    Prog.Only.forM (fun _ => Prog.only_record _) missing
  have ended : (missing.forM fun e => Prog.record (I := service) (.contentMissing e.id e.space)).Ends serve
      (fun _ _ _ => t = t) t [] :=
    Prog.ends_of _ (fun _ _ _ => rfl) t []
  have recorded : (missing.forM fun e => Prog.record (I := service) (.contentMissing e.id e.space)).Follows
      (reconciling site.location v) (fun _ u => u = t) t :=
    silent.follows_silent ended
  refine recorded.bind (fun _ u same => ?_) (fun _ _ _ => trivial)
  obtain rfl := same
  refine Op.follows_account ?_ fun _ _ _ h => h
  show (if (FileQuery.withIds (missing.map (·.id))).isEmpty then pure 0 else
    Op.ask (.deleteFiles (.withIds (missing.map (·.id)))) >>= fun r => Prog.ofReply r : Op Nat).Follows _ _ _
  split
  · trivial
  refine ⟨fun x fades e he gone has => ?_, fun r x _ => (Prog.follows_ofReply r).2 trivial⟩
  -- a row that goes has the id of a missing one, so it was given to the sweep, and is that one
  have asked : e.id ∈ missing.map (·.id) := by
    rcases serve_deleteFiles x (.withIds (missing.map (·.id))) with ⟨f, -, same⟩ | ⟨-, -, rows⟩
    · exact absurd (same.files ▸ he) gone
    · rw [rows, FileTable.mem_remove] at gone
      by_contra unasked
      exact gone ⟨he, by simpa [FileQuery.holds] using unasked⟩
  obtain ⟨m, hm, same⟩ := List.mem_map.1 asked
  obtain ⟨row, lost⟩ := missed m hm
  have own : e ∈ v.files.rows := (since.trans fades).rows e he (same ▸ List.mem_map_of_mem row)
  obtain rfl : m = e := List.inj_on_of_nodup_map v.files.distinct row own same
  exact lost (fades.contents m own has)

end Files

/-! ## A sweep among others -/

variable {c : Crowd service (World × List String)} {held : Nat → Option String} {i j : Nat}

/-- what is left of a sweep that was given the rows of `v`: nobody holds their ids, and it removes none that has a
content -/
structure Underway (l : Location) (w : World) (held : Nat → Option String) (c : Crowd service (World × List String))
    (v : World) (p : Op Unit) : Prop where
  free : ∀ e ∈ v.files.rows, ∀ j, e.id ∉ held j
  known : ∀ e ∈ v.files.rows, e.id ∈ w.files.rows.map (·.id) ∨ e.id ∈ c.state.2
  segments : ∀ e ∈ v.files.rows, IsSegment e.id
  follows : p.Follows (reconciling l v) (fun _ _ => True) c.state.1

namespace Underway

variable {p q : Op Unit} {programs : List (Op Unit)}

/-- after a call of any of the operations the ids of its rows are still free -/
theorem calls {call : Call} (h : Underway l w held c v p) (fresh : Fresh l w (collecting call c.state).2.2)
    (follows : q.Follows (reconciling l v) (fun _ _ => True) (serve call c.state.1).2) :
    Underway l w (Function.update held j (call.holds (held j) (serve call c.state.1).1))
      ⟨(collecting call c.state).2, programs⟩ v q where
  free e he j' hid := by
    rcases Call.mem_update_holds hid with old | ⟨-, gives⟩
    · exact h.free e he j' old
    · rcases h.known e he with known | known
      · exact fresh.unused e.id (List.mem_append_right _ gives) known
      · exact fresh.last gives known
  known e he := (h.known e he).imp_right fun given => List.mem_append_left _ given
  segments := h.segments
  follows := follows

/-- what an operation brings is not of the rows of a sweep -/
theorem fades {held' : Option String} (h : Underway l w held c v p) (brings : Brings l (held j) held' s t)
    (names : ∀ id ∈ held j, IsSegment id) : Fades l v s t where
  rows e he own := by
    obtain ⟨x, hx, same⟩ := List.mem_map.1 own
    exact (brings.rows e he).resolve_right fun hers => h.free x hx j (same ▸ hers.1)
  contents e he has := by
    obtain ⟨k, o, hk, ho⟩ := has
    rcases brings.objects k o ho with ⟨o', before⟩ | ⟨id, hid, space, hkey⟩
    · exact ⟨k, o', hk, before⟩
    · have same := Location.key_id (names id hid) (h.segments e he) hkey hk
      exact absurd (same ▸ hid) (h.free e he j)

/-- while others bring something, a sweep goes on as before -/
theorem follows_fades (h : Underway l w held c v p) (fades : Fades l v c.state.1 t) :
    p.Follows (reconciling l v) (fun _ _ => True) t := by
  refine h.follows.shift (fun call allowed u later => allowed u (fades.trans later)) ?_ (fun _ => id)
  rintro call r x ⟨u, later, reply, left⟩
  exact ⟨u, fades.trans later, reply, left⟩

end Underway

/-- one of the operations is a sweep, which was not given the rows yet or is under way -/
def Sweeping (site : Site) (w : World) (i : Nat) (held : Nat → Option String)
    (c : Crowd service (World × List String)) : Prop :=
  ∃ p : Op Unit, c.programs[i]? = some p ∧
    (p = Operation.sweep.program site ∨ ∃ v, Underway site.location w held c v p)

theorem Operation.sweep_program (site : Site) : Operation.sweep.program site = Prog.call (Call.selectFiles .all)
    fun reply => (Op.account Fault.isDatabaseFault (.taskFailed .listAllEntries) .listAllEntries
      (Prog.ofReply reply) >>= Files.reconcile site).void := rfl

namespace Orderly

theorem underway (h : Orderly site.location w held c) {programs : List (Op Unit)} :
    Underway site.location w held ⟨(collecting (.selectFiles .all) c.state).2, programs⟩ c.state.1
      (Op.account Fault.isDatabaseFault (.taskFailed .listAllEntries) .listAllEntries
        (Prog.ofReply (serve (.selectFiles .all) c.state.1).1) >>= Files.reconcile site).void where
  free e he j own := h.unused j e.id own e he rfl
  known e he := (h.known e he).imp_right fun given => List.mem_append_left _ given
  segments e he := (h.placed.ids e he).1
  follows := by
    have since : Fades site.location c.state.1 c.state.1 (serve (.selectFiles .all) c.state.1).2 :=
      .of_same (serve_reads (c := .selectFiles .all) (by exact trivial) c.state.1)
    have all : c.state.1.files.select .all = c.state.1.files.rows := List.filter_eq_self.2 fun _ _ => rfl
    refine Prog.Follows.bind (R := fun _ _ => True) ?_ (fun _ _ _ => trivial) (fun _ _ _ => trivial)
    show Prog.Follows _ _ _ (serve (.selectFiles .all) c.state.1).2
    rcases serve_select c.state.1 .all with ⟨f, reply⟩ | reply
    · rw [reply]
      exact Prog.Follows.bind (R := fun r _ => ∃ failure, r = .error failure)
        (Op.follows_account ⟨.fault f, rfl⟩ fun _ failure _ _ => ⟨failure, rfl⟩)
        (fun _ _ ⟨_, failed⟩ => by cases failed) (fun _ _ _ => trivial)
    · rw [reply, all]
      exact Files.follows_reconcile h.placed since

/-- **A turn of any of them** leaves them orderly, and the sweep before its start or under way. -/
theorem turn (h : Orderly site.location w held c) (sweeping : Sweeping site w i held c) (j : Nat)
    (fresh : Fresh site.location w (c.turn collecting j).state.2) :
    ∃ held, Orderly site.location w held (c.turn collecting j) ∧ Sweeping site w i held (c.turn collecting j) := by
  obtain ⟨p, at_i, stage⟩ := sweeping
  have turned := c.turned collecting j
  revert fresh turned
  generalize c.turn collecting j = d
  intro fresh turned
  cases turned with
  | rests => exact ⟨held, h, p, at_i, stage⟩
  | notes event next own =>
    refine ⟨held, h.notes own, ?_⟩
    by_cases same : j = i
    · subst same
      obtain rfl : p = .note event next := Option.some.inj (at_i.symm.trans own)
      refine ⟨next, List.getElem?_set_self (List.getElem?_eq_some_iff.1 own).1, ?_⟩
      rcases stage with first | ⟨v, under⟩
      · rw [Operation.sweep_program] at first
        cases first
      · exact .inr ⟨v, under.free, under.known, under.segments, under.follows⟩
    · refine ⟨p, (List.getElem?_set_ne same).trans at_i, stage.imp_right ?_⟩
      rintro ⟨v, under⟩
      exact ⟨v, under.free, under.known, under.segments, under.follows⟩
  | calls call next own =>
    refine ⟨_, h.calls own fresh, ?_⟩
    by_cases same : j = i
    · subst same
      obtain rfl : p = .call call next := Option.some.inj (at_i.symm.trans own)
      refine ⟨_, List.getElem?_set_self (List.getElem?_eq_some_iff.1 own).1, .inr ?_⟩
      rcases stage with first | ⟨v, under⟩
      · rw [Operation.sweep_program] at first
        cases first
        refine ⟨c.state.1, ?_⟩
        have still : Function.update held j (Call.holds (held j) (.selectFiles .all)
            (serve (.selectFiles .all) c.state.1).1) = held := Function.update_eq_self j held
        rw [still]
        exact h.underway
      · exact ⟨v, under.calls fresh (under.follows.2 _ _ ⟨c.state.1, .of_same (.refl _), rfl, rfl⟩)⟩
    · refine ⟨p, (List.getElem?_set_ne same).trans at_i, stage.imp_right ?_⟩
      rintro ⟨v, under⟩
      have names : ∀ id ∈ held j, IsSegment id :=
        fun id hid => (fresh.names id (List.mem_append_left _ (h.given j id hid))).1
      exact ⟨v, under.calls fresh (under.follows_fades (under.fades (h.brings own) names))⟩

/-- **Whatever turns they take,** operations that are given fresh ids stay orderly. -/
theorem after (placed : Placed site.location w) {operations : List Operation} (sweeps : operations[i]? = some .sweep)
    (turns : List Nat) (fresh : Fresh site.location w ((Crowd.of site w operations).after collecting turns).state.2) :
    ∃ held, Orderly site.location w held ((Crowd.of site w operations).after collecting turns) ∧
      Sweeping site w i held ((Crowd.of site w operations).after collecting turns) := by
  induction turns using List.reverseRecOn with
  | nil =>
    refine ⟨_, Orderly.start placed operations, _, ?_, .inl rfl⟩
    show (operations.map (·.program site))[i]? = _
    rw [List.getElem?_map, sweeps]
    rfl
  | append_singleton turns j ih =>
    rw [Crowd.after_snoc] at fresh ⊢
    obtain ⟨held, orderly, sweeping⟩ := ih fresh.before_turn
    exact orderly.turn sweeping j fresh

end Orderly

/-- **A sweep removes no row whose content is there, whatever else is under way.** Let operations take turns in any order,
one call or one event at a time, sweeps among them, and let the ids that are given to uploads be fresh. Where rows have a
place at the start, each row that is removed at a turn of a sweep has no content at that moment: so an upload whose content
is there keeps its row. -/
theorem sweep_beside_others (site : Site) (w : World) (placed : Placed site.location w) (operations : List Operation)
    (i : Nat) (sweeps : operations[i]? = some .sweep) (turns : List Nat) (c : Crowd service (World × List String))
    (reached : c = (Crowd.of site w operations).after collecting turns) (fresh : Fresh site.location w c.state.2) :
    ∀ e ∈ c.state.1.files.rows, e ∉ (c.turn collecting i).state.1.files.rows →
      ¬c.state.1.HasContent site.location e := by
  obtain ⟨held, -, p, at_i, stage⟩ := Orderly.after placed sweeps turns (reached ▸ fresh)
  rw [← reached] at at_i stage
  intro e he gone
  have turned := c.turned collecting i
  revert gone turned
  generalize c.turn collecting i = d
  intro gone turned
  cases turned with
  | rests => exact absurd he gone
  | notes event next own => exact absurd he gone
  | calls call next own =>
    obtain rfl : p = .call call next := Option.some.inj (at_i.symm.trans own)
    rcases stage with first | ⟨v, under⟩
    · rw [Operation.sweep_program] at first
      cases first
      have same : SameStores c.state.1 (serve (.selectFiles .all) c.state.1).2 :=
        serve_reads (c := .selectFiles .all) (by exact trivial) c.state.1
      exact absurd (same.files.symm ▸ he) gone
    · exact under.follows.1 c.state.1 (.of_same (.refl _)) e he gone

/-- a row without a content, and an id for one upload -/
def strayRow : World :=
  { World.fresh with
    files := ⟨[⟨"old", "s", none, "a.txt", 3, "", "sha1", World.start⟩], List.nodup_singleton _⟩, ids := ["new"] }

/-- a sweep that is given the rows when an upload has put its content, and lists the contents when the upload has added
its row -/
def sweepAndUpload : Crowd service (World × List String) :=
  (Crowd.of (.standard .top) strayRow [.sweep, (Step.upload "s" "new").operation]).after collecting
    (List.replicate 11 1 ++ [0, 1, 0, 0])

theorem sweep_beside_others_strayRow :
    Placed .top strayRow ∧ Fresh .top strayRow sweepAndUpload.state.2 ∧
    (sweepAndUpload.state.1.files.rows.map (·.id) = ["old", "new"] ∧
      (sweepAndUpload.turn collecting 0).state.1.files.rows.map (·.id) = ["new"]) ∧
    ∃ e ∈ sweepAndUpload.state.1.files.rows, e ∉ (sweepAndUpload.turn collecting 0).state.1.files.rows ∧
      ¬sweepAndUpload.state.1.HasContent .top e := by
  have key : Location.top.key "s" "old" = .ok "s/old" := by decide +kernel
  have placed : Placed .top strayRow := by
    refine ⟨by decide +kernel, fun e he => ⟨"s/old", ?_⟩⟩
    obtain rfl := List.mem_singleton.1 he
    exact key
  have fresh : Fresh .top strayRow sweepAndUpload.state.2 :=
    ⟨by decide +kernel, by decide +kernel, by decide +kernel⟩
  have removed : ∃ e ∈ sweepAndUpload.state.1.files.rows,
      e ∉ (sweepAndUpload.turn collecting 0).state.1.files.rows := by
    decide +kernel
  obtain ⟨e, he, gone⟩ := removed
  refine ⟨placed, fresh, ⟨by decide +kernel, by decide +kernel⟩, e, he, gone, ?_⟩
  exact sweep_beside_others (.standard .top) strayRow placed _ 0 rfl _ sweepAndUpload rfl fresh e he gone

end Depot
