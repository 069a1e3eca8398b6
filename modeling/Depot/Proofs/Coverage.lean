/-
Listings that are gone through to their end, and runs that break off on the way.

A run over a listing breaks off at the first failure. Where it does not, every key of the listing came up although keys
are erased on the way: a page starts after the last key of the one before, so a key comes up, or its object was erased
before (`overKeys_over`, `overSpaces_over`). Nothing is asked of the surroundings for this, and notes may be kept beside
them (`World.Carries`). So a bulk deletion that ends well met nothing that stands in its way (`deleteMatching_passable`),
and what a sweep takes for missing is not below any of the spaces that it looked into (`withoutContent_ends`).
-/
import Mathlib.Tactic
import Depot.Proofs.Calls
import Depot.Proofs.Deletion

namespace Depot

open World

variable {w t u : World} {events : List Event} {site : Site} {l : Key.Location} {selection : Selection} {σ τ : Type}
  {k : String} {o : Object} {b : Bucket}

/-! ## Surroundings with notes -/

/-- a state that the calls are answered from holds the surroundings, and perhaps more: the answers are theirs -/
structure World.Carries (view : τ → World) (answer : (c : Call) → τ → c.Reply × τ) : Prop where
  reply : ∀ c t, (answer c t).1 = (serve c (view t)).1
  state : ∀ c t, view (answer c t).2 = (serve c (view t)).2

theorem World.carries_self : Carries (fun w => w) serve :=
  ⟨fun _ _ => rfl, fun _ _ => rfl⟩

theorem World.carries_watch (kind : (c : Call) → c.Reply → Prop) :
    Carries Prod.fst (Prog.watch (I := service) serve kind) :=
  ⟨fun _ _ => rfl, fun _ _ => rfl⟩

/-! ## Objects that are erased on the way -/

/-- the bucket lost some objects, or none -/
def World.Erased (t u : World) : Prop :=
  ∃ b gone, t.bucket = some b ∧ u.bucket = some (b.erase gone)

namespace World.Erased

theorem of_same (hb : t.bucket = some b) (same : u.bucket = t.bucket) : Erased t u :=
  ⟨b, [], hb, by rw [same, hb, b.erase_nil]⟩

theorem trans (h : Erased w t) (h' : Erased t u) : Erased w u := by
  obtain ⟨b, gone, hb, ht⟩ := h
  obtain ⟨b', gone', hb', hu⟩ := h'
  cases ht.symm.trans hb'
  exact ⟨b, gone ++ gone', hb, by rw [hu, b.erase_erase]⟩

theorem objects (h : Erased t u) (ho : u.object? k = some o) : t.object? k = some o := by
  obtain ⟨b, gone, hb, hu⟩ := h
  rw [object?_erase hb hu] at ho
  split at ho
  · cases ho
  · exact ho

end World.Erased

namespace Content

/-! ## Listings -/

theorem mem_listed_iff {start : String} (hb : t.bucket = some b) :
    k ∈ b.listed start none ↔ (∃ o, t.object? k = some o) ∧ Bucket.startsWith start k = true := by
  rw [Bucket.mem_listed, Bucket.mem_keys_iff]
  simp [object?, hb]

/-- what is asked of a run over a bucket that only loses objects: it goes on with a value, or it breaks off -/
def Over (view : τ → World) (J : σ → τ → Prop) (F : τ → Prop) (t : τ) : Prog.Goal τ σ
  | .ok s, u, _ => Erased (view t) (view u) ∧ J s u
  | .error _, u, _ => F u

/-- a page is given and nothing else happens that matters, or the listing breaks off -/
def Lists (reply : (c : Call) → τ → c.Reply × τ) (view : τ → World) (J F : τ → Prop) (t : τ) (b : Bucket)
    (start : String) (after : Option String) : Prop :=
  (∃ u, reply (.listObjects start after) t = (.ok (b.page start after), u) ∧ (view u).bucket = (view t).bucket ∧ J u) ∨
    (∃ f, (reply (.listObjects start after) t).1 = .error f) ∧ F (reply (.listObjects start after) t).2

variable {reply : (c : Call) → τ → c.Reply × τ} {view : τ → World} {J : List String → σ → τ → Prop} {F : τ → Prop}
  {step : σ → String → Op σ}

/-- **Going through all keys.** `J` holds of the keys still to come; those whose objects are gone may be left out. -/
theorem overKeys_over {start : String} {t : τ}
    (thin : ∀ rest s t, J rest s t → J (rest.filter fun k => ((view t).object? k).isSome) s t)
    (lists : ∀ rest s t b after, (view t).bucket = some b → J rest s t →
      Lists reply view (J rest s) F t b start after)
    (body : ∀ key rest s t events b, (view t).bucket = some b → J (key :: rest) s t →
      (step s key).Ends reply (Over view (J rest) F t) t events)
    (pages : Nat) (after : Option String) (s : σ) (hb : (view t).bucket = some b)
    (enough : (b.listed start after).length < pages ∨ ∀ rest s t, J rest s t → F t)
    (h : J (b.listed start after) s t) :
    (overKeys start step pages after s).Ends reply (Over view (J []) F t) t events := by
  -- the induction is on the pages that are left; `b` is the bucket as it is when the next page is asked for
  induction pages generalizing after s t b events with
  | zero => exact enough.resolve_left (Nat.not_lt_zero _) _ s t h
  | succ pages ih =>
    rw [overKeys, Op.ends_ask_bind]
    rcases lists _ s t b after hb h with ⟨u, given, hu, h⟩ | ⟨⟨f, given⟩, broken⟩
    case inr =>
      rw [given]
      exact broken
    rw [given, Prog.ofReply_ok_bind]
    have fold : ((b.page start after).keys.foldlM step s).Ends reply
        (Over view (J ((b.listed start after).drop Bucket.pageSize)) F t) u events := by
      refine Prog.Ends.foldlM
        (fun keys s v _ => Erased (view t) (view v) ∧ J (keys ++ (b.listed start after).drop Bucket.pageSize) s v)
        (fun key keys s v more hv => ?_) (fun s v more hv => hv) _ s u events
        ⟨.of_same hb hu, by rwa [Bucket.page, List.take_append_drop]⟩
      obtain ⟨erased, hs⟩ := hv
      obtain ⟨b', gone, -, hv⟩ := id erased
      refine (body key _ s v more _ hv hs).mono fun r x more hx => ?_
      cases r with
      | ok s => exact ⟨erased.trans hx.1, hx.2⟩
      | error e => exact hx
    refine fold.bind (fun s v more hv => ?_) (fun e v more hv => hv)
    obtain ⟨erased, hs⟩ := hv
    split
    case isTrue full =>
      obtain ⟨last, hlast, next⟩ := Bucket.next_listing full
      obtain ⟨b', gone, hb', hv⟩ := id erased
      cases hb'.symm.trans hb
      obtain ⟨later, less⟩ := next gone
      have fewer : (b.listed start after).length < pages + 1 →
          ((b.erase gone).listed start (some last)).length < pages := by omega
      have objects : ∀ k, (b.erase gone).get? k = (view v).object? k := by
        intro k
        rw [object?, hv, Option.bind_some]
      simp only [objects] at later
      rw [hlast]
      refine (ih (some last) s hv (enough.imp_left fewer) (later ▸ thin _ s v hs)).mono fun r x more hx => ?_
      cases r with
      | ok s => exact ⟨erased.trans hx.1, hx.2⟩
      | error e => exact hx
    case isFalse last =>
      have short : (b.listed start after).drop Bucket.pageSize = [] := by
        simpa [Bucket.page, List.drop_eq_nil_iff] using last
      exact ⟨erased, short ▸ hs⟩

/-- **Going through all keys of some spaces.** `J` holds of the spaces gone through and of the keys still to come. -/
theorem overSpaces_over {J : List (Option String) → List String → σ → τ → Prop} {spaces : List (Option String)} {w : τ}
    (thin : ∀ done rest s t, J done rest s t → J done (rest.filter fun k => ((view t).object? k).isSome) s t)
    (lists : ∀ done rest s t b start after, (view t).bucket = some b → J done rest s t →
      Lists reply view (J done rest s) F t b start after)
    (body : ∀ done space key rest s t events b, (view t).bucket = some b → J (done ++ [space]) (key :: rest) s t →
      (step s key).Ends reply (Over view (J (done ++ [space]) rest) F t) t events)
    (opens : ∀ done space later start s t b, spaces = done ++ space :: later → site.location.start space = .ok start →
      Erased (view w) (view t) → (view t).bucket = some b → J done [] s t →
      J (done ++ [space]) (b.listed start none) s t)
    (smooth : ((∀ space ∈ spaces, ∃ start, site.location.start space = .ok start) ∧ b.objects.length < site.pageLimit) ∨
      ∀ done rest s t, J done rest s t → F t)
    (hb : (view w).bucket = some b) (s : σ) (h : J [] [] s w) :
    (overSpaces site step s spaces).Ends reply (Over view (J spaces []) F w) w events := by
  rw [overSpaces]
  refine Prog.Ends.foldlM
    (fun later s t _ => ∃ done, spaces = done ++ later ∧ Erased (view w) (view t) ∧ J done [] s t)
    (fun space later s t more ht => ?_) (fun s t more ht => ?_) spaces s w events ⟨[], rfl, .of_same hb rfl, h⟩
  · obtain ⟨done, all, erased, hs⟩ := ht
    rw [overSpace]
    cases hstart : site.location.start space with
    | error e =>
      refine smooth.resolve_left ?_ done [] s t hs
      rintro ⟨starts, -⟩
      obtain ⟨start, opened⟩ := starts space (by simp [all])
      cases hstart.symm.trans opened
    | ok start =>
      obtain ⟨b', gone, hb', ht⟩ := id erased
      cases hb'.symm.trans hb
      have enough : b.objects.length < site.pageLimit →
          ((b.erase gone).listed start none).length < site.pageLimit :=
        Nat.lt_of_le_of_lt ((Bucket.length_listed_le _ _ _).trans (Bucket.length_erase_le b gone))
      rw [Prog.ofExcept_ok_bind]
      refine (overKeys_over (F := F) (thin (done ++ [space])) (fun rest s t b after => lists _ rest s t b start after)
        (body done space) _ none s ht (smooth.imp (fun h => enough h.2) fun h => h _)
        (opens done space later start s t _ all hstart erased ht hs)).mono fun r v more hv => ?_
      cases r with
      | ok s => exact ⟨done ++ [space], by simp [all], erased.trans hv.1, hv.2⟩
      | error e => exact hv
  · obtain ⟨done, all, erased, hs⟩ := ht
    rw [List.append_nil] at all
    exact ⟨erased, all ▸ hs⟩

theorem overSpace_noBucket {t : τ} (carries : Carries view reply) (absent : (view t).bucket = none) (s : σ)
    (space : Option String) : (overSpace site step s space).Ends reply (fun r _ _ => ∃ e, r = .error e) t events := by
  rw [overSpace]
  cases site.location.start space with
  | error e => exact ⟨e, rfl⟩
  | ok start =>
    rw [Prog.ofExcept_ok_bind]
    cases site.pageLimit with
    | zero => exact ⟨_, rfl⟩
    | succ pages =>
      rw [overKeys, Op.ends_ask_bind, carries.reply]
      rcases serve_list (view t) start .none with ⟨f, given⟩ | ⟨b, hb, -⟩
      · rw [given]
        exact ⟨_, rfl⟩
      · cases absent.symm.trans hb

/-- **Where a run over some spaces ends well, it went through all their keys**, whatever was around it. -/
theorem overSpaces_covers {J : List (Option String) → List String → σ → τ → Prop} {spaces : List (Option String)} {w : τ}
    (carries : Carries view reply)
    (reads : ∀ done rest s t start after, J done rest s t → J done rest s (reply (.listObjects start after) t).2)
    (thin : ∀ done rest s t, J done rest s t → J done (rest.filter fun k => ((view t).object? k).isSome) s t)
    (body : ∀ done space key rest s t events b, (view t).bucket = some b → J (done ++ [space]) (key :: rest) s t →
      (step s key).Ends reply (Over view (J (done ++ [space]) rest) (fun _ => True) t) t events)
    (opens : ∀ done space later start s t b, spaces = done ++ space :: later → site.location.start space = .ok start →
      Erased (view w) (view t) → (view t).bucket = some b → J done [] s t →
      J (done ++ [space]) (b.listed start none) s t)
    (s : σ) (h : J [] [] s w) :
    (overSpaces site step s spaces).Ends reply (fun r t _ => ∀ s, r = .ok s → J spaces [] s t ∧
      (spaces ≠ [] → (view w).bucket.isSome) ∧ ∀ space ∈ spaces, ∃ start, site.location.start space = .ok start) w
      events := by
  cases hb : (view w).bucket with
  | none =>
    cases spaces with
    | nil =>
      rw [overSpaces, List.foldlM_nil, Prog.ends_pure]
      rintro _ ⟨⟩
      exact ⟨h, by simp, by simp⟩
    | cons space spaces =>
      rw [overSpaces, List.foldlM_cons]
      refine (overSpace_noBucket carries hb s space).bind (fun s t more ht => ?_) (fun e t more ht => by simp)
      obtain ⟨e, failed⟩ := ht
      cases failed
  | some b =>
    let accepted (done : List (Option String)) : Prop := ∀ space ∈ done, ∃ start, site.location.start space = .ok start
    refine (overSpaces_over (J := fun done rest s t => J done rest s t ∧ accepted done) (F := fun _ => True)
      ?thin ?lists ?body ?opens (.inr fun _ _ _ _ _ => trivial) hb s ⟨h, by simp [accepted]⟩).mono fun r t more ht => ?_
    case thin => exact fun done rest s t h => ⟨thin done rest s t h.1, h.2⟩
    case lists =>
      intro done rest s t b start after ht h
      have bucket : (view (reply (.listObjects start after) t).2).bucket = (view t).bucket := by
        rw [carries.state]
        exact serve_keepsBucket (c := .listObjects start after) (by exact trivial) _
      have given := carries.reply (.listObjects start after) t
      rcases serve_list (view t) start after with ⟨f, failed⟩ | ⟨b', hb', listed⟩
      · exact .inr ⟨⟨f, given.trans failed⟩, trivial⟩
      · cases hb'.symm.trans ht
        exact .inl ⟨_, Prod.ext (given.trans listed) rfl, bucket, reads done rest s t start after h.1, h.2⟩
    case body =>
      intro done space key rest s t more b hb h
      refine (body done space key rest s t more b hb h.1).mono fun r u more hu => ?_
      cases r with
      | ok s => exact ⟨hu.1, hu.2, h.2⟩
      | error e => trivial
    case opens =>
      intro done space later start s t b all hstart erased hb h
      refine ⟨opens done space later start s t b all hstart erased hb h.1, fun x hx => ?_⟩
      rcases List.mem_append.1 hx with hx | hx
      · exact h.2 x hx
      · exact ⟨start, List.mem_singleton.1 hx ▸ hstart⟩
    · rintro s rfl
      exact ⟨ht.2.1, fun _ => rfl, ht.2.2⟩

/-! ## Objects that come up -/

/-- an object among those to be looked at is gone, or its key is still to come, or `P` holds of it -/
def Pending (t : World) (k : String) (among : Prop) (rest : List String) (P : Prop) : Prop :=
  among → t.object? k = none ∨ k ∈ rest ∨ P

namespace Pending

variable {among P P' : Prop} {rest : List String}

theorem then_same (h : Pending t k among rest P) (same : SameStores t u) : Pending u k among rest P :=
  fun hk => same.object? k ▸ h hk

theorem thin (h : Pending t k among rest P) : Pending t k among (rest.filter fun k => (t.object? k).isSome) P := by
  intro hk
  rcases h hk with gone | coming | settled
  · exact .inl gone
  · cases there : t.object? k with
    | none => exact .inl rfl
    | some _ => exact .inr (.inl (by simp [coming, there]))
  · exact .inr (.inr settled)

theorem look {key : String} (h : Pending t k among (key :: rest) P) (own : k = key → t.object? k = none ∨ P')
    (keeps : P → P') : Pending t k among rest P' := by
  intro hk
  rcases h hk with gone | coming | settled
  · exact .inl gone
  · rcases List.mem_cons.1 coming with same | coming
    · exact (own same).imp_right .inr
    · exact .inr (.inl coming)
  · exact .inr (.inr (keeps settled))

theorem opens {done : List (Option String)} {space : Option String} {start : String}
    (h : Pending t k (Among l done k) [] P) (hb : t.bucket = some b) (hstart : l.start space = .ok start) :
    Pending t k (Among l (done ++ [space]) k) (b.listed start none) P := by
  rintro ⟨space', hspace, start', hstart', starts⟩
  rcases List.mem_append.1 hspace with hspace | hspace
  · rcases h ⟨space', hspace, start', hstart', starts⟩ with gone | coming | settled
    · exact .inl gone
    · cases coming
    · exact .inr (.inr settled)
  · rw [List.mem_singleton.1 hspace, hstart, Except.ok.injEq] at hstart'
    cases there : t.object? k with
    | none => exact .inl rfl
    | some o => exact .inr (.inl ((mem_listed_iff hb).2 ⟨⟨o, there⟩, hstart' ▸ starts⟩))

end Pending

end Content

/-! ## What stands in the way of a bulk deletion -/

/-- nothing stands in the way of a bulk deletion: there is a bucket to look into, the spaces are accepted, and each
object that is looked at can be asked for and told apart -/
structure Selection.Passable (l : Key.Location) (selection : Selection) (w : World) : Prop where
  bucket : Content.searched selection ≠ [] → w.bucket.isSome
  starts : ∀ space ∈ Content.searched selection, ∃ start, l.start space = .ok start
  objects : ∀ k o, w.object? k = some o → selection.Reaches l k → k ≠ "" ∧ selection.CanTell o

namespace Content

/-- the objects looked at so far could be told apart; one at an empty key waits, and can never be removed -/
structure Passed (selection : Selection) (w : World) (among : String → Prop) (rest : List String) (tally : Tally)
    (t : World) : Prop where
  objects : ∀ k o, t.object? k = some o → w.object? k = some o
  waiting : ∀ k ∈ tally.waiting, ∀ o, w.object? k = some o → selection.CanTell o
  gone : ∀ k o, w.object? k = some o → t.object? k = none → k ≠ "" ∧ selection.CanTell o
  passed : ∀ k o, w.object? k = some o →
    Pending t k (among k) rest (selection.CanTell o ∧ (k = "" → k ∈ tally.waiting))

namespace Passed

variable {among : String → Prop} {rest : List String} {tally : Tally} {key : String}

theorem then_same (h : Passed selection w among rest tally t) (same : SameStores t u) :
    Passed selection w among rest tally u where
  objects k o ho := h.objects k o (same.object? k ▸ ho)
  waiting := h.waiting
  gone k o ho lost := h.gone k o ho (same.object? k ▸ lost)
  passed k o ho := (h.passed k o ho).then_same same

theorem thin (h : Passed selection w among rest tally t) :
    Passed selection w among (rest.filter fun k => (t.object? k).isSome) tally t where
  objects := h.objects
  waiting := h.waiting
  gone := h.gone
  passed k o ho := (h.passed k o ho).thin

theorem look (h : Passed selection w among (key :: rest) tally t) {waiting : List String}
    (sub : ∀ k ∈ tally.waiting, k ∈ waiting) (only : ∀ k ∈ waiting, k ∈ tally.waiting ∨ k = key)
    (told : ∀ o, t.object? key = some o → selection.CanTell o) (named : key = "" → key ∈ waiting) :
    Passed selection w among rest { tally with waiting := waiting } t where
  objects := h.objects
  waiting k hk o ho := by
    rcases only k hk with hk | rfl
    · exact h.waiting k hk o ho
    · cases there : t.object? k with
      | none => exact (h.gone k o ho there).2
      | some o' =>
        cases (h.objects k o' there).symm.trans ho
        exact told o there
  gone := h.gone
  passed k o ho := by
    refine (h.passed k o ho).look ?_ fun ⟨fine, empty⟩ => ⟨fine, fun nothing => sub k (empty nothing)⟩
    rintro rfl
    cases there : t.object? k with
    | none => exact .inl rfl
    | some o' =>
      cases (h.objects k o' there).symm.trans ho
      exact .inr ⟨told o there, named⟩

theorem flush_ends (h : Passed selection w among rest tally t) :
    tally.flush.Ends serve (Over (fun w => w) (fun tally u => Passed selection w among rest tally u ∧ tally.waiting = [])
      (fun _ => True) t) t events := by
  rw [Tally.flush, Op.ends_ask_bind]
  by_cases empty : "" ∈ tally.waiting
  · rw [show (serve (.deleteObjects tally.waiting) t).1 = _ from congrArg Prod.fst (request_emptyKey empty t _ _)]
    trivial
  rcases serve_deleteObjects t tally.waiting with ⟨f, reply, -⟩ | ⟨refused, reply, -, b', hb', hu, -⟩
  · rw [reply]
    trivial
  rw [reply, Prog.ofReply_ok_bind]
  refine (Prog.ends_records _ refused _ _).bind (fun _ u more same => ?_) (fun e u more same => trivial)
  obtain ⟨-, rfl⟩ := same
  refine ⟨⟨b', _, hb', hu⟩, ⟨fun k o ho => ?_, by simp, fun k o ho gone => ?_, fun k o ho hk => ?_⟩, rfl⟩
  · exact h.objects k o (Erased.objects ⟨b', _, hb', hu⟩ ho)
  · rw [object?_erase hb' hu] at gone
    split at gone
    case isTrue sent =>
      have hk := List.mem_of_mem_filter sent
      exact ⟨fun same => empty (same ▸ hk), h.waiting k hk o ho⟩
    case isFalse => exact h.gone k o ho gone
  · rcases h.passed k o ho hk with gone | hrest | ⟨fine, hk⟩
    · refine .inl ?_
      rw [object?_erase hb' hu, gone, ite_self]
    · exact .inr (.inl hrest)
    · exact .inr (.inr ⟨fine, fun same => absurd (same ▸ hk same) empty⟩)

theorem consider_ends (h : Passed selection w among (key :: rest) tally t) (hb : t.bucket = some b) :
    (consider site selection tally key).Ends serve
      (Over (fun w => w) (Passed selection w among rest) (fun _ => True) t) t events := by
  rw [consider]
  refine (selects_ends selection key).bind (fun chosen u more hu => ?_) (fun e u more hu => trivial)
  obtain ⟨same, answers⟩ := hu
  obtain ⟨named, answers⟩ := answers chosen rfl
  have told : ∀ o, t.object? key = some o → selection.CanTell o := fun o ho => (answers o ho).1
  cases chosen with
  | false =>
    have looked := h.look (fun _ => id) (fun _ => .inl) told fun empty => by cases named empty
    exact ⟨.of_same hb same.bucket, looked.then_same same⟩
  | true =>
    have waits : Passed selection w among rest { tally with waiting := tally.waiting ++ [key] } u :=
      (h.look (by simp +contextual) (by simp) told (by simp)).then_same same
    show (tally.add site key).Ends _ _ _ _
    rw [Tally.add]
    split
    · refine waits.flush_ends.mono fun r v more hv => ?_
      cases r with
      | ok tally => exact ⟨(Erased.of_same hb same.bucket).trans hv.1, hv.2.1⟩
      | error e => trivial
    · exact ⟨.of_same hb same.bucket, waits⟩

theorem opens {done : List (Option String)} {space : Option String} {start : String}
    (h : Passed selection w (Among l done) [] tally t) (hb : t.bucket = some b)
    (hstart : l.start space = .ok start) :
    Passed selection w (Among l (done ++ [space])) (b.listed start none) tally t where
  objects := h.objects
  waiting := h.waiting
  gone := h.gone
  passed k o ho := (h.passed k o ho).opens hb hstart

theorem finish_ends (h : Passed selection w among [] tally t) : tally.finish.Ends serve (fun r _ _ =>
    ∀ tally, r = .ok tally → ∀ k o, w.object? k = some o → among k → k ≠ "" ∧ selection.CanTell o) t events := by
  have done : ∀ tally u, Passed selection w among [] tally u → tally.waiting = [] →
      ∀ k o, w.object? k = some o → among k → k ≠ "" ∧ selection.CanTell o := by
    intro tally u h nothing k o ho hk
    rcases h.passed k o ho hk with gone | hrest | ⟨fine, waits⟩
    · exact h.gone k o ho gone
    · cases hrest
    · exact ⟨fun empty => by simpa [nothing] using waits empty, fine⟩
  rw [Tally.finish]
  split
  case isTrue nothing => exact fun _ _ => done tally t h nothing
  case isFalse =>
    refine h.flush_ends.mono fun r u more hu => ?_
    rintro tally rfl
    exact done tally u hu.2.1 hu.2.2

end Passed

/-- **A bulk deletion ends well only if nothing stands in its way.** -/
theorem deleteMatching_passable (selection : Selection) : (deleteMatching site selection).Ends serve (fun r _ _ =>
    ∀ n, r = .ok n → selection.Passable site.location w) w events := by
  have loop : (overSpaces site (consider site selection) .zero (searched selection)).Ends serve (fun r t _ =>
      ∀ tally, r = .ok tally → Passed selection w (Among site.location (searched selection)) [] tally t ∧
        (searched selection ≠ [] → w.bucket.isSome) ∧
          ∀ space ∈ searched selection, ∃ start, site.location.start space = .ok start) w events := by
    refine overSpaces_covers (J := fun done rest tally t => Passed selection w (Among site.location done) rest tally t)
      carries_self
      (fun _ _ _ t start after h => h.then_same (serve_reads (c := .listObjects start after) (by exact trivial) t)) (fun _ _ _ _ h => h.thin)
      (fun _ _ _ _ _ _ _ _ hb h => h.consider_ends hb)
      (fun _ _ _ _ _ _ _ _ hstart _ hb h => h.opens hb hstart) _ ?_
    refine ⟨fun _ _ => id, by simp [Tally.zero], fun k o ho gone => ?_, fun k o ho among => ?_⟩
    · cases ho.symm.trans gone
    · obtain ⟨space, absent, -⟩ := among
      cases absent
  rw [deleteMatching]
  refine Prog.Ends.bind (R := fun r _ _ => ∀ tally, r = .ok tally → selection.Passable site.location w) ?_
    (fun tally t more h _ _ => h tally rfl) (fun e t more h => by simp)
  refine Op.ends_account (R := fun r _ _ => ∀ tally, r = .ok tally → selection.Passable site.location w) ?_
    (fun _ _ _ h => h) (fun _ _ _ _ _ _ _ => by simp)
  refine loop.bind (fun tally t more h => ?_) (fun e t more h => by simp)
  obtain ⟨passed, bucket, starts⟩ := h tally rfl
  exact passed.finish_ends.mono fun r u more done tally' eq => ⟨bucket, starts, done tally' eq⟩

end Content

/-- objects that are gone do not stand in the way -/
theorem Selection.Passable.left (h : selection.Passable l w) (bucket : t.bucket.isSome = w.bucket.isSome)
    (objects : ∀ k o, t.object? k = some o → w.object? k = some o) : selection.Passable l t :=
  ⟨fun searches => bucket ▸ h.bucket searches, h.starts, fun k o ho => h.objects k o (objects k o ho)⟩

namespace Content

/-! ## Missing contents -/

/-- **All keys of some spaces are found, and no others.** -/
theorem keysOf_ends (spaces : List String) : (keysOf site spaces).Ends serve (fun r t _ => SameStores w t ∧
    ∀ keys, r = .ok keys → ∀ k, k ∈ keys ↔ (∃ o, w.object? k = some o) ∧ Among site.location (spaces.map some) k)
    w events := by
  let J (done : List (Option String)) (rest keys : List String) (t : World) : Prop :=
    SameStores w t ∧ ∀ k, k ∈ keys ∨ k ∈ rest ↔ (∃ o, w.object? k = some o) ∧ Among site.location done k
  have reads : (keysOf site spaces).Only Call.Reads :=
    only_overSpaces (fun _ _ => trivial) (fun _ _ => Prog.only_pure _) _ _
  refine (reads.keeps (J := SameStores w) (fun c t hc ht => ht.trans (serve_reads hc t)) (.refl w)).and
    ((overSpaces_covers (J := J) carries_self ?reads ?thin ?body ?opens _ ?zero).mono fun r t more ht keys eq k => ?_)
  case reads => exact fun done rest keys t start after h => 
    ⟨h.1.trans (serve_reads (c := .listObjects start after) (by exact trivial) t), h.2⟩
  case thin =>
    intro done rest keys t h
    have all : (rest.filter fun k => (t.object? k).isSome) = rest := by
      refine List.filter_eq_self.2 fun k hk => ?_
      obtain ⟨⟨o, ho⟩, -⟩ := (h.2 k).1 (.inr hk)
      rw [h.1.object?, ho]
      rfl
    exact ⟨h.1, all.symm ▸ h.2⟩
  case body =>
    intro done space key rest keys t more b hb h
    refine ⟨.of_same hb rfl, h.1, fun k => ?_⟩
    rw [← h.2 k, List.mem_cons, List.mem_cons]
    tauto
  case opens =>
    rintro done space later start keys t b - hstart - hb h
    refine ⟨h.1, fun k => ?_⟩
    have before := h.2 k
    simp only [List.not_mem_nil, or_false] at before
    rw [before, mem_listed_iff hb, h.1.object?, ← and_or_left]
    refine and_congr_right fun _ => ?_
    simp only [Among, List.mem_append, List.mem_singleton]
    constructor
    · rintro (⟨space', hspace, rest⟩ | starts)
      · exact ⟨space', .inl hspace, rest⟩
      · exact ⟨space, .inr rfl, start, hstart, starts⟩
    · rintro ⟨space', hspace | rfl, start', hstart', starts⟩
      · exact .inl ⟨space', hspace, start', hstart', starts⟩
      · rw [hstart, Except.ok.injEq] at hstart'
        exact .inr (hstart' ▸ starts)
  case zero => exact ⟨.refl w, fun k => by simp [Among]⟩
  · have := (ht keys eq).1.2 k
    simpa using this

end Content

/-- a row has a content that is below one of the spaces of some rows -/
def World.Finds (w : World) (l : Key.Location) (rows : List Entry) (e : Entry) : Prop :=
  ∃ k o, l.key e.space e.id = .ok k ∧ w.object? k = some o ∧ Content.Among l (rows.map fun e => some e.space) k

namespace Content

theorem located_ends (entries : List Entry) (t : World) (events : List Event) :
    (entries.mapM fun e => do pure (e, ← Prog.ofExcept (site.location.key e.space e.id)) : Op _).Ends serve (fun r u _ =>
      u = t ∧ (∀ keyed, r = .ok keyed → keyed.map Prod.fst = entries ∧
        ∀ x ∈ keyed, site.location.key x.1.space x.1.id = .ok x.2) ∧
      ((∀ e ∈ entries, ∃ key, site.location.key e.space e.id = .ok key) → ∃ keyed, r = .ok keyed)) t events := by
  refine Prog.Ends.mapM (fun rest keyed u _ => u = t ∧ keyed.map Prod.fst ++ rest = entries ∧
    ∀ x ∈ keyed, site.location.key x.1.space x.1.id = .ok x.2) ?_ ?_ entries t events ⟨rfl, by simp, by simp⟩
  · intro e rest keyed u events ⟨still, all, keys⟩
    cases hkey : site.location.key e.space e.id with
    | error failure =>
      refine ⟨still, by simp, fun placed => ?_⟩
      obtain ⟨key, hkey'⟩ := placed e (all ▸ List.mem_append_right _ List.mem_cons_self)
      cases hkey.symm.trans hkey'
    | ok key =>
      refine ⟨still, by simpa using all, fun x hx => ?_⟩
      rcases List.mem_append.1 hx with hx | hx
      · exact keys x hx
      · exact List.mem_singleton.1 hx ▸ hkey
  · intro keyed u events ⟨still, all, keys⟩
    rw [List.append_nil] at all
    refine ⟨still, ?_, fun _ => ⟨keyed, rfl⟩⟩
    rintro _ ⟨⟩
    exact ⟨all, keys⟩

/-- a row is found just if its key is listed -/
theorem finds_iff_listed {entries : List Entry} {keys : List String} (found : ∀ k, k ∈ keys ↔
      (∃ o, w.object? k = some o) ∧ Among site.location (entries.map fun e => some e.space) k)
    {e : Entry} {key : String} (hkey : site.location.key e.space e.id = .ok key) :
    w.Finds site.location entries e ↔ key ∈ keys := by
  rw [found, World.Finds]
  constructor
  · intro ⟨k, o, hk, ho, among⟩
    cases hk.symm.trans hkey
    exact ⟨⟨o, ho⟩, among⟩
  · intro ⟨⟨o, ho⟩, among⟩
    exact ⟨key, o, hkey, ho, among⟩

/-- **What is taken for missing is what is not found.** -/
theorem withoutContent_ends (entries : List Entry) : (withoutContent site entries).Ends serve (fun r t _ =>
    SameStores w t ∧ ∀ missing, r = .ok missing → missing.Sublist entries ∧
      ∀ e ∈ entries, e ∈ missing ↔ ¬w.Finds site.location entries e) w events := by
  let found (keys : List String) : Prop := ∀ k, k ∈ keys ↔ (∃ o, w.object? k = some o) ∧
    Among site.location (entries.map fun e => some e.space) k
  have listed : (Op.account Fault.isBucketFault .contentsNotListed .listContents
      (keysOf site (entries.map (·.space)).eraseDups)).Ends serve
      (fun r t _ => SameStores w t ∧ ∀ keys, r = .ok keys → found keys) w events := by
    refine Op.ends_account (R := fun r t _ => SameStores w t ∧ ∀ keys, r = .ok keys → found keys) ?_ (fun _ _ _ h => h)
      (fun _ _ _ _ _ h _ => ⟨h.1, by simp⟩)
    refine (keysOf_ends _).mono fun r t more h => ⟨h.1, fun keys eq k => (h.2 keys eq k).trans ?_⟩
    simp only [Among, List.mem_map, List.mem_eraseDups, exists_exists_and_eq_and]
  unfold withoutContent
  apply listed.bind
  · intro keys t more ⟨same, found⟩
    have found := found keys rfl
    apply (located_ends entries t more).bind
    · intro keyed u more ⟨still, located, _⟩
      obtain ⟨all, keyed_ok⟩ := located keyed rfl
      refine ⟨still ▸ same, ?_⟩
      rintro missing ⟨⟩
      refine ⟨all ▸ List.filter_sublist.map _, fun e he => ?_⟩
      obtain ⟨x, hx, rfl⟩ := List.mem_map.1 (all ▸ he)
      rw [finds_iff_listed found (keyed_ok x hx), List.mem_map]
      constructor
      · intro ⟨y, hy, same⟩
        obtain ⟨hy, absent⟩ := List.mem_filter.1 hy
        have one : y.2 = x.2 := Except.ok.inj ((keyed_ok y hy).symm.trans (same ▸ keyed_ok x hx))
        rw [← one]
        simpa using absent
      · intro absent
        exact ⟨x, List.mem_filter.2 ⟨hx, by simpa using absent⟩, rfl⟩
    · intro e u more ⟨still, _⟩
      exact ⟨still ▸ same, by simp⟩
  · intro e t more ⟨same, _⟩
    exact ⟨same, by simp⟩

end Content

end Depot
