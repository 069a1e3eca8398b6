/-
Batches of a bulk deletion.

A bulk deletion goes through a listing page by page, asks for the texts of each object, and collects the keys that it
chooses; a batch is sent as soon as it is full. So pages are asked for after objects before them were deleted, and pages and
batches end at different keys. All the same the chosen keys are at any time those that were sent, in this order, and those
that wait (`Content.Sent`), and what was sent went in full batches (`Content.Batched`). What is deleted was chosen before the
next page, and a page starts after the one before, so each page holds just the next keys of the listing as it was at the
start (`Content.Batched.overKeys_fresh`).

A deletion by a namespace or by a time goes through one listing, so it sends each key that it selects once, and its count is
that of the objects that are gone, provided that the answers refuse no keys but those they were sent
(`filtered_deletion_exact`).
-/
import Mathlib.Algebra.Order.Floor.Div
import Depot.Proofs.Atomicity
import Depot.Proofs.Completion
import Depot.Proofs.Turns

namespace Depot

open World

variable {w t u : World} {events : List Event} {site : Site} {selection : Selection} {k key : String} {b : Bucket}

/-! ## Requests -/

/-- a request to delete many objects, and what its answer refuses -/
structure Request where
  keys : List String
  refused : List Refused
  deriving DecidableEq

namespace Request

variable {q : Request}

/-- the keys of which the answer says that they were not deleted -/
def kept (q : Request) : List String :=
  q.refused.filterMap (·.key)

/-- the other keys -/
def taken (q : Request) : List String :=
  q.keys.filter fun k => !q.kept.contains k

/-- how many keys were deleted, by the number of refusals -/
def counted (q : Request) : Int :=
  q.keys.length - q.refused.length

/-- every refusal names a key of the request, and no two the same -/
def Honest (q : Request) : Prop :=
  q.kept.length = q.refused.length ∧ q.kept.Nodup ∧ q.kept ⊆ q.keys

instance : Decidable q.Honest :=
  inferInstanceAs (Decidable (_ ∧ _ ∧ _))

theorem mem_taken : k ∈ q.taken ↔ k ∈ q.keys ∧ k ∉ q.kept := by
  simp [taken]

theorem Honest.counted (h : q.Honest) (once : q.keys.Nodup) : q.counted = q.taken.length := by
  obtain ⟨all, distinct, sub⟩ := h
  have refused : (q.keys.filter q.kept.contains).length = q.kept.length := by
    refine ((List.perm_ext_iff_of_nodup (once.filter _) distinct).2 fun k => ?_).length_eq
    simp only [List.mem_filter, List.contains_eq_mem, decide_eq_true_eq]
    exact ⟨And.right, fun hk => ⟨sub hk, hk⟩⟩
  have parts := List.length_eq_length_filter_add (l := q.keys) q.kept.contains
  rw [Request.counted, taken]
  omega

variable {full last requests : List Request} {size : Nat}

theorem length_keys_of_full (hfull : ∀ q ∈ full, q.keys.length = size) :
    (full.flatMap (·.keys)).length = full.length * size := by
  rw [List.length_flatMap, List.map_congr_left hfull, List.map_const', List.sum_replicate, smul_eq_mul]

/-- the requests are batches of a size, of which the last one need not be full -/
theorem length_batches (positive : 0 < size) (hfull : ∀ q ∈ full, q.keys.length = size)
    (hlast : last = [] ∨ ∃ q, last = [q] ∧ q.keys ≠ [] ∧ q.keys.length < size) :
    (full ++ last).length = ((full ++ last).flatMap (·.keys)).length ⌈/⌉ size ∧
      ∀ q ∈ (full ++ last).dropLast, q.keys.length = size := by
  have number := length_keys_of_full hfull
  rcases hlast with rfl | ⟨q, rfl, nonempty, short⟩
  · rw [List.append_nil, number, Nat.ceilDiv_eq_add_pred_div, Nat.mul_comm, Nat.add_sub_assoc positive,
      Nat.mul_add_div positive, Nat.div_eq_of_lt (by omega), Nat.add_zero]
    exact ⟨rfl, fun q hq => hfull q (List.mem_of_mem_dropLast hq)⟩
  · have rest : 0 < q.keys.length := List.length_pos_iff.2 nonempty
    have one : (q.keys.length + size - 1) / size = 1 := Nat.div_eq_of_lt_le (by omega) (by omega)
    rw [List.dropLast_concat, List.flatMap_append, List.length_append, List.length_append, number, List.flatMap_singleton,
      Nat.ceilDiv_eq_add_pred_div, Nat.add_assoc, Nat.mul_comm, Nat.add_sub_assoc (by omega), Nat.mul_add_div positive, one]
    exact ⟨rfl, hfull⟩

theorem taken_sublist (requests : List Request) : (requests.flatMap (·.taken)).Sublist (requests.flatMap (·.keys)) := by
  induction requests with
  | nil => exact List.Sublist.refl _
  | cons q requests ih =>
    rw [List.flatMap_cons, List.flatMap_cons]
    exact List.filter_sublist.append ih

/-- **What is counted is what is taken,** where every key is sent once and the answers are honest. -/
theorem counted_eq_taken (once : (requests.flatMap (·.keys)).Nodup) (honest : ∀ q ∈ requests, q.Honest) :
    (requests.map (·.counted)).sum = (requests.flatMap (·.taken)).length := by
  induction requests with
  | nil => rfl
  | cons q requests ih =>
    rw [List.flatMap_cons, List.nodup_append] at once
    obtain ⟨own, honest⟩ := List.forall_mem_cons.1 honest
    rw [List.map_cons, List.sum_cons, List.flatMap_cons, List.length_append, ih once.2.1 honest, own.counted once.1,
      Nat.cast_add]

/-- a key is taken just if it is sent and no answer refuses it -/
theorem mem_taken_iff (once : (requests.flatMap (·.keys)).Nodup) (honest : ∀ q ∈ requests, q.Honest) :
    k ∈ requests.flatMap (·.taken) ↔ k ∈ requests.flatMap (·.keys) ∧ ∀ q ∈ requests, k ∉ q.kept := by
  obtain ⟨-, apart⟩ := List.nodup_flatMap.1 once
  have : Std.Symm (Function.onFun List.Disjoint fun q : Request => q.keys) := ⟨fun _ _ h => h.symm⟩
  constructor
  · intro taken
    obtain ⟨q, hq, taken⟩ := List.mem_flatMap.1 taken
    obtain ⟨sent, free⟩ := mem_taken.1 taken
    refine ⟨List.mem_flatMap.2 ⟨q, hq, sent⟩, fun q' hq' refused => ?_⟩
    by_cases same : q = q'
    · exact free (same ▸ refused)
    · exact List.disjoint_left.1 (apart.forall hq hq' same) sent ((honest q' hq').2.2 refused)
  · rintro ⟨sent, free⟩
    obtain ⟨q, hq, sent⟩ := List.mem_flatMap.1 sent
    exact List.mem_flatMap.2 ⟨q, hq, mem_taken.2 ⟨sent, free q hq⟩⟩

end Request

def Call.requests : (c : Call) → c.Reply → List Request
  | .deleteObjects keys, .ok refused => [⟨keys, refused⟩]
  | .deleteObjects keys, .error _ => [⟨keys, []⟩]
  | _, _ => []

namespace Content

/-- the surroundings with the requests so far -/
abbrev logged : (c : Call) → World × List Request → c.Reply × (World × List Request) :=
  Prog.collect (I := service) serve Call.requests

/-! ## What was sent, and what waits -/

/-- the keys chosen so far were sent, in this order, or wait. The objects at the keys that were taken are gone, and as many
were counted as the answers allow. -/
structure Sent (w : World) (chosen : List String) (tally : Tally) (s : World × List Request) : Prop where
  unstruck : s.1.strikes = []
  named : "" ∉ chosen
  sent : s.2.flatMap (·.keys) ++ tally.waiting = chosen
  deleted : tally.deleted = (s.2.map (·.counted)).sum
  bucket : ∃ b, w.bucket = some b ∧ s.1.bucket = some (b.erase (s.2.flatMap (·.taken)))
  willing : w.refusals = [] → s.1.refusals = [] ∧ ∀ q ∈ s.2, q.refused = []

/-- what was sent went in full batches, and less than a batch waits -/
structure Batched (site : Site) (w : World) (chosen : List String) (tally : Tally) (s : World × List Request) : Prop
    extends Sent w chosen tally s where
  full : ∀ q ∈ s.2, q.keys.length = site.batchSize
  short : tally.waiting.length < site.batchSize

end Content

theorem World.unstruck_deleteObjects (unstruck : w.strikes = []) (hb : w.bucket = some b) {keys : List String}
    (hkeys : "" ∉ keys) : ∃ refused refusals, serve (.deleteObjects keys) w =
      (.ok refused, { w with bucket := some (b.erase (Request.mk keys refused).taken), refusals := refusals }) ∧
      (w.refusals = [] → refused = [] ∧ refusals = []) := by
  refine ⟨w.refuse.1, w.refuse.2.refusals, ?_, fun unrefused => ?_⟩
  · rw [serve, request_calm unstruck hkeys hb]
    rfl
  · rw [refuse_calm unrefused]
    exact ⟨rfl, unrefused⟩

namespace Content

variable {chosen keys : List String} {tally : Tally} {s : World × List Request}

namespace Sent

theorem flush_ends (h : Sent w chosen tally s) : tally.flush.Ends logged (Prog.Succeeds fun tally' u _ =>
    Sent w chosen tally' u ∧ tally'.waiting = [] ∧ ∃ refused, u.2 = s.2 ++ [⟨tally.waiting, refused⟩]) s events := by
  obtain ⟨t, requests⟩ := s
  obtain ⟨b, hb, ht⟩ := h.bucket
  have named : "" ∉ tally.waiting := fun empty => h.named (h.sent ▸ List.mem_append_right _ empty)
  obtain ⟨refused, refusals, answered, willing⟩ := unstruck_deleteObjects h.unstruck ht named
  rw [Tally.flush, Op.ends_ask_bind]
  dsimp only [logged, Prog.collect]
  rw [answered, Prog.ofReply_ok_bind]
  refine (Prog.ends_records _ refused _ _).bind (fun _ u more same => ?_) (fun e u more same => by cases same.1)
  obtain ⟨-, rfl⟩ := same
  refine ⟨_, rfl, ⟨h.unstruck, h.named, ?_, ?_, ⟨b, hb, ?_⟩, fun unrefused => ?_⟩, rfl, refused, rfl⟩
  · simpa [Call.requests] using h.sent
  · simp [Call.requests, Request.counted, h.deleted]
  · simp [Call.requests, Bucket.erase_erase]
  · obtain ⟨free, all⟩ := h.willing unrefused
    obtain ⟨rfl, rfl⟩ := willing free
    refine ⟨rfl, fun q hq => ?_⟩
    rcases List.mem_append.1 hq with hq | hq
    · exact all q hq
    · rw [List.mem_singleton.1 hq]

theorem taken_subset (h : Sent w chosen tally s) : s.2.flatMap (·.taken) ⊆ chosen := by
  intro k hk
  obtain ⟨q, hq, taken⟩ := List.mem_flatMap.1 hk
  rw [← h.sent]
  exact List.mem_append_left _ (List.mem_flatMap.2 ⟨q, hq, (Request.mem_taken.1 taken).1⟩)

theorem object? (h : Sent w chosen tally s) (k : String) :
    s.1.object? k = if k ∈ s.2.flatMap (·.taken) then none else w.object? k := by
  obtain ⟨b, hb, ht⟩ := h.bucket
  exact object?_erase hb ht k

theorem object?_of_notMem (h : Sent w chosen tally s) (hk : k ∉ chosen) : s.1.object? k = w.object? k := by
  rw [h.object?, if_neg fun taken => hk (h.taken_subset taken)]

/-- what is left after more requests is what they did not take -/
theorem bucket_of_prefix {chosen' : List String} {tally' : Tally} {u : World × List Request} {c : Bucket}
    (h : Sent w chosen tally s) (h' : Sent w chosen' tally' u) (longer : s.2 <+: u.2) (hc : s.1.bucket = some c) :
    ∃ gone, gone ⊆ chosen' ∧ u.1.bucket = some (c.erase gone) := by
  obtain ⟨b, hb, hs⟩ := h.bucket
  obtain ⟨b', hb', hu⟩ := h'.bucket
  obtain rfl : b = b' := Option.some.inj (hb.symm.trans hb')
  obtain rfl : c = b.erase (s.2.flatMap (·.taken)) := Option.some.inj (hc.symm.trans hs)
  obtain ⟨more, all⟩ := longer
  refine ⟨more.flatMap (·.taken), fun k hk => h'.taken_subset ?_, ?_⟩
  · rw [← all, List.flatMap_append]
    exact List.mem_append_right _ hk
  · rw [hu, ← all, List.flatMap_append, Bucket.erase_erase]

theorem get?_left (h : Sent w chosen tally s) {c : Bucket} (hc : s.1.bucket = some c) {o : Object} (ho : c.get? k = some o) :
    w.object? k = some o := by
  have left : s.1.object? k = some o := by rw [World.object?, hc, Option.bind_some, ho]
  rw [h.object?] at left
  split at left
  · cases left
  · exact left

theorem wait (h : Sent w chosen tally s) (hk : key ≠ "") :
    Sent w (chosen ++ [key]) { tally with waiting := tally.waiting ++ [key] } s where
  unstruck := h.unstruck
  named := by simp [h.named, hk.symm]
  sent := by rw [← List.append_assoc, h.sent]
  deleted := h.deleted
  bucket := h.bucket
  willing := h.willing

end Sent

end Content

/-! ## One key -/

instance (selection : Selection) (o : Object) : Decidable (selection.Wants o) :=
  match selection with
  | .inNamespace _ ns => inferInstanceAs (Decidable (Content.namespaceIn o.metadata = ns))
  | .inSpaces _ => inferInstanceAs (Decidable True)
  | .before cutoff =>
    decidable_of_iff ((Content.timeIn o.metadata).any fun time => time.isBefore? cutoff == some true) (by
      simp [Selection.Wants, Option.any_eq_true])

/-- whether the object at a key is as a selection wants it -/
def World.wanted (w : World) (selection : Selection) (k : String) : Bool :=
  (w.object? k).any fun o => decide (selection.Wants o)

/-- what is on a page does not come up after it -/
theorem Bucket.page_disjoint (b : Bucket) (start : String) (after : Option String) :
    List.Disjoint (b.page start after).keys ((b.listed start after).drop Bucket.pageSize) :=
  List.disjoint_take_drop (b.listed_nodup start after) (Nat.le_refl _)

namespace Content

namespace Batched

theorem add_ends (h : Batched site w chosen tally s) (hk : key ≠ "") : (tally.add site key).Ends logged
    (Prog.Succeeds fun tally' u _ => Batched site w (chosen ++ [key]) tally' u) s events := by
  have short := h.short
  rw [Tally.add]
  split
  case isTrue full =>
    refine (h.toSent.wait hk).flush_ends.mono fun r u more hu => ?_
    obtain ⟨tally', rfl, sent, emptied, refused, last⟩ := hu
    refine ⟨tally', rfl, sent, fun q hq => ?_, ?_⟩
    · rw [last, List.mem_append, List.mem_singleton] at hq
      rcases hq with hq | rfl
      · exact h.full q hq
      · exact full
    · rw [emptied, List.length_nil]
      omega
  case isFalse few =>
    refine ⟨_, rfl, h.toSent.wait hk, h.full, ?_⟩
    rw [List.length_append, List.length_singleton] at few ⊢
    omega

/-- it can be told of a key whether it is wanted, where its object is still there or need not be asked -/
theorem selects_ends (h : Batched site w chosen tally s) (hk : key ≠ "") {o : Object} (ho : w.object? key = some o)
    (tell : selection.CanTell o) (apart : selection.Asks → key ∉ chosen) : (selects selection key).Ends logged
      (Prog.Succeeds fun yes u _ => yes = w.wanted selection key ∧ u = s) s events := by
  have told : (selects selection key).Ends serve (Prog.Succeeds fun yes u _ => yes = w.wanted selection key ∧ u = s.1)
      s.1 events := by
    by_cases asks : selection.Asks
    case pos =>
      have there := (h.object?_of_notMem (apart asks)).trans ho
      refine (unstruck_selects h.unstruck hk fun _ => ⟨o, there, tell⟩).mono fun r u more hu => ?_
      obtain ⟨yes, rfl, rfl, wants⟩ := hu
      refine ⟨yes, rfl, ?_, rfl⟩
      rw [World.wanted, ho, Option.any_some, Bool.eq_iff_iff, decide_eq_true_iff, wants o there]
    case neg =>
      cases selection with
      | inSpaces spaces => exact ⟨true, rfl, by rw [World.wanted, ho]; rfl, rfl⟩
      | _ => exact absurd trivial asks
  obtain ⟨t, requests⟩ := s
  refine (told.collected (only_selects (fun _ _ => rfl) selection key)).mono fun r u more hu => ?_
  obtain ⟨⟨yes, rfl, same, rfl⟩, rfl⟩ := hu
  exact ⟨yes, rfl, same, rfl⟩

theorem consider_ends (h : Batched site w chosen tally s) (hk : key ≠ "") {o : Object} (ho : w.object? key = some o)
    (tell : selection.CanTell o) (apart : selection.Asks → key ∉ chosen) :
    (consider site selection tally key).Ends logged (Prog.Succeeds fun tally' u _ =>
      Batched site w (chosen ++ [key].filter (w.wanted selection)) tally' u) s events := by
  rw [consider]
  refine (h.selects_ends hk ho tell apart).bind_ok fun yes u more hu => ?_
  obtain ⟨rfl, rfl⟩ := hu
  cases wanted : w.wanted selection key with
  | true =>
    rw [List.filter_cons_of_pos wanted]
    exact h.add_ends hk
  | false =>
    rw [List.filter_cons_of_neg (by simp [wanted]), List.filter_nil, List.append_nil]
    exact ⟨tally, rfl, h⟩

/-- **All wanted keys of a page are chosen.** -/
theorem fold_ends (h : Batched site w chosen tally s) (keys : List String)
    (fine : ∀ k ∈ keys, k ≠ "" ∧ ∃ o, w.object? k = some o ∧ selection.CanTell o) (once : keys.Nodup)
    (apart : selection.Asks → ∀ k ∈ keys, k ∉ chosen) :
    (keys.foldlM (consider site selection) tally).Ends logged (Prog.Succeeds fun tally' u _ =>
      Batched site w (chosen ++ keys.filter (w.wanted selection)) tally' u) s events := by
  induction keys generalizing chosen tally s events with
  | nil => exact ⟨tally, rfl, by rwa [List.filter_nil, List.append_nil]⟩
  | cons key keys ih =>
    obtain ⟨new, once⟩ := List.nodup_cons.1 once
    obtain ⟨⟨hk, o, ho, tell⟩, fine⟩ := List.forall_mem_cons.1 fine
    rw [List.foldlM_cons]
    refine (h.consider_ends hk ho tell fun asks => apart asks key List.mem_cons_self).bind_ok fun tally' u more hu => ?_
    refine (ih hu fine once fun asks k hmem chosen' => ?_).mono fun r v more hv => ?_
    · rcases List.mem_append.1 chosen' with old | own
      · exact apart asks k (List.mem_cons_of_mem _ hmem) old
      · exact new (List.mem_singleton.1 (List.mem_of_mem_filter own) ▸ hmem)
    · obtain ⟨tally'', rfl, hv⟩ := hv
      refine ⟨tally'', rfl, ?_⟩
      rwa [List.append_assoc, ← List.filter_append, List.singleton_append] at hv

/-! ## Pages -/

/-- **One page of a listing,** and then what follows if there is more -/
theorem overKeys_page {Q : Prog.Goal (World × List Request) Tally} {start : String} {after : Option String} {pages : Nat}
    {c : Bucket} (h : Batched site w chosen tally s) (hc : s.1.bucket = some c)
    (fine : ∀ k o, w.object? k = some o → Bucket.startsWith start k = true → k ≠ "" ∧ selection.CanTell o)
    (apart : selection.Asks → ∀ k ∈ (c.page start after).keys, k ∉ chosen)
    (next : ∀ tally' u more, Batched site w (chosen ++ (c.page start after).keys.filter (w.wanted selection)) tally' u →
      (∃ gone, gone ⊆ chosen ++ (c.page start after).keys ∧ u.1.bucket = some (c.erase gone)) →
      (if (c.page start after).more then
          overKeys start (consider site selection) pages (c.page start after).keys.getLast? tally'
        else pure tally').Ends logged Q u more) :
    (overKeys start (consider site selection) (pages + 1) after tally).Ends logged Q s events := by
  obtain ⟨t, requests⟩ := s
  rw [overKeys, Op.ends_ask_bind]
  dsimp only [logged, Prog.collect]
  rw [unstruck_listObjects h.unstruck hc, Prog.ofReply_ok_bind]
  show Prog.Ends (I := service) logged _ _ (t, requests ++ []) _
  rw [List.append_nil]
  have listed : (c.page start after).keys ⊆ c.listed start after := List.take_subset _ _
  have once : (c.page start after).keys.Nodup := (c.listed_nodup start after).sublist (List.take_sublist _ _)
  refine Prog.Ends.bind_ok (R := fun tally' u _ => Batched site w (chosen ++ _) tally' u ∧ requests <+: u.2)
    (((h.fold_ends _ (fun k hk => ?_) once apart).and (Prog.ends_collect_prefix _ t requests _)).mono fun r u more hu => ?_)
    fun tally' u more hu => next tally' u more hu.1 ?_
  · obtain ⟨there, starts, -⟩ := Bucket.mem_listed.1 (listed hk)
    obtain ⟨o, ho⟩ := Bucket.mem_keys_iff.1 there
    have ho := h.get?_left hc ho
    obtain ⟨named, tell⟩ := fine k o ho starts
    exact ⟨named, o, ho, tell⟩
  · obtain ⟨⟨tally', rfl, batched⟩, longer⟩ := hu
    exact ⟨tally', rfl, batched, longer⟩
  · obtain ⟨gone, sub, bucket⟩ := h.bucket_of_prefix hu.1.toSent hu.2 hc
    exact ⟨gone, List.Subset.trans sub (List.append_subset.2 ⟨List.subset_append_left _ _,
      List.subset_append_of_subset_right _ (List.filter_subset_self _)⟩), bucket⟩

/-- **All wanted keys of a listing are chosen, and each once,** where none of the listing was chosen before: what is sent on
the way is before the next page. -/
theorem overKeys_fresh {start : String} {after : Option String} {pages : Nat} {c : Bucket}
    (h : Batched site w chosen tally s) (hc : s.1.bucket = some c)
    (fine : ∀ k o, w.object? k = some o → Bucket.startsWith start k = true → k ≠ "" ∧ selection.CanTell o)
    (fresh : ∀ k ∈ c.listed start after, k ∉ chosen) (enough : (c.listed start after).length < pages) :
    (overKeys start (consider site selection) pages after tally).Ends logged (Prog.Succeeds fun tally' u _ =>
      Batched site w (chosen ++ (c.listed start after).filter (w.wanted selection)) tally' u) s events := by
  induction pages generalizing after chosen tally s c events with
  | zero => omega
  | succ pages ih =>
    have split : (c.page start after).keys ++ (c.listed start after).drop Bucket.pageSize = c.listed start after :=
      List.take_append_drop Bucket.pageSize _
    refine h.overKeys_page hc fine (fun _ k hk => fresh k (List.mem_of_mem_take hk)) fun tally' u more hu hgone => ?_
    obtain ⟨gone, sub, bucket⟩ := hgone
    split
    case isTrue full =>
      obtain ⟨last, hlast, later⟩ := Bucket.next_listing full
      obtain ⟨rest, fewer⟩ := later gone
      -- what is still to come was not chosen, so none of it is gone
      have apart : ∀ k ∈ (c.listed start after).drop Bucket.pageSize, k ∉ chosen ++ (c.page start after).keys := by
        intro k hk chosen'
        rcases List.mem_append.1 chosen' with old | here
        · exact fresh k (List.mem_of_mem_drop hk) old
        · exact c.page_disjoint start after here hk
      have whole : (c.erase gone).listed start (some last) = (c.listed start after).drop Bucket.pageSize := by
        rw [rest]
        refine List.filter_eq_self.2 fun k hk => ?_
        obtain ⟨o, ho⟩ := Bucket.mem_keys_iff.1 (Bucket.mem_listed.1 (List.mem_of_mem_drop hk)).1
        rw [Bucket.get?_erase, if_neg fun hgone => apart k hk (sub hgone), ho, Option.isSome_some]
      rw [hlast]
      refine (ih hu bucket (fun k hk chosen' => ?_) (by omega)).mono fun r v more hv => ?_
      · rw [whole] at hk
        refine apart k hk (List.append_subset.2 ⟨List.subset_append_left _ _, ?_⟩ chosen')
        exact List.subset_append_of_subset_right _ (List.filter_subset_self _)
      · obtain ⟨tally'', rfl, hv⟩ := hv
        refine ⟨tally'', rfl, ?_⟩
        rwa [whole, List.append_assoc, ← List.filter_append, split] at hv
    case isFalse last =>
      have short : (c.listed start after).drop Bucket.pageSize = [] := by
        simpa [Bucket.page, List.drop_eq_nil_iff] using last
      rw [short, List.append_nil] at split
      exact ⟨tally', rfl, split ▸ hu⟩

end Batched

/-! ## Ends -/

/-- the chosen keys were sent in batches of which the last one need not be full, the objects that were taken are gone, and
as many were counted as the answers allow -/
structure Dispatched (site : Site) (w : World) (chosen : List String) (n : Int) (s : World × List Request) : Prop where
  sent : s.2.flatMap (·.keys) = chosen
  number : s.2.length = chosen.length ⌈/⌉ site.batchSize
  full : ∀ q ∈ s.2.dropLast, q.keys.length = site.batchSize
  counted : n = (s.2.map (·.counted)).sum
  bucket : ∃ b, w.bucket = some b ∧ s.1.bucket = some (b.erase (s.2.flatMap (·.taken)))
  willing : w.refusals = [] → ∀ q ∈ s.2, q.refused = []

theorem Sent.dispatched (h : Sent w chosen tally s) (emptied : tally.waiting = []) (positive : 0 < site.batchSize)
    {full last : List Request} (all : s.2 = full ++ last) (hfull : ∀ q ∈ full, q.keys.length = site.batchSize)
    (hlast : last = [] ∨ ∃ q, last = [q] ∧ q.keys ≠ [] ∧ q.keys.length < site.batchSize) :
    Dispatched site w chosen tally.deleted s := by
  have sent : s.2.flatMap (·.keys) = chosen := by rw [← h.sent, emptied, List.append_nil]
  obtain ⟨number, batches⟩ := Request.length_batches positive hfull hlast
  rw [← all] at number batches
  exact ⟨sent, sent ▸ number, batches, h.deleted, h.bucket, fun free => (h.willing free).2⟩

/-- **What waits at the end goes with a last request.** -/
theorem Batched.finish_ends (h : Batched site w chosen tally s) : tally.finish.Ends logged (Prog.Succeeds fun tally' u _ =>
    Dispatched site w chosen tally'.deleted u) s events := by
  have positive : 0 < site.batchSize := Nat.lt_of_le_of_lt (Nat.zero_le _) h.short
  rw [Tally.finish]
  split
  case isTrue emptied =>
    exact ⟨tally, rfl, h.toSent.dispatched emptied positive (List.append_nil _).symm h.full (.inl rfl)⟩
  case isFalse waits =>
    refine h.flush_ends.mono fun r u more hu => ?_
    obtain ⟨tally', rfl, sent, emptied, refused, all⟩ := hu
    exact ⟨tally', rfl, sent.dispatched emptied positive all h.full (.inr ⟨_, rfl, waits, h.short⟩)⟩

theorem batched_zero (unstruck : w.strikes = []) (hb : w.bucket = some b) (positive : 0 < site.batchSize) :
    Batched site w [] .zero (w, []) := by
  refine ⟨⟨unstruck, List.not_mem_nil, rfl, rfl, ⟨b, hb, ?_⟩, fun free => ⟨free, ?_⟩⟩, ?_, positive⟩
  · exact hb.trans (congrArg some b.erase_nil.symm)
  · simp
  · simp

/-- a bulk deletion dispatches what was chosen in its listings -/
theorem deleteMatching_dispatches {P : List String → Prop}
    (loop : ∀ events, (overSpaces site (consider site selection) .zero (searched selection)).Ends logged
      (Prog.Succeeds fun tally u _ => ∃ chosen, P chosen ∧ Batched site w chosen tally u) (w, []) events) :
    (deleteMatching site selection).Ends logged
      (Prog.Succeeds fun n u _ => ∃ chosen, P chosen ∧ Dispatched site w chosen n u) (w, []) events := by
  rw [deleteMatching]
  refine (Op.ends_account_ok (R := fun tally u _ => ∃ chosen, P chosen ∧ Dispatched site w chosen tally.deleted u)
    ((loop _).bind_ok fun tally u more hu => ?_)).bind_ok fun tally u more hu => ⟨_, rfl, hu⟩
  obtain ⟨chosen, hP, batched⟩ := hu
  refine batched.finish_ends.mono fun r v more hv => ?_
  obtain ⟨tally', rfl, dispatched⟩ := hv
  exact ⟨tally', rfl, chosen, hP, dispatched⟩

/-- the one listing of a selection that asks for the texts of objects -/
theorem searched_single (asks : selection.Asks) : ∃ space, searched selection = [space] := by
  cases selection with
  | inSpaces => exact asks.elim
  | inNamespace space => exact ⟨some space, rfl⟩
  | before => exact ⟨none, rfl⟩

/-- all that a selection picks is chosen, in the order of the keys -/
theorem filtered_dispatches (asks : selection.Asks) (unstruck : w.strikes = []) (hb : w.bucket = some b)
    (passable : selection.Passable site.location w) (pages : b.objects.length < site.pageLimit)
    (positive : 0 < site.batchSize) : (deleteMatching site selection).Ends logged (Prog.Succeeds fun n u _ =>
      ∃ chosen, (chosen.Nodup ∧ ∀ k, k ∈ chosen ↔ ∃ o, w.object? k = some o ∧ selection.Picks site.location k o) ∧
        Dispatched site w chosen n u) (w, []) [] := by
  obtain ⟨space, only⟩ := searched_single asks
  obtain ⟨start, hstart⟩ := passable.starts space (by rw [only]; exact List.mem_singleton_self space)
  have reaches : ∀ k, selection.Reaches site.location k ↔ Bucket.startsWith start k = true := by
    intro k
    simp [Selection.Reaches, Among, only, hstart]
  refine deleteMatching_dispatches fun events => ?_
  rw [overSpaces, only, List.foldlM_cons]
  rw [overSpace, hstart, Prog.ofExcept_ok_bind]
  refine ((batched_zero unstruck hb positive).overKeys_fresh hb
    (fun k o ho starts => passable.objects k o ho ((reaches k).2 starts)) (fun _ _ => List.not_mem_nil)
    (Nat.lt_of_le_of_lt (b.length_listed_le start none) pages)).bind_ok
    fun tally u more hu => ⟨tally, rfl, _, ⟨?_, fun k => ?_⟩, hu⟩
  · exact (b.listed_nodup start none).filter _
  · rw [List.nil_append, List.mem_filter, mem_listed_iff hb, World.wanted, Option.any_eq_true]
    simp only [Selection.Picks, reaches, decide_eq_true_eq]
    constructor
    · rintro ⟨⟨-, starts⟩, o, ho, wants⟩
      exact ⟨o, ho, starts, wants⟩
    · rintro ⟨o, ho, starts, wants⟩
      exact ⟨⟨⟨o, ho⟩, starts⟩, o, ho, wants⟩

end Content

/-! ## Filtered deletions -/

def World.contents (w : World) : Nat :=
  w.bucket.elim 0 (·.objects.length)

theorem Bucket.length_erase {gone : List String} (there : gone ⊆ b.keys) :
    (b.erase gone).objects.length + gone.dedup.length = b.objects.length := by
  have found : (b.keys.filter gone.contains).length = gone.dedup.length := by
    have distinct : b.keys.Nodup := b.keys_ascending.imp fun less same => absurd (same ▸ less) (String.lt_irrefl _)
    refine ((List.perm_ext_iff_of_nodup (distinct.filter _) gone.nodup_dedup).2 fun k => ?_).length_eq
    simp only [List.mem_filter, List.contains_eq_mem, decide_eq_true_eq, List.mem_dedup]
    exact ⟨And.right, fun hk => ⟨there hk, hk⟩⟩
  have parts := List.length_eq_length_filter_add (l := b.keys) gone.contains
  have left : (b.erase gone).objects.length = (b.keys.filter (!gone.contains ·)).length := by
    rw [← b.keys_erase gone, Bucket.keys, List.length_map]
  have all : b.keys.length = b.objects.length := List.length_map _
  omega

/-- the objects that are gone are those that were taken, however often -/
theorem World.contents_of_taken {chosen : List String} {n : Int} {s : World × List Request}
    (h : Content.Dispatched site w chosen n s) (there : ∀ k ∈ chosen, ∃ o, w.object? k = some o) :
    (s.2.flatMap (·.taken)).dedup.length + s.1.contents = w.contents := by
  obtain ⟨b, hb, hs⟩ := h.bucket
  rw [contents, contents, hb, hs, Option.elim_some, Option.elim_some, Nat.add_comm]
  refine Bucket.length_erase fun k hk => Bucket.mem_keys_iff.2 ?_
  obtain ⟨o, ho⟩ := there k (h.sent ▸ (Request.taken_sublist s.2).subset hk)
  exact ⟨o, by rwa [object?, hb] at ho⟩

/-- **A filtered bulk deletion is exact.** Let the contents of a namespace or of a time be deleted where no fault strikes,
nothing stands in the way of the deletion, and each refusal names another key of its request. Then
- each key that the selection picks is sent once, and no other is;
- the requests are full batches, and a last one with the rest;
- the objects that were sent and not refused are gone, and all others are what they were;
- the deletion ends well, and what it gives is the number of objects that are gone. -/
theorem filtered_deletion_exact (site : Site) (selection : Selection) (asks : selection.Asks) (w : World)
    (unstruck : w.strikes = []) (passable : selection.Passable site.location w) (pages : w.contents < site.pageLimit)
    (positive : 0 < site.batchSize)
    (honest : ∀ q ∈ (Content.deleteMatching site selection).gathers serve Call.requests w, q.Honest) :
    let run := w.run (Content.deleteMatching site selection)
    let requests : List Request := (Content.deleteMatching site selection).gathers serve Call.requests w
    let sent : List String := requests.flatMap (·.keys)
    (sent.Nodup ∧ ∀ k, k ∈ sent ↔ ∃ o, w.object? k = some o ∧ selection.Picks site.location k o) ∧
    (requests.length = sent.length ⌈/⌉ site.batchSize ∧ ∀ q ∈ requests.dropLast, q.keys.length = site.batchSize) ∧
    (∀ k, run.state.object? k = if k ∈ sent ∧ ∀ q ∈ requests, k ∉ q.kept then none else w.object? k) ∧
    ∃ n, run.outcome = .ok n ∧ n + run.state.contents = w.contents := by
  intro run requests sent
  obtain ⟨b, hb⟩ : ∃ b, w.bucket = some b := by
    obtain ⟨space, only⟩ := Content.searched_single asks
    exact Option.isSome_iff_exists.1 (passable.bucket (by rw [only]; exact List.cons_ne_nil _ _))
  rw [contents, hb, Option.elim_some] at pages
  have ends := Content.filtered_dispatches asks unstruck hb passable pages positive
  obtain ⟨n, given, chosen, ⟨once, picked⟩, h⟩ := run_of_ends ((Prog.ends_collect _ _ w [] []).1 ends)
  rw [List.nil_append] at h
  obtain rfl : sent = chosen := h.sent
  obtain ⟨b', hb', left⟩ := h.bucket
  refine ⟨⟨once, picked⟩, ⟨h.number, h.full⟩, fun k => ?_, n, given, ?_⟩
  · rw [object?_erase hb' left]
    exact if_congr (Request.mem_taken_iff once honest) rfl rfl
  · have there : ∀ k ∈ sent, ∃ o, w.object? k = some o := fun k hk => ((picked k).1 hk).imp fun o ho => ho.1
    have gone := contents_of_taken h there
    rw [(once.sublist (Request.taken_sublist requests)).dedup] at gone
    rw [h.counted, Request.counted_eq_taken once honest]
    exact_mod_cast gone

/-- four contents, one of them in no namespace, and a refusal of the first one -/
def deniedFirst : World :=
  let named : Object := ⟨.empty, [(Content.namespaceName, "n")]⟩
  { World.fresh with
    bucket := some ((((Bucket.empty.put "s/1" named).put "s/2" named).put "s/3" ⟨.empty, []⟩).put "s/4" named)
    refusals := [⟨[⟨some "s/1", some "denied"⟩], 0, some 1⟩] }

/-- two batches are sent, and two of the three keys are counted -/
theorem filtered_deletion_exact_deniedFirst :
    let site : Site := { Site.standard .top with batchSize := 2, pageLimit := 5 }
    let selection : Selection := .inNamespace "s" (some "n")
    let run := deniedFirst.run (Content.deleteMatching site selection)
    let requests : List Request := (Content.deleteMatching site selection).gathers serve Call.requests deniedFirst
    (selection.Passable site.location deniedFirst ∧ deniedFirst.contents < site.pageLimit ∧ ∀ q ∈ requests, q.Honest) ∧
    (requests.map (·.keys) = [["s/1", "s/2"], ["s/4"]] ∧ run.outcome = .ok 2) ∧
    (requests.flatMap (·.keys)).Nodup ∧ run.state.object? "s/1" = deniedFirst.object? "s/1" ∧
    run.state.object? "s/2" = none ∧ (2 : Int) + run.state.contents = deniedFirst.contents := by
  intro site selection run requests
  have passable : selection.Passable site.location deniedFirst := by
    refine ⟨fun _ => rfl, fun space hspace => ?_, fun k o ho _ => ⟨?_, trivial⟩⟩
    · rw [List.mem_singleton.1 hspace]
      exact ⟨"s/", by decide +kernel⟩
    · rintro rfl
      have absent : (deniedFirst.object? "").isNone = true := by decide +kernel
      rw [ho] at absent
      cases absent
  have honest : ∀ q ∈ requests, q.Honest := by decide +kernel
  have pages : deniedFirst.contents < site.pageLimit := by decide +kernel
  have batches : requests.map (·.keys) = [["s/1", "s/2"], ["s/4"]] := by decide +kernel
  have returned : run.outcome = .ok 2 := by decide +kernel
  obtain ⟨⟨once, -⟩, -, left, n, given, number⟩ :=
    filtered_deletion_exact site selection trivial deniedFirst rfl passable pages (by decide) honest
  obtain rfl : 2 = n := Except.ok.inj (returned.symm.trans given)
  refine ⟨⟨passable, pages, honest⟩, ⟨batches, returned⟩, once, ?_, ?_, number⟩
  · rw [left, if_neg (by decide +kernel)]
  · rw [left, if_pos (by decide +kernel)]

end Depot
