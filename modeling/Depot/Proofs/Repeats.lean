/-
Keys that a deletion by spaces meets again.

A deletion by spaces goes through a listing for each space, and what the listings hold goes into the same batches. A space
may be named twice, or the listing of one may hold that of another. What was sent is gone when it would be listed again, but
a key that still waits is chosen, sent and counted once more. Since a batch is no longer than a page, a first page that is
full sends all that waited before it, so only first pages can hold such keys: `picked` says what is chosen, and
`spaces_dispatch` that it is sent.

Hence the count is right if and only if no first page holds a key that waits (`spaces_count_exact_iff`), which is so for
listings that share no keys (`Unrepeated.of_apart`).
-/
import Depot.Proofs.Batches

namespace Depot

open World

variable {w : World} {site : Site} {spaces : List String} {k start : String} {starts : List String} {b : Bucket} {size : Nat}
  {events : List Event}

namespace Request

variable {requests : List Request}

theorem taken_of_willing (willing : ∀ q ∈ requests, q.refused = []) :
    requests.flatMap (·.taken) = requests.flatMap (·.keys) := by
  refine List.flatMap_congr fun q hq => ?_
  simp [taken, kept, willing q hq]

theorem counted_of_willing (willing : ∀ q ∈ requests, q.refused = []) :
    (requests.map (·.counted)).sum = (requests.flatMap (·.keys)).length := by
  induction requests with
  | nil => rfl
  | cons q requests ih =>
    obtain ⟨own, willing⟩ := List.forall_mem_cons.1 willing
    rw [List.map_cons, List.sum_cons, ih willing, counted, own, List.flatMap_cons, List.length_append, List.length_nil]
    omega

end Request

namespace Content

/-! ## Full batches -/

/-- the keys that went in full batches of a size -/
def sentOf (size : Nat) (keys : List String) : List String :=
  keys.take (keys.length / size * size)

/-- the keys that wait for a batch to be full -/
def waitingOf (size : Nat) (keys : List String) : List String :=
  keys.drop (keys.length / size * size)

theorem sentOf_append_waitingOf (size : Nat) (keys : List String) : sentOf size keys ++ waitingOf size keys = keys :=
  List.take_append_drop _ _

theorem sentOf_subset (size : Nat) (keys : List String) : sentOf size keys ⊆ keys :=
  List.take_subset _ _

theorem waitingOf_subset (size : Nat) (keys : List String) : waitingOf size keys ⊆ keys :=
  List.drop_subset _ _

theorem mem_sentOf_or (size : Nat) (keys : List String) (hk : k ∈ keys) : k ∈ sentOf size keys ∨ k ∈ waitingOf size keys :=
  List.mem_append.1 ((sentOf_append_waitingOf size keys).symm ▸ hk)

/-- what was sent does not depend on how the keys were split -/
theorem parts_eq {sent waiting : List String} (full : ∃ number, sent.length = number * size) (short : waiting.length < size) :
    sentOf size (sent ++ waiting) = sent ∧ waitingOf size (sent ++ waiting) = waiting := by
  obtain ⟨number, full⟩ := full
  have whole : (sent ++ waiting).length / size * size = sent.length := by
    rw [List.length_append, full, Nat.mul_comm number, Nat.mul_add_div (by omega), Nat.div_eq_of_lt short, Nat.add_zero,
      Nat.mul_comm]
  rw [sentOf, waitingOf, whole, List.take_left, List.drop_left]
  exact ⟨rfl, rfl⟩

/-- as many keys as there are in a batch send all that waited before them -/
theorem subset_sentOf_append (positive : 0 < size) (keys : List String) {more : List String} (enough : size ≤ more.length) :
    keys ⊆ sentOf size (keys ++ more) := by
  have rest := Nat.mod_lt (keys ++ more).length positive
  have whole := Nat.div_add_mod' (keys ++ more).length size
  have all : keys.length ≤ (keys ++ more).length / size * size := by
    rw [List.length_append] at rest whole ⊢
    omega
  rw [sentOf, List.take_append, List.take_of_length_le all]
  exact List.subset_append_left _ _

/-! ## What is chosen -/

/-- the keys chosen after one more listing: all of its first page, and of later pages those that were not sent on the way -/
def pickMore (size : Nat) (b : Bucket) (chosen : List String) (start : String) : List String :=
  let found := (b.erase (sentOf size chosen)).listed start none
  chosen ++ found.take Bucket.pageSize ++ (found.drop Bucket.pageSize).filter fun k => !chosen.contains k

/-- the keys that a deletion chooses in listings with these starts -/
def picked (size : Nat) (b : Bucket) (starts : List String) : List String :=
  starts.foldl (pickMore size b) []

variable {chosen : List String} {tally : Tally} {s : World × List Request}

theorem Batched.parts (h : Batched site w chosen tally s) :
    s.2.flatMap (·.keys) = sentOf site.batchSize chosen ∧ tally.waiting = waitingOf site.batchSize chosen := by
  obtain ⟨sent, waiting⟩ := parts_eq ⟨_, Request.length_keys_of_full h.full⟩ h.short
  rw [h.sent] at sent waiting
  exact ⟨sent.symm, waiting.symm⟩

theorem Batched.bucket_left (h : Batched site w chosen tally s) (willing : w.refusals = []) (hb : w.bucket = some b) :
    s.1.bucket = some (b.erase (sentOf site.batchSize chosen)) := by
  obtain ⟨b', hb', left⟩ := h.bucket
  obtain rfl : b = b' := Option.some.inj (hb.symm.trans hb')
  rw [left, Request.taken_of_willing (h.willing willing).2, h.parts.1]

theorem filter_wanted (hb : w.bucket = some b) {keys : List String} (there : keys ⊆ b.keys) :
    keys.filter (w.wanted (.inSpaces spaces)) = keys := by
  refine List.filter_eq_self.2 fun k hk => ?_
  obtain ⟨o, ho⟩ := Bucket.mem_keys_iff.1 (there hk)
  rw [World.wanted, World.object?, hb, Option.bind_some, ho]
  rfl

theorem listed_subset {gone : List String} {after : Option String} : (b.erase gone).listed start after ⊆ b.keys := by
  intro k hk
  have there := (Bucket.mem_listed.1 hk).1
  rw [Bucket.keys_erase] at there
  exact List.mem_of_mem_filter there

/-- what is still to come after a full first page: all that was chosen before is gone by then -/
theorem listed_later (positive : 0 < size) (fits : size ≤ Bucket.pageSize)
    (full : ((b.erase (sentOf size chosen)).page start none).more = true) :
    let found := (b.erase (sentOf size chosen)).listed start none
    ∃ last, (found.take Bucket.pageSize).getLast? = some last ∧
      (b.erase (sentOf size (chosen ++ found.take Bucket.pageSize))).listed start (some last) =
        (found.drop Bucket.pageSize).filter fun k => !chosen.contains k := by
  intro found
  obtain ⟨last, hlast, later⟩ := Bucket.next_listing full
  refine ⟨last, hlast, ?_⟩
  generalize hsent : sentOf size (chosen ++ found.take Bucket.pageSize) = sent
  have before : chosen ⊆ sent := by
    have enough : (found.take Bucket.pageSize).length = Bucket.pageSize :=
      List.length_take_of_le (Nat.le_of_lt (of_decide_eq_true full))
    exact hsent ▸ subset_sentOf_append positive chosen (by rwa [enough])
  have onPage : ∀ k ∈ sent, k ∈ chosen ∨ k ∈ found.take Bucket.pageSize := fun k hk =>
    List.mem_append.1 (sentOf_subset _ _ (hsent ▸ hk))
  have same : b.erase sent = (b.erase (sentOf size chosen)).erase sent := by
    rw [Bucket.erase_erase]
    refine Bucket.erase_congr fun k => ?_
    rw [List.mem_append]
    exact ⟨.inr, fun gone => gone.elim (fun early => before (sentOf_subset _ _ early)) id⟩
  rw [same, (later sent).1]
  refine List.filter_congr fun k hk => ?_
  obtain ⟨o, ho⟩ := Bucket.mem_keys_iff.1 (Bucket.mem_listed.1 (List.mem_of_mem_drop hk)).1
  have gone_iff : k ∈ sent ↔ k ∈ chosen :=
    ⟨fun gone => (onPage k gone).resolve_right fun page => Bucket.page_disjoint _ start none page hk, fun old => before old⟩
  rw [Bucket.get?_erase, ho, if_congr gone_iff rfl rfl]
  by_cases old : k ∈ chosen <;> simp [old]

/-- **One listing of a deletion by spaces** -/
theorem Batched.pick_ends (h : Batched site w chosen tally s) (willing : w.refusals = []) (hb : w.bucket = some b)
    (fits : site.batchSize ≤ Bucket.pageSize)
    (named : ∀ k o, w.object? k = some o → Bucket.startsWith start k = true → k ≠ "")
    (pages : b.objects.length < site.pageLimit) :
    (overKeys start (consider site (.inSpaces spaces)) site.pageLimit none tally).Ends logged (Prog.Succeeds fun tally' u _ =>
      Batched site w (pickMore site.batchSize b chosen start) tally' u) s events := by
  have positive : 0 < site.batchSize := Nat.lt_of_le_of_lt (Nat.zero_le _) h.short
  obtain ⟨limit, hlimit⟩ : ∃ limit, site.pageLimit = limit + 1 := Nat.exists_eq_succ_of_ne_zero (by omega)
  have fine : ∀ k o, w.object? k = some o → Bucket.startsWith start k = true →
      k ≠ "" ∧ (Selection.inSpaces spaces).CanTell o := fun k o ho starts => ⟨named k o ho starts, trivial⟩
  rw [hlimit]
  refine h.overKeys_page (h.bucket_left willing hb) fine False.elim fun tally' u more hu _ => ?_
  rw [Bucket.page, filter_wanted hb fun k hk => listed_subset (List.mem_of_mem_take hk)] at hu
  have bucket := hu.bucket_left willing hb
  split
  case isTrue full =>
    obtain ⟨last, hlast, rest⟩ := listed_later positive fits full
    rw [Bucket.page, hlast]
    refine (hu.overKeys_fresh bucket fine ?_ ?_).mono fun r v more hv => ?_
    · intro k hk before
      rw [rest, List.mem_filter] at hk
      refine (List.mem_append.1 before).elim (fun old => ?_) fun page => Bucket.page_disjoint _ start none page hk.1
      simp [old] at hk
    · have listed := (b.erase (sentOf site.batchSize chosen)).length_listed_le start none
      have left := b.length_erase_le (sentOf site.batchSize chosen)
      have more : Bucket.pageSize < (Bucket.listed _ start none).length := of_decide_eq_true full
      have size : 0 < Bucket.pageSize := by decide
      rw [rest]
      refine Nat.lt_of_le_of_lt (List.length_filter_le _ _) ?_
      rw [List.length_drop]
      omega
    · obtain ⟨tally'', rfl, hv⟩ := hv
      rw [rest, filter_wanted hb fun k hk => listed_subset (List.mem_of_mem_drop (List.mem_of_mem_filter hk))] at hv
      exact ⟨tally'', rfl, hv⟩
  case isFalse last =>
    have short : ((b.erase (sentOf site.batchSize chosen)).listed start none).drop Bucket.pageSize = [] := by
      simpa [Bucket.page, List.drop_eq_nil_iff] using last
    refine ⟨tally', rfl, ?_⟩
    rw [pickMore, short, List.filter_nil, List.append_nil]
    exact hu

/-- the starts of the listings of some spaces that are accepted -/
def startsOf (l : Key.Location) (spaces : List String) : List String :=
  spaces.filterMap fun space => (l.start (some space)).toOption

theorem startsOf_cons {l : Key.Location} {space : String} (h : l.start (some space) = .ok start) :
    startsOf l (space :: spaces) = start :: startsOf l spaces := by
  rw [startsOf, List.filterMap_cons, h]
  rfl

theorem mem_startsOf {l : Key.Location} : start ∈ startsOf l spaces ↔ ∃ space ∈ spaces, l.start (some space) = .ok start := by
  rw [startsOf, List.mem_filterMap]
  refine exists_congr fun space => and_congr_right fun _ => ?_
  cases l.start (some space) <;> simp [Except.toOption]

theorem reaches_spaces_iff {l : Key.Location} :
    (Selection.inSpaces spaces).Reaches l k ↔ ∃ start ∈ startsOf l spaces, Bucket.startsWith start k = true := by
  simp only [Selection.Reaches, Among, searched, mem_startsOf, List.mem_map, exists_exists_and_eq_and]
  constructor
  · rintro ⟨space, hspace, start, hstart, starts⟩
    exact ⟨start, ⟨space, hspace, hstart⟩, starts⟩
  · rintro ⟨start, ⟨space, hspace, hstart⟩, starts⟩
    exact ⟨space, hspace, start, hstart, starts⟩

/-- **The listings of a deletion by spaces,** one after another -/
theorem Batched.picked_ends {more : List String} (h : Batched site w chosen tally s) (willing : w.refusals = [])
    (hb : w.bucket = some b) (fits : site.batchSize ≤ Bucket.pageSize)
    (accepted : ∀ space ∈ more, ∃ start, site.location.start (some space) = .ok start)
    (named : ∀ k o, w.object? k = some o → ∀ start ∈ startsOf site.location more, Bucket.startsWith start k = true → k ≠ "")
    (pages : b.objects.length < site.pageLimit) :
    ((more.map some).foldlM (overSpace site (consider site (.inSpaces spaces))) tally).Ends logged
      (Prog.Succeeds fun tally' u _ =>
        Batched site w ((startsOf site.location more).foldl (pickMore site.batchSize b) chosen) tally' u) s events := by
  induction more generalizing chosen tally s events with
  | nil => exact ⟨tally, rfl, h⟩
  | cons space more ih =>
    obtain ⟨⟨start, hstart⟩, accepted⟩ := List.forall_mem_cons.1 accepted
    rw [startsOf_cons hstart] at named ⊢
    rw [List.map_cons, List.foldlM_cons, overSpace, hstart, Prog.ofExcept_ok_bind]
    refine (h.pick_ends willing hb fits (fun k o ho => ?_) pages).bind_ok fun tally' u more hu => ?_
    · exact named k o ho start List.mem_cons_self
    · exact ih hu accepted fun k o ho start' later => named k o ho start' (List.mem_cons_of_mem _ later)

theorem spaces_dispatch (unstruck : w.strikes = []) (willing : w.refusals = []) (hb : w.bucket = some b)
    (passable : (Selection.inSpaces spaces).Passable site.location w) (pages : b.objects.length < site.pageLimit)
    (positive : 0 < site.batchSize) (fits : site.batchSize ≤ Bucket.pageSize) :
    (deleteMatching site (.inSpaces spaces)).Ends logged (Prog.Succeeds fun n u _ =>
      ∃ chosen, chosen = picked site.batchSize b (startsOf site.location spaces) ∧ Dispatched site w chosen n u)
      (w, []) [] := by
  refine deleteMatching_dispatches fun events => ?_
  rw [overSpaces, searched]
  refine ((batched_zero unstruck hb positive).picked_ends willing hb fits (fun space hspace => ?_)
    (fun k o ho start hstart starts => ?_) pages).mono fun r u more hu => ?_
  · exact passable.starts (some space) (List.mem_map_of_mem hspace)
  · exact (passable.objects k o ho (reaches_spaces_iff.2 ⟨start, hstart, starts⟩)).1
  · obtain ⟨tally, rfl, hu⟩ := hu
    exact ⟨tally, rfl, _, rfl, hu⟩

/-! ## Keys that are met again -/

theorem mem_pickMore : k ∈ pickMore size b chosen start ↔ k ∈ chosen ∨ k ∈ b.listed start none := by
  rw [pickMore, List.append_assoc, List.mem_append]
  by_cases old : k ∈ chosen
  · simp [old]
  · have unsent : k ∉ sentOf size chosen := fun sent => old (sentOf_subset _ _ sent)
    have found : k ∈ b.listed start none ↔ k ∈ ((b.erase (sentOf size chosen)).listed start none).take Bucket.pageSize ∨
        k ∈ ((b.erase (sentOf size chosen)).listed start none).drop Bucket.pageSize := by
      rw [← List.mem_append, List.take_append_drop, Bucket.listed_erase_filter]
      simp [unsent]
    rw [found]
    simp [old]

theorem mem_picked : k ∈ picked size b starts ↔ ∃ start ∈ starts, k ∈ b.listed start none := by
  induction starts using List.reverseRecOn with
  | nil => simp [picked]
  | append_singleton starts start ih =>
    rw [picked, List.foldl_concat, mem_pickMore, ← picked, ih]
    simp [or_and_right, exists_or]

/-- a listing repeats no key if and only if its first page holds none that waits -/
theorem nodup_pickMore : (pickMore size b chosen start).Nodup ↔ chosen.Nodup ∧
    List.Disjoint ((b.erase (sentOf size chosen)).page start none).keys (waitingOf size chosen) := by
  have unsent : ∀ k ∈ (b.erase (sentOf size chosen)).listed start none, k ∉ sentOf size chosen := by
    intro k hk
    rw [Bucket.listed_erase_filter] at hk
    simpa using (List.mem_filter.1 hk).2
  have found := (b.erase (sentOf size chosen)).listed_nodup start none
  have first := found.sublist (List.take_sublist Bucket.pageSize _)
  have rest := found.sublist (List.drop_sublist Bucket.pageSize _)
  rw [pickMore, List.append_assoc, List.nodup_append']
  constructor
  · rintro ⟨once, -, new⟩
    refine ⟨once, fun k page waits => ?_⟩
    exact new (waitingOf_subset _ _ waits) (List.mem_append_left _ page)
  · rintro ⟨once, new⟩
    refine ⟨once, first.append (rest.filter _) fun k page later => ?_, fun k old here => ?_⟩
    · exact Bucket.page_disjoint _ start none page (List.mem_of_mem_filter later)
    · rcases List.mem_append.1 here with page | later
      · exact (mem_sentOf_or size chosen old).elim (unsent k (List.mem_of_mem_take page)) (new page)
      · simpa [old] using (List.mem_filter.1 later).2

/-- all keys of some listings, each where it first comes up -/
def inTurn (b : Bucket) (starts : List String) : List String :=
  starts.foldl (fun met start => met ++ (b.listed start none).filter fun k => !met.contains k) []

/-- no listing's first page holds a key that still waits when it is listed -/
def Unrepeated (size : Nat) (b : Bucket) (starts : List String) : Prop :=
  ∀ before start after, starts = before ++ start :: after →
    List.Disjoint ((b.erase (sentOf size (inTurn b before))).page start none).keys (waitingOf size (inTurn b before))

theorem pickMore_of_nodup (once : (pickMore size b chosen start).Nodup) :
    pickMore size b chosen start = chosen ++ (b.listed start none).filter fun k => !chosen.contains k := by
  rw [pickMore, List.append_assoc, List.nodup_append'] at once
  obtain ⟨-, -, new⟩ := once
  have first : (((b.erase (sentOf size chosen)).listed start none).take Bucket.pageSize).filter (fun k => !chosen.contains k) =
      ((b.erase (sentOf size chosen)).listed start none).take Bucket.pageSize := by
    refine List.filter_eq_self.2 fun k page => ?_
    have fresh : k ∉ chosen := fun old => new old (List.mem_append_left _ page)
    simp [fresh]
  rw [pickMore, List.append_assoc, ← first, ← List.filter_append, List.take_append_drop, Bucket.listed_erase_filter,
    List.filter_filter]
  refine congrArg (chosen ++ ·) (List.filter_congr fun k _ => ?_)
  by_cases old : k ∈ chosen
  · simp [old]
  · have unsent : k ∉ sentOf size chosen := fun sent => old (sentOf_subset _ _ sent)
    simp [old, unsent]

theorem picked_of_nodup (once : (picked size b starts).Nodup) : picked size b starts = inTurn b starts := by
  induction starts using List.reverseRecOn with
  | nil => rfl
  | append_singleton starts start ih =>
    rw [picked, List.foldl_concat, ← picked] at once ⊢
    rw [pickMore_of_nodup once, inTurn, List.foldl_concat, ← inTurn, ih (nodup_pickMore.1 once).1]

theorem unrepeated_concat : Unrepeated size b (starts ++ [start]) ↔ Unrepeated size b starts ∧
    List.Disjoint ((b.erase (sentOf size (inTurn b starts))).page start none).keys (waitingOf size (inTurn b starts)) := by
  constructor
  · intro h
    refine ⟨fun before start' after split => h before start' (after ++ [start]) ?_, h starts start [] rfl⟩
    rw [split, List.append_assoc, List.cons_append]
  · rintro ⟨early, last⟩ before start' after split
    rcases List.eq_nil_or_concat after with rfl | ⟨after, final, rfl⟩
    · obtain ⟨rfl, same⟩ := List.append_inj' split rfl
      cases same
      exact last
    · rw [List.concat_eq_append, ← List.cons_append, ← List.append_assoc] at split
      exact early before start' after (List.append_inj' split rfl).1

theorem nodup_picked : (picked size b starts).Nodup ↔ Unrepeated size b starts := by
  induction starts using List.reverseRecOn with
  | nil => simp [picked, Unrepeated]
  | append_singleton starts start ih =>
    rw [unrepeated_concat, ← ih, picked, List.foldl_concat, ← picked, nodup_pickMore]
    exact and_congr_right fun once => by rw [picked_of_nodup once]

/-- listings that share no keys meet no key again -/
theorem Unrepeated.of_apart
    (apart : starts.Pairwise fun start later => ∀ k, Bucket.startsWith start k = true → Bucket.startsWith later k = false) :
    Unrepeated size b starts := by
  rw [← nodup_picked]
  induction starts using List.reverseRecOn with
  | nil => exact List.nodup_nil
  | append_singleton starts start ih =>
    obtain ⟨early, -, last⟩ := List.pairwise_append.1 apart
    rw [picked, List.foldl_concat, ← picked, nodup_pickMore]
    refine ⟨ih early, fun k page waits => ?_⟩
    obtain ⟨start', earlier, listed⟩ := mem_picked.1 (waitingOf_subset _ _ waits)
    have own := (Bucket.mem_listed.1 (List.mem_of_mem_take page)).2.1
    rw [last start' earlier start List.mem_cons_self k (Bucket.mem_listed.1 listed).2.1] at own
    cases own

end Content

/-! ## The count of a deletion by spaces -/

/-- **The count of a deletion by spaces is right if and only if no key that waits is met again.** Let the contents of some
spaces be deleted where no fault strikes, nothing is refused and nothing stands in the way of the deletion. Then all that is
under the spaces is gone, the deletion ends well, and it counts at least the objects that are gone; it counts just those if
and only if no first page of a listing holds a key that still waits. -/
theorem spaces_count_exact_iff (site : Site) (spaces : List String) (w : World) (b : Bucket) (hb : w.bucket = some b)
    (unstruck : w.strikes = []) (willing : w.refusals = [])
    (passable : (Selection.inSpaces spaces).Passable site.location w) (pages : w.contents < site.pageLimit)
    (positive : 0 < site.batchSize) (fits : site.batchSize ≤ Bucket.pageSize) :
    let run := w.run (Content.deleteMatching site (.inSpaces spaces))
    let starts : List String := Content.startsOf site.location spaces
    (∀ k, run.state.object? k = if ∃ start ∈ starts, Bucket.startsWith start k = true then none else w.object? k) ∧
    ∃ n, run.outcome = .ok n ∧ w.contents ≤ n + run.state.contents ∧
      (n + run.state.contents = w.contents ↔ Content.Unrepeated site.batchSize b starts) := by
  intro run starts
  rw [contents, hb, Option.elim_some] at pages
  have ends := Content.spaces_dispatch unstruck willing hb passable pages positive fits
  obtain ⟨n, given, chosen, hchosen, h⟩ := run_of_ends ((Prog.ends_collect _ _ w [] []).1 ends)
  have taken := Request.taken_of_willing (h.willing willing)
  rw [h.sent] at taken
  have listed : ∀ k, k ∈ chosen ↔ (∃ o, w.object? k = some o) ∧ ∃ start ∈ starts, Bucket.startsWith start k = true := by
    intro k
    simp only [hchosen, Content.mem_picked, Content.mem_listed_iff hb]
    constructor
    · rintro ⟨start, hstart, there, starts⟩
      exact ⟨there, start, hstart, starts⟩
    · rintro ⟨there, start, hstart, starts⟩
      exact ⟨start, hstart, there, starts⟩
  refine ⟨fun k => ?_, n, given, ?_⟩
  · obtain ⟨b', hb', left⟩ := h.bucket
    rw [object?_erase hb' left, taken]
    by_cases reached : ∃ start ∈ starts, Bucket.startsWith start k = true
    · rw [if_pos reached, ite_eq_left_iff]
      intro unlisted
      exact Option.eq_none_iff_forall_not_mem.2 fun o ho => unlisted ((listed k).2 ⟨⟨o, ho⟩, reached⟩)
    · rw [if_neg reached, if_neg fun hk => reached ((listed k).1 hk).2]
  · have gone : chosen.dedup.length + run.state.contents = w.contents := by
      have all := contents_of_taken h fun k hk => ((listed k).1 hk).1
      rw [taken] at all
      exact all
    rw [h.counted, Request.counted_of_willing (h.willing willing), h.sent, ← Content.nodup_picked, ← hchosen]
    have fewer := chosen.dedup_sublist.length_le
    have equal : chosen.length = chosen.dedup.length ↔ chosen.Nodup :=
      ⟨fun same => List.dedup_eq_self.1 (chosen.dedup_sublist.eq_of_length same.symm), fun once => by rw [once.dedup]⟩
    rw [← equal]
    omega

def loneContent : World :=
  { World.fresh with bucket := some (Bucket.empty.put "a/1" ⟨.empty, []⟩) }

/-- a space that is named twice is counted twice -/
theorem spaces_count_exact_iff_namedTwice :
    let site : Site := { Site.standard .top with pageLimit := 2 }
    let run := loneContent.run (Content.deleteMatching site (.inSpaces ["a", "a"]))
    let starts : List String := Content.startsOf site.location ["a", "a"]
    ((Selection.inSpaces ["a", "a"]).Passable site.location loneContent ∧ loneContent.contents < site.pageLimit) ∧
    (loneContent.contents = 1 ∧ run.outcome = .ok 2 ∧ run.state.object? "a/1" = none ∧ run.state.contents = 0) ∧
    (2 + run.state.contents ≠ loneContent.contents ∧
      ¬ Content.Unrepeated site.batchSize (Bucket.empty.put "a/1" ⟨.empty, []⟩) starts) := by
  intro site run starts
  have passable : (Selection.inSpaces ["a", "a"]).Passable site.location loneContent := by
    refine ⟨fun _ => rfl, fun space hspace => ⟨"a/", ?_⟩, fun k o ho _ => ⟨?_, trivial⟩⟩
    · have same : space = some "a" := by simpa [Content.searched] using hspace
      rw [same]
      decide +kernel
    · rintro rfl
      have absent : (loneContent.object? "").isNone = true := by decide +kernel
      rw [ho] at absent
      cases absent
  have pages : loneContent.contents < site.pageLimit := by decide +kernel
  have returned : run.outcome = .ok 2 := by decide +kernel
  have left : run.state.contents = 0 := by decide +kernel
  have before : loneContent.contents = 1 := by decide +kernel
  obtain ⟨gone, n, given, -, exact_iff⟩ := spaces_count_exact_iff site ["a", "a"] loneContent _ rfl rfl rfl passable pages
    (by decide) (by decide)
  obtain rfl : 2 = n := Except.ok.inj (returned.symm.trans given)
  have wrong : 2 + run.state.contents ≠ loneContent.contents := by omega
  refine ⟨⟨passable, pages⟩, ⟨before, returned, ?_, left⟩, wrong, fun unrepeated => wrong ?_⟩
  · rw [gone, if_pos ⟨"a/", by decide +kernel, by decide +kernel⟩]
  · exact_mod_cast exact_iff.2 unrepeated

end Depot
