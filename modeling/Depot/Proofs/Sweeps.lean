/-
Sweeps find the rows without content.

A sweep does not ask for the key of a row. It lists what starts as the keys of the rows' spaces do, page by page, and
takes for missing what is not among that. Since the key of a row is the start of its space with the id after it
(`Location.key_eq_start`), whatever text the space is, it finds each content that is there, and no other can be taken
for it. So a sweep that nothing strikes removes the rows without content and no others (`sweep_exact`).
-/
import Depot.Proofs.InStep
import Depot.Proofs.Prefixes

namespace Depot

open World Key

variable {l : Location} {w : World} {e : Entry} {as : List Arrival} {site : Site}

/-! ## Rows that have a place -/

/-- the contents of all rows have a place: their ids are segments and not the last name of the location, and their keys
are accepted -/
structure Placed (l : Location) (w : World) : Prop where
  ids : ∀ e ∈ w.files.rows, IsSegment e.id ∧ e.id ≠ l.lastName
  keys : ∀ e ∈ w.files.rows, ∃ k, l.key e.space e.id = .ok k

/-- uploads bring rows that have a place, if their ids are such -/
theorem Stored.placed (h : Stored l as w) (ids : ∀ a ∈ as, IsSegment a.id ∧ a.id ≠ l.lastName) : Placed l w := by
  refine ⟨?_, ?_⟩
  · intro e he
    obtain ⟨a, ha, row, -⟩ := h.rows e he
    rw [row.id]
    exact ids a ha
  · intro e he
    obtain ⟨a, -, row, k, hk⟩ := h.rows e he
    exact ⟨k, by rw [row.space, row.id, hk]⟩

namespace Placed

theorem of_rows {t : World} (h : Placed l w) (sub : ∀ e ∈ t.files.rows, e ∈ w.files.rows) : Placed l t :=
  ⟨fun e he => h.ids e (sub e he), fun e he => h.keys e (sub e he)⟩

theorem start (h : Placed l w) (he : e ∈ w.files.rows) : ∃ start, l.start (some e.space) = .ok start ∧
    ∀ k, l.key e.space e.id = .ok k → Bucket.startsWith start k = true := by
  obtain ⟨hid, other⟩ := h.ids e he
  obtain ⟨k, hk⟩ := h.keys e he
  obtain ⟨start, hstart, rfl⟩ := Location.key_eq_start hid other hk
  refine ⟨start, hstart, ?_⟩
  intro k' hk'
  obtain rfl := Except.ok.inj (hk.symm.trans hk')
  rw [Location.startsWith_iff, String.toList_append]
  exact List.prefix_append _ _

/-- **A sweep finds just the contents that are there.** -/
theorem finds_iff (h : Placed l w) (he : e ∈ w.files.rows) : w.Finds l w.files.rows e ↔ w.HasContent l e := by
  constructor
  · intro ⟨k, o, hk, ho, _⟩
    exact ⟨k, o, hk, ho⟩
  · intro ⟨k, o, hk, ho⟩
    obtain ⟨start, hstart, below⟩ := h.start he
    exact ⟨k, o, hk, ho, some e.space, List.mem_map_of_mem he, start, hstart, below k hk⟩

end Placed

/-! ## Sweeps -/

instance (w : World) (l : Location) (e : Entry) : Decidable (w.HasContent l e) :=
  match h : l.key e.space e.id with
  | .error failure => .isFalse fun ⟨k, _, hk, _⟩ => by cases h.symm.trans hk
  | .ok k => decidable_of_iff ((w.object? k).isSome = true) (by
      rw [Option.isSome_iff_exists]
      constructor
      · intro ⟨o, ho⟩
        exact ⟨k, o, h, ho⟩
      · intro ⟨k', o, hk', ho⟩
        cases h.symm.trans hk'
        exact ⟨o, ho⟩)

namespace World

/-- the rows that have their content -/
def present (w : World) (l : Location) : List Entry :=
  w.files.rows.filter fun e => decide (w.HasContent l e)

/-- the rows that do not -/
def missing (w : World) (l : Location) : List Entry :=
  w.files.rows.filter fun e => !decide (w.HasContent l e)

end World

namespace Files

/-- a sweep of rows that have a place removes those without content -/
structure SweepsAll (l : Location) (w t : World) (r : Except Failure Nat) : Prop where
  outcome : r = .ok (w.missing l).length
  bucket : t.bucket = w.bucket
  rows : t.files.rows = w.present l

/-- the rows that are not found are those without content -/
theorem Sweeps.all {n : Nat} {t : World} {more : List Event} (h : Sweeps l w ⟨.ok n, t, more⟩) (placed : Placed l w) :
    SweepsAll l w t (.ok n) := by
  obtain ⟨found, sub, finds, rows, counted⟩ := h.rows
  have lost : ∀ e ∈ w.files.rows, found.contains e = !decide (w.HasContent l e) := by
    intro e he
    rw [Bool.eq_iff_iff, List.contains_iff_mem, finds e he, placed.finds_iff he]
    simp
  refine ⟨?_, h.bucket, ?_⟩
  · have asked : w.files.select (.withIds (found.map (·.id))) = w.missing l := by
      apply List.filter_congr
      intro e he
      rw [FileTable.holds_withIds sub he, lost e he]
    rw [counted, ← asked, FileTable.length_select_withIds sub]
  · rw [rows]
    apply List.filter_congr
    intro e he
    rw [lost e he, Bool.not_not]

theorem calm_sweepsAll {b : Bucket} {events : List Event} (calm : Calm w) (hb : w.bucket = some b)
    (pages : b.objects.length < site.pageLimit) (placed : Placed site.location w) :
    (sweep site).Ends serve (fun r t _ => SweepsAll site.location w t r) w events := by
  have starts : ∀ e ∈ w.files.rows, ∃ start, site.location.start (some e.space) = .ok start := by
    intro e he
    obtain ⟨start, hstart, -⟩ := placed.start he
    exact ⟨start, hstart⟩
  refine ((calm_sweep calm hb pages starts placed.keys).and sweep_sweeps).mono ?_
  intro r t more ⟨⟨n, returned, _⟩, sweeps⟩
  subst returned
  exact sweeps.all placed

/-- **A sweep that nothing strikes** removes the rows without content. -/
theorem perform_sweep (bucket : w.bucket.isSome) (placed : Placed site.location w)
    (spared : (sweep (w.provide site)).Spared w.cleared) :
    SweepsAll site.location w (w.perform site sweep).state (w.perform site sweep).outcome := by
  obtain ⟨b, hb⟩ := Option.isSome_iff_exists.1 bucket
  have pages : b.objects.length < (w.provide site).pageLimit := by
    show b.objects.length < w.bucket.elim 0 (·.objects.length) + 1
    rw [hb]
    exact Nat.lt_succ_self _
  have calm : (sweep (w.provide site)).Ends serve (fun r t _ => SweepsAll site.location w t r) w.cleared.calmed [] :=
    (calm_sweepsAll w.cleared.calm_calmed hb pages ⟨placed.ids, placed.keys⟩).mono fun r t more h =>
      ⟨h.outcome, h.bucket, h.rows⟩
  have ends := spared.ends_calmed.1 calm
  exact run_of_ends (ends.mono fun r t more h => (⟨h.outcome, h.bucket, h.rows⟩ : SweepsAll site.location w t r))

end Files

/-- **A sweep removes the rows without content and nothing else.** Where each row has a place, whatever is in the bucket,
a sweep that nothing strikes gives the number of rows without content, and removes these; all other rows and the bucket
stay as they are. After it each row has its content, and another sweep finds none to remove. -/
theorem sweep_exact (site : Site) (w : World) (bucket : w.bucket.isSome) (placed : Placed site.location w)
    (spared : (Files.sweep (w.provide site)).Spared w.cleared) :
    (w.perform site Files.sweep).outcome = .ok (w.missing site.location).length ∧
    (w.perform site Files.sweep).state.files.rows = w.present site.location ∧
    (w.perform site Files.sweep).state.bucket = w.bucket ∧
    (∀ e ∈ (w.perform site Files.sweep).state.files.rows,
      (w.perform site Files.sweep).state.HasContent site.location e) ∧
    ∀ v, SameStores (w.perform site Files.sweep).state v → (Files.sweep (v.provide site)).Spared v.cleared →
      (v.perform site Files.sweep).outcome = .ok 0 ∧ SameStores v (v.perform site Files.sweep).state := by
  obtain ⟨outcome, kept, rows⟩ := Files.perform_sweep bucket placed spared
  have content : ∀ e ∈ (w.perform site Files.sweep).state.files.rows,
      (w.perform site Files.sweep).state.HasContent site.location e := by
    intro e he
    rw [rows] at he
    obtain ⟨k, o, hk, ho⟩ := of_decide_eq_true (List.mem_filter.1 he).2
    exact ⟨k, o, hk, by rwa [object?, kept]⟩
  refine ⟨outcome, rows, kept, content, ?_⟩
  intro v same again
  have all : ∀ e ∈ v.files.rows, v.HasContent site.location e := by
    intro e he
    obtain ⟨k, o, hk, ho⟩ := content e (same.files ▸ he)
    exact ⟨k, o, hk, (same.object? k).trans ho⟩
  have still : Placed site.location v := by
    apply placed.of_rows
    intro e he
    rw [same.files, rows] at he
    exact List.mem_of_mem_filter he
  obtain ⟨outcome', kept', rows'⟩ := Files.perform_sweep (same.bucket ▸ kept ▸ bucket) still again
  have nothing : v.missing site.location = [] := by
    apply List.filter_eq_nil_iff.2
    intro e he
    simp [all e he]
  have whole : v.present site.location = v.files.rows := by
    apply List.filter_eq_self.2
    intro e he
    simp [all e he]
  refine ⟨by rw [outcome', nothing]; rfl, kept', ?_⟩
  exact FileTable.eq_of_rows (rows'.trans whole)

/-- two uploads, one to a space that is not a segment, and a content that is lost -/
def lostOfTwo : World :=
  let w := after .top .fresh [.upload "./s" "1", .upload "a/b" "2"]
  { w with bucket := w.bucket.map fun b => (b.erase ["a/b/2"]).put "s/2" ⟨.empty, []⟩ }

theorem sweep_exact_lostOfTwo :
    Placed .top lostOfTwo ∧ (lostOfTwo.perform (.standard .top) Files.sweep).outcome = .ok 1 ∧
    ∃ e ∈ (lostOfTwo.perform (.standard .top) Files.sweep).state.files.rows, e.space = "./s" := by
  have stored := after_stored .top [.upload "./s" "1", .upload "a/b" "2"]
  have placed : Placed .top lostOfTwo := by
    have brought := stored.placed (by decide +kernel)
    exact ⟨brought.ids, brought.keys⟩
  obtain ⟨outcome, rows, -⟩ := sweep_exact (.standard .top) lostOfTwo (by decide +kernel) placed
    (Prog.spared_of_calm _ ⟨rfl, rfl, rfl⟩)
  refine ⟨placed, outcome.trans ?_, ?_⟩
  · decide +kernel
  · rw [rows]
    decide +kernel

end Depot
