/-
Contents stay what was uploaded.

However many uploads, deletions, sweeps, cleanups and commands there were, and whatever failed among them, an object
holds the content, the namespace and the time of the one upload with its key, and agrees with the row of that upload
(`contents_intact`). No step puts another object in its place (`object_unaltered`). This needs that the ids of uploads
are segments of paths, as ids of 32 hexadecimal digits are (`isSegment_idText`), and that no two of them are the same;
the spaces, names and ids that callers give may be anything.
-/
import Mathlib.Data.List.Nodup
import Depot.Proofs.Deletion
import Depot.Proofs.History
import Depot.Proofs.Iso
import Depot.Proofs.Keys
import Depot.Proofs.Percent

namespace Depot

open World

variable {l : Key.Location} {w : World} {a : Arrival} {e : Entry} {o : Object} {k : String} {as : List Arrival}

/-! ## Objects and rows of one upload -/

theorem Content.namespaceIn_metadataOf (e : Entry) : namespaceIn (metadataOf e) = e.namespace_ := by
  have differ : (namespaceName == modifiedName) = false := by decide
  cases h : e.namespace_ with
  | none => simp [namespaceIn, metadataOf, h, List.lookup_cons, differ]
  | some ns => simp [namespaceIn, metadataOf, h, List.lookup_cons, differ, Text.Percent.decode_encode]

theorem Content.timeIn_metadataOf {e : Entry} (h : e.modified.Regular) : timeIn (metadataOf e) = some e.modified := by
  simp [timeIn, metadataOf, Time.Timestamp.ofIso?_iso h]

/-- an object holds the content, the namespace and the time of an upload -/
structure Arrival.KeptIn (a : Arrival) (o : Object) : Prop where
  content : o.content = a.content
  namespace_ : Content.namespaceIn o.metadata = a.namespace_
  modified : Content.timeIn o.metadata = some a.modified

theorem Arrival.keptIn_object (h : a.modified.Regular) : a.KeptIn a.object :=
  ⟨rfl, Content.namespaceIn_metadataOf _, Content.timeIn_metadataOf h⟩

/-- an object has the size, the digest and the namespace of a row, and a time at the same instant -/
structure Entry.Describes (e : Entry) (o : Object) : Prop where
  size : e.size = o.content.size
  digest : ∃ algorithm h, Digest.algorithmOf e.algorithm = .ok algorithm ∧ algorithm.function? = some h ∧
    e.digest = Hash.hexText (h.hash o.content)
  namespace_ : Content.namespaceIn o.metadata = e.namespace_
  modified : ∃ time, Content.timeIn o.metadata = some time ∧ time.instant = e.modified.instant

theorem Arrival.Row.describes (row : a.Row e) (kept : a.KeptIn o) : e.Describes o where
  size := by rw [row.size, kept.content]
  digest := kept.content ▸ row.digest.2
  namespace_ := by rw [kept.namespace_, row.namespace_]
  modified := ⟨a.modified, kept.modified, (Time.Timestamp.instant_toUtc? row.modified).symm⟩

/-! ## Steps -/

/-- **A step leaves each object as it is or removes it.** -/
theorem Stored.object_unaltered (h : Stored l as w) {s : Step} (ids : Identified (as ++ s.arrival?.toList))
    (ho : w.object? k = some o) : (s.run l w).state.object? k = some o ∨ (s.run l w).state.object? k = none := by
  cases ha : s.arrival? with
  | none =>
    cases hk : (s.run l w).state.object? k with
    | none => exact .inr rfl
    | some o' => exact .inl (((s.shrinks ha).objects k o' hk).symm.trans ho ▸ rfl)
  | some a =>
    rw [ha, Option.toList_some] at ids
    rcases s.brings ha (l := l) (w := w) with same | ⟨key, b, hkey, hb, ht, -⟩
    · exact .inl ((same.object? k).trans ho)
    · rw [object?_put hb ht, if_neg, ho]
      · exact .inl rfl
      · rintro rfl
        obtain ⟨a', ha', hkey', -⟩ := h.objects k o ho
        have same : a' = a := ids.eq_of_key (List.mem_append_left _ ha') (by simp) hkey' hkey
        have := ids.distinct
        rw [List.map_append, List.nodup_append] at this
        exact this.2.2 a'.id (List.mem_map_of_mem ha') a.id (by simp) (congrArg Arrival.id same)

/-! ## Histories -/

/-- **Contents are kept as they were uploaded.** In the stores after any history, each object holds the content, the
namespace and the time of the one upload with its key; each row whose key holds an object describes it; and each step
of the history left every object that was there as it was, or removed it. -/
theorem contents_intact (l : Key.Location) (steps : List Step) (ids : Identified (arrivals steps))
    (clocks : ∀ s ∈ steps, s.around.clock.Regular) :
    (∀ k o, (after l .fresh steps).object? k = some o →
      ∃ a ∈ arrivals steps, a.KeptIn o ∧ ∀ b ∈ arrivals steps, l.key b.space b.id = .ok k ↔ b = a) ∧
    (∀ e ∈ (after l .fresh steps).files.rows, ∀ k o, l.key e.space e.id = .ok k →
      (after l .fresh steps).object? k = some o → e.Describes o) ∧
    ∀ before s later, steps = before ++ s :: later → ∀ k o, (after l .fresh before).object? k = some o →
      (after l .fresh (before ++ [s])).object? k = some o ∨ (after l .fresh (before ++ [s])).object? k = none := by
  have stored := after_stored l steps
  have kept : ∀ a ∈ arrivals steps, a.KeptIn a.object := by
    intro a ha
    obtain ⟨s, hs, made⟩ := mem_arrivals.1 ha
    exact Arrival.keptIn_object (s.arrival?_modified made ▸ clocks s hs)
  refine ⟨fun k o ho => ?_, fun e he k o hkey ho => ?_, fun before s later split k o ho => ?_⟩
  · obtain ⟨a, ha, hkey, rfl⟩ := stored.objects k o ho
    exact ⟨a, ha, kept a ha, fun b hb => ⟨fun hkb => ids.eq_of_key hb ha hkb hkey, fun same => same ▸ hkey⟩⟩
  · obtain ⟨a, ha, hka, rfl⟩ := stored.objects k o ho
    obtain ⟨b, hb, row, -⟩ := stored.rows e he
    have same : b = a := ids.eq_of_key hb ha (row.space ▸ row.id ▸ hkey) hka
    exact (same ▸ row).describes (kept a ha)
  · rw [after_snoc]
    refine (after_stored l before).object_unaltered ?_ ho
    rw [split, arrivals_append, arrivals_cons, ← List.append_assoc] at ids
    exact ids.of_append

/-- uploads to two spaces whose paths are cleaned to one -/
def likeSpaces : List Step :=
  [.upload "s" (Execution.idText 1), .upload "t/../s" (Execution.idText 2)]

theorem contents_intact_likeSpaces :
    (Identified (arrivals likeSpaces) ∧ ∀ s ∈ likeSpaces, s.around.clock.Regular) ∧
      ∃ o, (after .top .fresh likeSpaces).object? ("s/" ++ Execution.idText 2) = some o ∧
        ∃ a ∈ arrivals likeSpaces, a.space = "t/../s" ∧ a.KeptIn o := by
  have ids : Identified (arrivals likeSpaces) := ⟨by decide +kernel, by decide +kernel⟩
  have clocks : ∀ s ∈ likeSpaces, s.around.clock.Regular := by decide +kernel
  obtain ⟨o, ho⟩ : ∃ o, (after .top .fresh likeSpaces).object? ("s/" ++ Execution.idText 2) = some o :=
    Option.isSome_iff_exists.1 (by decide +kernel)
  obtain ⟨b, hb, space, hkey⟩ : ∃ b ∈ arrivals likeSpaces, b.space = "t/../s" ∧
      Key.Location.top.key b.space b.id = .ok ("s/" ++ Execution.idText 2) := by decide +kernel
  obtain ⟨a, ha, kept, only⟩ := (contents_intact .top likeSpaces ids clocks).1 _ o ho
  exact ⟨⟨ids, clocks⟩, o, ho, a, ha, (only b hb).1 hkey ▸ space, kept⟩

end Depot
