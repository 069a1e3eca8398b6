/-
Bulk deletions find rows and contents of the same uploads.

In a `PlainHistory` uploads have ids of their own, spaces and ids are segments, and times read back; a row and the
object at its key then come from the same upload (`Grounded.shared`). A selection finds rows by what the database keeps
of them, and contents by their keys and texts. A content that is picked is one whose row is asked for
(`holds_of_picks`), and the other way round where the cutoff can be compared with the time (`picks_of_holds`).
-/
import Depot.Proofs.Integrity

namespace Depot

open World Key

variable {l : Location} {w : World} {s : Step} {steps : List Step} {a : Arrival} {as : List Arrival} {e : Entry}
  {o : Object} {k space : String} {selection : Selection}

/-! ## Plain histories -/

/-- an operation of the file service or the cleanup; the spaces and ids by which it changes something are segments -/
def Operation.Plain : Operation → Prop
  | .add space .. | .addExisting space .. | .deleteNamespace space _ => IsSegment space
  | .delete space id => IsSegment space ∧ IsSegment id
  | .deleteSpaces spaces => ∀ space ∈ spaces, IsSegment space
  | .call .. | .manage .. => False
  | _ => True

instance : (o : Operation) → Decidable o.Plain
  | .add space .. | .addExisting space .. | .deleteNamespace space _ => inferInstanceAs (Decidable (IsSegment space))
  | .delete space id => inferInstanceAs (Decidable (IsSegment space ∧ IsSegment id))
  | .deleteSpaces spaces => inferInstanceAs (Decidable (∀ space ∈ spaces, IsSegment space))
  | .call .. | .manage .. => inferInstanceAs (Decidable False)
  | .get .. | .list .. | .process .. | .deleteBefore _ | .sweep | .cleanup .. => inferInstanceAs (Decidable True)

/-- an operation that takes something from the stores -/
def Operation.removes : Operation → Bool
  | .delete .. | .deleteNamespace .. | .deleteSpaces _ | .deleteBefore _ | .sweep | .cleanup .. => true
  | _ => false

/-- plain operations that are no uploads and take nothing from the stores only read -/
theorem Operation.only_reads {site : Site} {o : Operation} (plain : o.Plain) (upload : o.isUpload = false) (kept : o.removes = false) :
    (o.program site).Only Call.Reads := by
  cases o with
  | get space id => exact (Files.only_get (fun _ => trivial) space id).void
  | list space ns => exact (Files.only_list (fun _ => trivial) space ns).void
  | process space id receiver => exact (Files.only_process space id receiver).void
  | add | addExisting => cases upload
  | delete | deleteNamespace | deleteSpaces | deleteBefore | sweep | cleanup => cases kept
  | call | manage => exact plain.elim

/-- a history of plain operations whose uploads have ids of their own, while the clock shows times that read back, as a
clock in UTC does -/
structure PlainHistory (steps : List Step) : Prop where
  ids : Identified (arrivals steps)
  operations : ∀ s ∈ steps, s.operation.Plain
  clocks : ∀ s ∈ steps, s.around.clock.Regular

theorem Step.arrival?_space (h : s.arrival? = some a) (plain : s.operation.Plain) : IsSegment a.space := by
  obtain ⟨settings, around, operation⟩ := s
  cases operation with
  | add => cases h; exact plain
  | addExisting =>
    obtain ⟨content, -, rfl⟩ := Option.map_eq_some_iff.1 h
    exact plain
  | _ => cases h

/-- the space and the id of an upload are segments -/
structure Arrival.Plain (a : Arrival) : Prop where
  space : IsSegment a.space
  id : IsSegment a.id

/-- whatever is in the stores comes from plain uploads with ids of their own -/
structure Grounded (l : Key.Location) (as : List Arrival) (w : World) : Prop where
  stored : Stored l as w
  ids : Identified as
  plain : ∀ a ∈ as, a.Plain
  clocks : ∀ a ∈ as, a.modified.Regular

theorem PlainHistory.grounded (h : PlainHistory steps) : Grounded l (arrivals steps) (after l .fresh steps) := by
  refine ⟨after_stored l steps, h.ids, fun a ha => ?_, fun a ha => ?_⟩
  · obtain ⟨s, hs, made⟩ := mem_arrivals.1 ha
    exact ⟨s.arrival?_space made (h.operations s hs), h.ids.segments a ha⟩
  · obtain ⟨s, hs, made⟩ := mem_arrivals.1 ha
    exact s.arrival?_modified made ▸ h.clocks s hs

theorem PlainHistory.of_append {more : List Step} (h : PlainHistory (steps ++ more)) : PlainHistory steps :=
  ⟨(arrivals_append ▸ h.ids).of_append, fun s hs => h.operations s (List.mem_append_left _ hs),
    fun s hs => h.clocks s (List.mem_append_left _ hs)⟩

namespace Grounded

theorem then_same {t : World} (h : Grounded l as w) (same : SameStores w t) : Grounded l as t :=
  ⟨h.stored.shrink same.shrinks, h.ids, h.plain, h.clocks⟩

theorem row_plain (h : Grounded l as w) (he : e ∈ w.files.rows) : IsSegment e.space ∧ IsSegment e.id := by
  obtain ⟨a, ha, row, -⟩ := h.stored.rows e he
  exact ⟨row.space ▸ (h.plain a ha).space, row.id ▸ (h.plain a ha).id⟩

theorem shared (h : Grounded l as w) (he : e ∈ w.files.rows) (hk : l.key e.space e.id = .ok k)
    (ho : w.object? k = some o) : ∃ a ∈ as, a.Plain ∧ l.key a.space a.id = .ok k ∧ a.Row e ∧ a.KeptIn o := by
  obtain ⟨a, ha, hka, row, rfl⟩ := h.stored.shared h.ids he hk ho
  exact ⟨a, ha, h.plain a ha, hka, row, Arrival.keptIn_object (h.clocks a ha)⟩

end Grounded

/-! ## Selections -/

/-- the spaces that a selection names are segments -/
def Selection.Plain : Selection → Prop
  | .inNamespace space _ => IsSegment space
  | .inSpaces spaces => ∀ space ∈ spaces, IsSegment space
  | .before _ => True

/-- where contents are kept under a space, and whether a key is there -/
theorem start_reaches (hspace : IsSegment space) (plain : a.Plain) (hk : l.key a.space a.id = .ok k) :
    (∃ start, l.start (some space) = .ok start ∧ Bucket.startsWith start k = true) ↔ space = a.space := by
  have sound := Location.sound_of_key plain.space plain.id hk
  rw [Location.start_space sound hspace, Location.key_eq plain.space plain.id hk]
  constructor
  · rintro ⟨start, ⟨⟩, starts⟩
    exact (Location.startsWith_key hspace plain.space).1 starts
  · exact fun same => ⟨_, rfl, (Location.startsWith_key hspace plain.space).2 same⟩

/-- a selection looks for an upload's content where it is if it asks for its space -/
theorem reaches_iff (hselection : selection.Plain) (plain : a.Plain) (hk : l.key a.space a.id = .ok k) :
    selection.Reaches l k ↔ match selection with
      | .inNamespace space _ => space = a.space
      | .inSpaces spaces => a.space ∈ spaces
      | .before _ => True := by
  cases selection with
  | inNamespace space ns =>
    simp only [Selection.Reaches, Content.Among, Content.searched, List.mem_singleton, exists_eq_left]
    exact start_reaches hselection plain hk
  | inSpaces spaces =>
    simp only [Selection.Reaches, Content.Among, Content.searched, List.mem_map, exists_exists_and_eq_and]
    constructor
    · rintro ⟨space, hspace, reached⟩
      exact (start_reaches (hselection space hspace) plain hk).1 reached ▸ hspace
    · exact fun hspace => ⟨a.space, hspace, (start_reaches plain.space plain hk).2 rfl⟩
  | before cutoff =>
    simp only [Selection.Reaches, Content.Among, Content.searched, List.mem_singleton, exists_eq_left, iff_true]
    refine ⟨l.folder, Location.start_all (Location.sound_of_key plain.space plain.id hk), ?_⟩
    rw [Location.key_eq plain.space plain.id hk]
    exact Location.startsWith_folder a.space a.id

/-- **A picked content is one whose row is asked for.** -/
theorem holds_of_picks (hselection : selection.Plain) (plain : a.Plain) (hk : l.key a.space a.id = .ok k)
    (kept : a.KeptIn o) (row : a.Row e) (picked : selection.Picks l k o) : (Files.queryOf selection).holds e = true := by
  obtain ⟨reached, wanted⟩ := picked
  rw [reaches_iff hselection plain hk] at reached
  cases selection with
  | inNamespace space ns =>
    have : e.namespace_ = ns := row.namespace_.trans (kept.namespace_.symm.trans wanted)
    simp [Files.queryOf, FileQuery.holds, row.space, this, show space = a.space from reached]
  | inSpaces spaces => simpa [Files.queryOf, FileQuery.holds, row.space] using reached
  | before cutoff =>
    obtain ⟨time, read, before⟩ := wanted
    obtain rfl : a.modified = time := Option.some.inj (kept.modified.symm.trans read)
    rw [Time.Timestamp.isBefore?] at before
    split at before
    · simpa [Files.queryOf, FileQuery.holds, Time.Timestamp.instant_toUtc? row.modified] using before
    · cases before

/-- whether a selection can compare its cutoff with a time -/
def Selection.Compares : Selection → Time.Timestamp → Prop
  | .before cutoff, time => time.offset.isSome = cutoff.offset.isSome
  | _, _ => True

/-- **A content whose row is asked for is picked.** -/
theorem picks_of_holds (hselection : selection.Plain) (plain : a.Plain) (hk : l.key a.space a.id = .ok k)
    (kept : a.KeptIn o) (row : a.Row e) (comparable : selection.Compares a.modified)
    (holds : (Files.queryOf selection).holds e = true) : selection.Picks l k o := by
  rw [Selection.Picks, reaches_iff hselection plain hk]
  cases selection with
  | inNamespace space ns =>
    simp only [Files.queryOf, FileQuery.holds, Bool.and_eq_true, beq_iff_eq] at holds
    exact ⟨holds.1.symm.trans row.space, (kept.namespace_.trans row.namespace_.symm).trans holds.2⟩
  | inSpaces spaces =>
    refine ⟨?_, trivial⟩
    simpa [Files.queryOf, FileQuery.holds, row.space] using holds
  | before cutoff =>
    refine ⟨trivial, a.modified, kept.modified, ?_⟩
    rw [Time.Timestamp.isBefore?, if_pos (show a.modified.offset.isSome = cutoff.offset.isSome from comparable)]
    simpa [Files.queryOf, FileQuery.holds, Time.Timestamp.instant_toUtc? row.modified] using holds

end Depot
