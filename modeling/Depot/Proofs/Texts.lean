/-
The texts of a content agree with the row of its entry.

A content is kept with the namespace of its entry, percent-encoded, and with its time in ISO 8601 and on the clock it was
read from. Both are read back as they were: no namespace is no text, and the empty one is an empty text. The row has the time
in UTC, which is the same instant. So a bulk deletion by a namespace or by a time selects the content just if the database
selects the row (`texts_agree_with_row`).
-/
import Depot.Proofs.RoundTrip
import Depot.Proofs.Stocks

namespace Depot

open World

variable {site : Site} {e : Entry} {w v : World} {key : String} {utc : Time.Timestamp} {events : List Event}

/-- a clock whose distance from UTC is of whole minutes -/
def Time.Timestamp.InMinutes (time : Timestamp) : Prop :=
  ∃ minutes : Int, time.offset = some (minutes * minute)

theorem Time.Timestamp.InMinutes.regular {time : Timestamp} (h : time.InMinutes) : time.Regular := by
  obtain ⟨minutes, offset⟩ := h
  intro o ho
  rw [offset, Option.mem_def, Option.some.injEq] at ho
  have units : minute = 60000000 ∧ second = 1000000 := ⟨rfl, rfl⟩
  rw [← ho, units.1, units.2]
  omega

/-! ## Selections and rows -/

/-- a selection by the namespace in a space, or by a time of which the date in UTC is known -/
def Selection.ByTexts (space : String) : Selection → Prop
  | .inNamespace space' _ => space' = space
  | .inSpaces _ => False
  | .before cutoff => cutoff.offset.isSome = true ∧ cutoff.toUtc? ≠ none

namespace Selection.ByTexts

variable {selection : Selection} {space : String}

theorem query (h : selection.ByTexts space) : ∃ q, Files.prepare (Files.queryOf selection) = pure q ∧
    q.isEmpty = false ∧ ∀ e, q.holds e = (Files.queryOf selection).holds e := by
  cases selection with
  | inNamespace => exact ⟨_, rfl, rfl, fun _ => rfl⟩
  | inSpaces => exact h.elim
  | before cutoff =>
    obtain ⟨cut, dated⟩ := Option.ne_none_iff_exists'.1 h.2
    refine ⟨.before cut, ?_, rfl, fun e => ?_⟩
    · rw [Files.queryOf, Files.prepare, Retention.inUtc_eq dated, LawfulMonad.pure_bind]
    · simp only [Files.queryOf, FileQuery.holds, Time.Timestamp.instant_toUtc? dated]

/-- **An object with the texts of an entry is wanted just if its row is asked for.** -/
theorem wants_iff_holds (h : selection.ByTexts e.space) (clock : e.modified.InMinutes) (dated : e.modified.toUtc? = some utc)
    {content : ByteArray} : selection.Wants ⟨content, Content.metadataOf e⟩ ↔
      (Files.queryOf selection).holds { e with modified := utc } = true := by
  cases selection with
  | inNamespace space ns =>
    obtain rfl : space = e.space := h
    simp [Selection.Wants, Content.namespaceIn_metadataOf, Files.queryOf, FileQuery.holds]
  | inSpaces => exact h.elim
  | before cutoff =>
    have aware : e.modified.offset.isSome = cutoff.offset.isSome := by
      obtain ⟨minutes, offset⟩ := clock
      rw [h.1, offset, Option.isSome_some]
    simp [Selection.Wants, Content.timeIn_metadataOf clock.regular, Time.Timestamp.isBefore?, aware, Files.queryOf,
      FileQuery.holds, Time.Timestamp.instant_toUtc? dated]

theorem canTell (h : selection.ByTexts e.space) (clock : e.modified.InMinutes) {content : ByteArray} :
    selection.CanTell ⟨content, Content.metadataOf e⟩ := by
  cases selection with
  | before cutoff =>
    intro time read
    rw [Content.timeIn_metadataOf clock.regular, Option.mem_def, Option.some.injEq] at read
    obtain ⟨minutes, offset⟩ := clock
    rw [← read, Time.Timestamp.isBefore?, h.1, offset, Option.isSome_some, if_pos rfl]
    exact Option.some_ne_none _
  | _ => trivial

end Selection.ByTexts

theorem Content.put_there {content : ByteArray} (hkey : site.location.key e.space e.id = .ok key)
    (kept : (w.run (put site e content)).outcome = .ok ()) :
    key ≠ "" ∧ (w.run (put site e content)).state.object? key = some ⟨content, metadataOf e⟩ := by
  refine ⟨run_of_ends (put_named e content) kept key hkey, ?_⟩
  rcases run_of_ends (put_ends e content) with ⟨failure, failed, -⟩ | ⟨-, key', b, hkey', hb, ht, -⟩
  · cases failed.symm.trans kept
  · obtain rfl := Except.ok.inj (hkey.symm.trans hkey')
    rw [object?_put hb ht, if_pos rfl]

/-- **The texts of a content are read back as they were, and agree with the row.** Let the content of an entry be kept, whose
namespace may be any and whose time has a date in UTC and is from a clock that is whole minutes ahead of UTC or behind it,
and take any stores in which the object is as it was left and no fault strikes. Then
- the namespace and the time that are read from the object are those of the entry;
- a selection by a namespace in the space, or by a time that has a date in UTC, selects the object just if the rows that the
database gives for it include the row of the entry, if it has that row. -/
theorem texts_agree_with_row (site : Site) (e : Entry) (clock : e.modified.InMinutes) (utc : Time.Timestamp)
    (dated : e.modified.toUtc? = some utc) (key : String) (hkey : site.location.key e.space e.id = .ok key)
    (content : ByteArray) (w : World) (kept : (w.run (Content.put site e content)).outcome = .ok ()) (v : World)
    (there : v.object? key = (w.run (Content.put site e content)).state.object? key) (unstruck : v.strikes = []) :
    ((v.run (Content.namespaceOf key)).outcome = .ok e.namespace_ ∧
      (v.run (Content.modifiedOf key)).outcome = .ok (some e.modified)) ∧
    ∀ selection : Selection, selection.ByTexts e.space → { e with modified := utc } ∈ v.files.rows →
      ∃ selected rows, (v.run (Content.selects selection key)).outcome = .ok selected ∧
        (v.run (Files.select (Files.queryOf selection))).outcome = .ok rows ∧
        (selected = true ↔ { e with modified := utc } ∈ rows) := by
  obtain ⟨named, object⟩ := Content.put_there hkey kept
  rw [object] at there
  refine ⟨⟨?_, ?_⟩, fun selection asked row => ?_⟩
  · obtain ⟨ns, read, same, -⟩ := run_of_ends (Content.unstruck_namespaceOf unstruck named there)
    rw [read, same, Content.namespaceIn_metadataOf]
  · obtain ⟨time, read, same, -⟩ := run_of_ends (Content.unstruck_modifiedOf unstruck named there)
    rw [read, same, Content.timeIn_metadataOf clock.regular]
  · obtain ⟨q, prepared, asks, means⟩ := asked.query
    obtain ⟨selected, given, -, told⟩ := run_of_ends (Content.unstruck_selects unstruck named fun _ =>
      ⟨_, there, asked.canTell clock⟩)
    refine ⟨selected, _, given, run_of_ends (Files.unstruck_select unstruck prepared asks), ?_⟩
    rw [told _ there, asked.wants_iff_holds clock dated, ← means]
    exact ⟨fun held => List.mem_filter.2 ⟨row, held⟩, fun mem => (List.mem_filter.1 mem).2⟩

/-- an entry with a namespace that is to be encoded, of half past noon on a clock two and a half hours ahead of UTC -/
def aheadEntry : Entry :=
  ⟨"1", "s", some "50% ä/", "a.txt", 0, "", "sha1", (Time.Timestamp.of? ⟨2024, 2, 29⟩ (25 * 30 * Time.minute)
    (some (150 * Time.minute))).getD default⟩

/-- the time itself is a cutoff that neither selects the object nor the row -/
theorem texts_agree_with_row_aheadEntry :
    let key := "s/1"
    let row := { aheadEntry with modified := (aheadEntry.modified.toUtc?).getD default }
    let kept := World.fresh.run (Content.put (.standard .top) aheadEntry .empty)
    let v : World := { kept.state with files := ⟨[row], List.nodup_singleton _⟩ }
    (aheadEntry.modified.InMinutes ∧ kept.outcome = .ok () ∧ v.strikes = []) ∧
    ((v.run (Content.namespaceOf key)).outcome = .ok (some "50% ä/") ∧
      (v.run (Content.modifiedOf key)).outcome = .ok (some aheadEntry.modified)) ∧
    ∃ selected rows, (v.run (Content.selects (.before aheadEntry.modified) key)).outcome = .ok selected ∧
      (v.run (Files.select (.before aheadEntry.modified))).outcome = .ok rows ∧ (selected = true ↔ row ∈ rows) := by
  intro key row kept v
  have clock : aheadEntry.modified.InMinutes := ⟨150, by decide +kernel⟩
  have aware : aheadEntry.modified.offset.isSome = true ∧ aheadEntry.modified.toUtc? ≠ none := by decide +kernel
  have dated : aheadEntry.modified.toUtc? = some row.modified := by decide +kernel
  have ok : kept.outcome = .ok () := by decide +kernel
  have unstruck : v.strikes = [] := by decide +kernel
  obtain ⟨read, selected⟩ := texts_agree_with_row (.standard .top) aheadEntry clock row.modified dated key (by decide +kernel)
    .empty World.fresh ok v rfl unstruck
  exact ⟨⟨clock, ok, unstruck⟩, read, selected (.before aheadEntry.modified) aware (List.mem_singleton_self row)⟩

end Depot
