/-
Contents that are reached by another name.

Rows are found by their space and id as they are, contents by a key that is made of both and cleaned: `./s` and `s`
have the same keys, and the keys of `a/b` are below those of `a`. So an operation on one space may reach a content of
another.

Reading a file gives out, and deleting it removes, a content that was uploaded under another space or id just if that
has the same key (`isolated_iff`). Deleting whole spaces or a namespace takes the content of a row that was not asked
for just if its key is below one of the spaces (`unasked_keeps_content_iff`); the row stays then without its content.
Neither happens where spaces and ids are segments.
-/
import Depot.Proofs.Consistency
import Depot.Proofs.Retry

namespace Depot

open World Key

variable {l : Location} {w t u : World} {as : List Arrival} {steps : List Step} {a : Arrival} {e : Entry} {o : Object}
  {k space id : String} {site : Site} {events : List Event} {selection : Selection}

/-! ## One file -/

namespace Files

variable {α : Type} {receiver : ByteArray → Except Fault α}

theorem process_ends (space id : String) (receiver : ByteArray → Except Fault α) :
    (process site space id receiver).Ends serve (fun r _ _ => ∀ given, r = .ok given → ∃ k o,
      site.location.key space id = .ok k ∧ w.object? k = some o ∧ given = receiver o.content) w events := by
  unfold process Content.process Content.openContent
  cases hk : site.location.key space id with
  | error failure =>
    intro given ok
    cases ok
  | ok k =>
    rw [Prog.ofExcept_ok_bind, LawfulMonad.bind_assoc, Op.ends_ask_bind]
    rcases serve_get w k with ⟨f, reply⟩ | ⟨o, ho, reply⟩
    · rw [reply]
      dsimp only
      unfold Content.openFailure
      split
      · intro given ok
        cases ok
      · split
        · intro given ok
          cases ok
        · intro given ok
          cases ok
    · rw [reply]
      rintro given ⟨⟩
      exact ⟨k, o, rfl, ho, rfl⟩

theorem unstruck_process (site : Site) (unstruck : w.strikes = []) (hk : site.location.key space id = .ok k) (named : k ≠ "")
    (ho : w.object? k = some o) (receiver : ByteArray → Except Fault α) :
    (process site space id receiver).Ends serve (fun r _ _ => r = .ok (receiver o.content)) w events := by
  unfold process Content.process Content.openContent
  rw [hk, Prog.ofExcept_ok_bind, LawfulMonad.bind_assoc, Op.ends_ask_bind, unstruck_getObject unstruck named ho]
  rfl

end Files

section OneFile

variable (l : Location) (as : List Arrival) (w : World) (space id : String)

def Shares (space' id' : String) : Prop :=
  ∃ k o, l.key space id = .ok k ∧ l.key space' id' = .ok k ∧ w.object? k = some o

/-- reading a file gives out no content but one that was uploaded under its space and id -/
def ReadsOwn : Prop :=
  ∀ (α : Type) (receiver : ByteArray → Except Fault α) (given : Except Fault α) (site : Site) (v : World),
    site.location = l → SameStores w v → (v.run (Files.process site space id receiver)).outcome = .ok given →
      ∃ a ∈ as, a.space = space ∧ a.id = id ∧ given = receiver a.content

/-- deleting a file removes no content but one that was uploaded under its space and id -/
def DeletesOwn : Prop :=
  ∀ (site : Site) (v : World) (k : String) (o : Object), site.location = l → SameStores w v → w.object? k = some o →
    (v.run (Files.delete site space id)).state.object? k = none → ∃ a ∈ as, a.space = space ∧ a.id = id ∧ o = a.object

/-- deleting a file takes no content of a row where it finds no row to remove -/
def SparesRows : Prop :=
  ∀ (site : Site) (v : World) (e : Entry), site.location = l → SameStores w v → e ∈ w.files.rows → w.HasContent l e →
    (v.run (Files.delete site space id)).outcome = .ok false →
      (v.run (Files.delete site space id)).state.HasContent l e

end OneFile

/-- a deletion of one file takes at most the content at its key, and says whether there was a row -/
theorem Files.run_delete (site : Site) (space id : String) (w : World) :
    (∀ k, (w.run (delete site space id)).state.object? k = w.object? k ∨ site.location.key space id = .ok k) ∧
    ∀ there, (w.run (delete site space id)).outcome = .ok there →
      there = decide (0 < (w.files.select (.file space id)).length) := by
  refine run_of_ends (Q := fun r t _ => (∀ k, t.object? k = w.object? k ∨ site.location.key space id = .ok k) ∧
    ∀ there, r = .ok there → there = decide (0 < (w.files.select (.file space id)).length))
    ((delete_ends space id).mono fun r t more ht => ?_)
  rcases ht with ⟨failure, rfl, same⟩ | ⟨key, b, hkey, hb, ht, rows⟩
  · exact ⟨fun k => .inl (same.object? k), by simp⟩
  · refine ⟨?_, ?_⟩
    · intro k
      rw [object?_erase hb ht]
      split
      case isTrue own => exact .inr (List.mem_singleton.1 own ▸ hkey)
      case isFalse => exact .inl rfl
    · intro there ok
      rcases rows with ⟨⟨failure, failed⟩, -⟩ | ⟨done, -⟩
      · cases failed.symm.trans ok
      · exact Except.ok.inj (ok.symm.trans done)

theorem Files.calm_run_delete (site : Site) (calm : Calm w) (ho : w.object? k = some o)
    (hk : site.location.key space id = .ok k) (named : k ≠ "") :
    (w.run (delete site space id)).state.object? k = none ∧
      (w.run (delete site space id)).outcome = .ok (decide (0 < (w.files.select (.file space id)).length)) := by
  obtain ⟨b, hb, -⟩ := Option.bind_eq_some_iff.1 ho
  obtain ⟨there, outcome, count, left, -⟩ := run_of_ends (calm_delete calm hb hk named)
  refine ⟨?_, count ▸ outcome⟩
  rw [left, object?_erase hb rfl, if_pos (List.mem_singleton.2 rfl)]

/-! ## Contents of others -/

section Others

variable (stored : Stored l as w) (ids : Identified as)

include stored ids

theorem named_of_stored (ho : w.object? k = some o) : k ≠ "" := by
  obtain ⟨a, ha, hka, -⟩ := stored.objects k o ho
  exact Location.key_ne_empty (ids.segments a ha) hka

theorem readsOwn_iff : ReadsOwn l as w space id ↔
    ∀ a ∈ as, Shares l w space id a.space a.id → a.space = space ∧ a.id = id := by
  constructor
  · rintro own a ha ⟨k, o, hk, hka, ho⟩
    have given := run_of_ends (Files.unstruck_process (.standard l) (α := Unit) w.calm_calmed.strikes hk
      (named_of_stored stored ids ho) ho fun _ => .ok ())
    obtain ⟨a', ha', hspace, hid, -⟩ := own _ _ _ (.standard l) w.calmed rfl w.calmed_stores given
    obtain rfl := ids.eq_of_key ha ha' hka (hspace.symm ▸ hid.symm ▸ hk)
    exact ⟨hspace, hid⟩
  · rintro apart α receiver given site v rfl same outcome
    obtain ⟨k, o, hk, ho, rfl⟩ := run_of_ends (Files.process_ends space id receiver) given outcome
    rw [same.object?] at ho
    obtain ⟨a, ha, hka, rfl⟩ := stored.objects k o ho
    obtain ⟨hspace, hid⟩ := apart a ha ⟨k, _, hk, hka, ho⟩
    exact ⟨a, ha, hspace, hid, rfl⟩

theorem deletesOwn_iff : DeletesOwn l as w space id ↔
    ∀ a ∈ as, Shares l w space id a.space a.id → a.space = space ∧ a.id = id := by
  constructor
  · rintro own a ha ⟨k, o, hk, hka, ho⟩
    have gone := (Files.calm_run_delete (.standard l) w.calm_calmed ho hk (named_of_stored stored ids ho)).1
    obtain ⟨a', ha', hspace, hid, -⟩ := own (.standard l) w.calmed k o rfl w.calmed_stores ho gone
    obtain rfl := ids.eq_of_key ha ha' hka (hspace.symm ▸ hid.symm ▸ hk)
    exact ⟨hspace, hid⟩
  · rintro apart site v k o rfl same ho gone
    rcases (Files.run_delete site space id v).1 k with kept | hk
    · rw [kept, same.object?, ho] at gone
      cases gone
    · obtain ⟨a, ha, hka, rfl⟩ := stored.objects k o ho
      obtain ⟨hspace, hid⟩ := apart a ha ⟨k, _, hk, hka, ho⟩
      exact ⟨a, ha, hspace, hid, rfl⟩

theorem sparesRows_iff : SparesRows l w space id ↔
    ∀ e ∈ w.files.rows, Shares l w space id e.space e.id → e.space = space ∧ e.id = id := by
  constructor
  · rintro spares e he ⟨k, o, hk, hke, ho⟩
    by_contra other
    obtain ⟨gone, outcome⟩ :=
      Files.calm_run_delete (.standard l) w.calm_calmed ho hk (named_of_stored stored ids ho)
    -- a row under the space and the id would come from the same upload
    have nothing : w.files.select (.file space id) = [] := by
      refine List.filter_eq_nil_iff.2 fun e' he' asked => other ?_
      have own : e'.space = space ∧ e'.id = id := by simpa [FileQuery.holds] using asked
      obtain ⟨a, ha, hka, row, -⟩ := stored.shared ids he hke ho
      obtain ⟨a', ha', hka', row', -⟩ := stored.shared ids he' (own.1.symm ▸ own.2.symm ▸ hk) ho
      obtain rfl := ids.eq_of_key ha ha' hka hka'
      exact ⟨row.space.trans (row'.space.symm.trans own.1), row.id.trans (row'.id.symm.trans own.2)⟩
    have calmed : w.calmed.files.select (.file space id) = [] := nothing
    rw [calmed] at outcome
    obtain ⟨k', o', hk', ho'⟩ := spares (.standard l) w.calmed e rfl w.calmed_stores he ⟨k, o, hke, ho⟩ outcome
    cases hke.symm.trans hk'
    cases gone.symm.trans ho'
  · rintro apart site v e rfl same he ⟨k, o, hke, ho⟩ outcome
    obtain ⟨kept, counted⟩ := Files.run_delete site space id v
    rcases kept k with there | hk
    · exact ⟨k, o, hke, there.trans ((same.object? k).trans ho)⟩
    · have asked : e ∈ v.files.select (.file space id) := by
        refine List.mem_filter.2 ⟨same.files ▸ he, ?_⟩
        simpa [FileQuery.holds] using apart e he ⟨k, o, hk, hke, ho⟩
      exact absurd (counted false outcome) (by simp [List.length_pos_of_mem asked])

end Others

theorem eq_of_shares (hspace : IsSegment space) (hid : IsSegment id) (plain : a.Plain)
    (shares : Shares l w space id a.space a.id) : a.space = space ∧ a.id = id := by
  obtain ⟨k, -, hk, hka, -⟩ := shares
  exact Location.key_inj plain.space hspace plain.id hid hka hk

/-- **Files are isolated unless they share a content.** In the stores after any history, reading a file gives out only
what was uploaded under its space and id, and deleting it removes only that, just if no content of another upload is at
its key; and a deletion that finds no row takes no row's content, just if no row of another file has its content there.
No two files of segments share a content. -/
theorem isolated_iff (l : Location) (steps : List Step) (ids : Identified (arrivals steps)) (space id : String) :
    (ReadsOwn l (arrivals steps) (after l .fresh steps) space id ↔ ∀ a ∈ arrivals steps,
      Shares l (after l .fresh steps) space id a.space a.id → a.space = space ∧ a.id = id) ∧
    (DeletesOwn l (arrivals steps) (after l .fresh steps) space id ↔ ∀ a ∈ arrivals steps,
      Shares l (after l .fresh steps) space id a.space a.id → a.space = space ∧ a.id = id) ∧
    (SparesRows l (after l .fresh steps) space id ↔ ∀ e ∈ (after l .fresh steps).files.rows,
      Shares l (after l .fresh steps) space id e.space e.id → e.space = space ∧ e.id = id) ∧
    (IsSegment space → IsSegment id → ∀ a ∈ arrivals steps, IsSegment a.space →
      Shares l (after l .fresh steps) space id a.space a.id → a.space = space ∧ a.id = id) := by
  have stored := after_stored l steps
  refine ⟨readsOwn_iff stored ids, deletesOwn_iff stored ids, sparesRows_iff stored ids, ?_⟩
  intro hspace hid a ha segment shares
  exact eq_of_shares hspace hid ⟨segment, ids.segments a ha⟩ shares

def oneUpload : List Step :=
  [.upload "s" "1"]

theorem isolated_iff_oneUpload : Identified (arrivals oneUpload) ∧
    ¬ReadsOwn .top (arrivals oneUpload) (after .top .fresh oneUpload) "./s" "1" ∧
    ¬DeletesOwn .top (arrivals oneUpload) (after .top .fresh oneUpload) "./s" "1" ∧
    ¬SparesRows .top (after .top .fresh oneUpload) "./s" "1" := by
  have ids : Identified (arrivals oneUpload) := ⟨by decide +kernel, by decide +kernel⟩
  obtain ⟨a, ha, hspace, hid⟩ : ∃ a ∈ arrivals oneUpload, a.space = "s" ∧ a.id = "1" := by decide +kernel
  obtain ⟨e, he, row⟩ : ∃ e ∈ (after .top .fresh oneUpload).files.rows, e.space = "s" ∧ e.id = "1" := by decide +kernel
  obtain ⟨o, ho⟩ : ∃ o, (after .top .fresh oneUpload).object? "s/1" = some o :=
    Option.isSome_iff_exists.1 (by decide +kernel)
  have shares : Shares .top (after .top .fresh oneUpload) "./s" "1" "s" "1" :=
    ⟨"s/1", o, by decide +kernel, by decide +kernel, ho⟩
  have differ : ("s" : String) ≠ "./s" := by decide
  obtain ⟨reads, deletes, spares, -⟩ := isolated_iff .top oneUpload ids "./s" "1"
  refine ⟨ids, ?_, ?_, ?_⟩
  · intro own
    exact differ (hspace.symm.trans (reads.1 own a ha (by rwa [hspace, hid])).1)
  · intro own
    exact differ (hspace.symm.trans (deletes.1 own a ha (by rwa [hspace, hid])).1)
  · intro own
    exact differ (row.1.symm.trans (spares.1 own e he (by rwa [row.1, row.2])).1)

/-! ## Spaces and namespaces -/

/-- a selection is one of spaces or of a namespace -/
def Selection.ByPlace : Selection → Prop
  | .before _ => False
  | _ => True

/-- a selection asks for no other namespace than that of a row -/
def Selection.Admits : Selection → Entry → Prop
  | .inNamespace _ ns, e => e.namespace_ = ns
  | _, _ => True

/-- a selection looks for contents where that of a row is, and asks for no other namespace -/
def Selection.Meets (l : Location) (selection : Selection) (e : Entry) : Prop :=
  (∃ k, l.key e.space e.id = .ok k ∧ selection.Reaches l k) ∧ selection.Admits e

theorem Selection.ByPlace.answerable (byPlace : selection.ByPlace) : Files.Answerable (Files.queryOf selection) := by
  cases selection with
  | inNamespace | inSpaces => trivial
  | before cutoff => exact byPlace.elim

theorem Selection.ByPlace.canTell (byPlace : selection.ByPlace) (o : Object) : selection.CanTell o := by
  cases selection with
  | inNamespace | inSpaces => trivial
  | before cutoff => exact byPlace.elim

/-- a content is picked just if the selection meets its row -/
theorem picks_iff_meets (byPlace : selection.ByPlace) (row : a.Row e) (hk : l.key e.space e.id = .ok k) :
    selection.Picks l k a.object ↔ selection.Meets l e := by
  have wants : selection.Wants a.object ↔ selection.Admits e := by
    cases selection with
    | inSpaces spaces => rfl
    | inNamespace space ns =>
      show Content.namespaceIn a.object.metadata = ns ↔ e.namespace_ = ns
      rw [row.namespace_, Arrival.object, Content.namespaceIn_metadataOf, Arrival.entry]
    | before cutoff => exact byPlace.elim
  rw [Selection.Picks, Selection.Meets, wants]
  simp [hk]

/-- a selection of segments meets only rows that it asks for -/
theorem asked_of_meets (byPlace : selection.ByPlace) (plain : selection.Plain) (hplain : a.Plain) (row : a.Row e)
    (meets : selection.Meets l e) : (Files.queryOf selection).holds e = true := by
  obtain ⟨⟨k, hk, reached⟩, wanted⟩ := meets
  rw [reaches_iff plain hplain (row.space ▸ row.id ▸ hk)] at reached
  cases selection with
  | inNamespace space ns =>
    have sameSpace : space = a.space := reached
    have sameNamespace : e.namespace_ = ns := wanted
    simp [Files.queryOf, FileQuery.holds, row.space, sameSpace, sameNamespace]
  | inSpaces spaces => simpa [Files.queryOf, FileQuery.holds, row.space] using reached
  | before cutoff => exact byPlace.elim

theorem content_of_uploads (uploads : ∀ s ∈ steps, s.operation.isUpload = true) :
    ∀ e ∈ (after l .fresh steps).files.rows, (after l .fresh steps).HasContent l e := by
  induction steps using List.reverseRecOn with
  | nil =>
    intro e he
    simp [after, fresh, FileTable.empty] at he
  | append_singleton steps s ih =>
    intro e he
    rw [after_snoc] at he ⊢
    by_cases old : e ∈ (after l .fresh steps).files.rows
    · obtain ⟨k, o, hk, ho⟩ := ih (fun s hs => uploads s (List.mem_append_left _ hs)) e old
      by_contra lost
      exact Step.not_bereft_of_upload (uploads s (by simp)) ⟨hk, ho, he, (not_hasContent hk).1 lost⟩
    · exact s.content_of_new_row old he

section Places

variable (stored : Stored l as w) (ids : Identified as) (byPlace : selection.ByPlace)

include stored ids byPlace

/-- where contents come from uploads, nothing stands in the way of a deletion by place -/
theorem passable_of_stored (bucket : w.bucket.isSome)
    (accepted : ∀ space ∈ Content.searched selection, ∃ start, l.start space = .ok start) :
    (Deletion.selected selection).Passable l w := by
  have objects : ∀ k o, w.object? k = some o → selection.Reaches l k → k ≠ "" ∧ selection.CanTell o := by
    intro k o ho _
    exact ⟨named_of_stored stored ids ho, byPlace.canTell o⟩
  exact ⟨⟨fun _ => bucket, accepted, objects⟩, byPlace.answerable⟩

/-- a deletion takes no content but of rows that the selection meets -/
theorem content_of_deletes {run : Prog.Run World Nat} (deletes : (Deletion.selected selection).Deletes l w run)
    (he : e ∈ w.files.rows) (content : w.HasContent l e) :
    run.state.HasContent l e ∨ selection.Meets l e := by
  obtain ⟨k, o, hk, ho⟩ := content
  obtain ⟨a, -, -, row, rfl⟩ := stored.shared ids he hk ho
  rcases deletes.kept k _ ho with still | picked
  · exact .inl ⟨k, _, hk, still⟩
  · exact .inr ((picks_iff_meets byPlace row hk).1 picked)

/-- one without faults takes the contents of all of them -/
theorem content_of_clears (clears : (Deletion.selected selection).Clears l w t) (he : e ∈ w.files.rows)
    (content : w.HasContent l e) : t.HasContent l e ↔ ¬selection.Meets l e := by
  obtain ⟨k, o, hk, ho⟩ := content
  obtain ⟨a, -, -, row, rfl⟩ := stored.shared ids he hk ho
  rw [← picks_iff_meets byPlace row hk]
  constructor
  · rintro ⟨k', o', hk', still⟩ picked
    cases hk.symm.trans hk'
    obtain ⟨there, left⟩ := (clears.objects k o').1 still
    cases ho.symm.trans there
    exact left picked
  · intro left
    exact ⟨k, _, hk, (clears.objects k _).2 ⟨ho, left⟩⟩

end Places

/-- **Which rows keep their content.** After uploads to any spaces, deleting spaces or a namespace leaves every row that
was not asked for, and takes its content at most if its key is below one of the spaces and its namespace is the one
asked for. Where nothing fails and the spaces are accepted, it takes just these contents. Rows of segments are none of
these if the spaces asked for are segments. -/
theorem unasked_keeps_content_iff (site : Site) (steps : List Step) (ids : Identified (arrivals steps))
    (uploads : ∀ s ∈ steps, s.operation.isUpload = true) (selection : Selection) (byPlace : selection.ByPlace)
    (v : World) (same : SameStores (after site.location .fresh steps) v) :
    (∀ e ∈ v.files.rows, (Files.queryOf selection).holds e = false →
      e ∈ ((Deletion.selected selection).attempt site v).state.files.rows ∧
      (((Deletion.selected selection).attempt site v).state.HasContent site.location e ∨
        selection.Meets site.location e)) ∧
    (Calm v → (∀ space ∈ Content.searched selection, ∃ start, site.location.start space = .ok start) →
      (∃ n, ((Deletion.selected selection).attempt site v).outcome = .ok n) ∧
      ∀ e ∈ v.files.rows, (Files.queryOf selection).holds e = false →
        (((Deletion.selected selection).attempt site v).state.HasContent site.location e ↔
          ¬selection.Meets site.location e)) ∧
    (selection.Plain → (∀ a ∈ arrivals steps, IsSegment a.space) →
      ∀ e ∈ v.files.rows, (Files.queryOf selection).holds e = false → ¬selection.Meets site.location e) := by
  have stored : Stored site.location (arrivals steps) v := (after_stored site.location steps).shrink same.shrinks
  have contents : ∀ e ∈ v.files.rows, v.HasContent site.location e := by
    intro e he
    obtain ⟨k, o, hk, ho⟩ := content_of_uploads (l := site.location) uploads e (same.files ▸ he)
    exact ⟨k, o, hk, (same.object? k).trans ho⟩
  have bucket : v.bucket.isSome := same.bucket ▸ after_bucket site.location steps
  refine ⟨?atMost, ?exactly, ?segments⟩
  case atMost =>
    intro e he unasked
    have deletes := Deletion.attempt_deletes site (.selected selection) v
    exact ⟨deletes.unasked he unasked, content_of_deletes stored ids byPlace deletes he (contents e he)⟩
  case exactly =>
    intro calm accepted
    have passable := passable_of_stored stored ids byPlace bucket accepted
    obtain ⟨outcome, clears⟩ := Deletion.attempt_clears site calm passable
    exact ⟨outcome, fun e he _ => content_of_clears stored ids byPlace clears he (contents e he)⟩
  case segments =>
    intro plain segments e he unasked meets
    obtain ⟨a, ha, row, -⟩ := stored.rows e he
    rw [asked_of_meets byPlace plain ⟨segments a ha, ids.segments a ha⟩ row meets] at unasked
    cases unasked

/-- an upload to a space whose keys are below those of another -/
def nestedSpace : List Step :=
  [.upload "a/b" "1"]

theorem unasked_keeps_content_iff_nestedSpace :
    (Identified (arrivals nestedSpace) ∧ ∀ s ∈ nestedSpace, s.operation.isUpload = true) ∧
    ∃ e ∈ (after .top .fresh nestedSpace).files.rows, e.space = "a/b" ∧
      e ∈ ((Deletion.selected (.inSpaces ["a"])).attempt (.standard .top)
        (after .top .fresh nestedSpace)).state.files.rows ∧
      ¬((Deletion.selected (.inSpaces ["a"])).attempt (.standard .top)
        (after .top .fresh nestedSpace)).state.HasContent .top e := by
  have ids : Identified (arrivals nestedSpace) := ⟨by decide +kernel, by decide +kernel⟩
  have uploads : ∀ s ∈ nestedSpace, s.operation.isUpload = true := by decide +kernel
  obtain ⟨e, he, hspace, hid⟩ : ∃ e ∈ (after .top .fresh nestedSpace).files.rows, e.space = "a/b" ∧ e.id = "1" := by
    decide +kernel
  have calm : Calm (after .top .fresh nestedSpace) := ⟨by decide +kernel, by decide +kernel, by decide +kernel⟩
  have starts : Location.top.start (some "a") = .ok "a/" := by decide +kernel
  have below : Location.top.key "a/b" "1" = .ok "a/b/1" := by decide +kernel
  have unasked : (Files.queryOf (.inSpaces ["a"])).holds e = false := by
    rw [Files.queryOf, FileQuery.holds, hspace]
    decide
  have reached : (Selection.inSpaces ["a"]).Reaches .top "a/b/1" :=
    ⟨some "a", by simp [Content.searched], "a/", starts, by decide +kernel⟩
  have meets : (Selection.inSpaces ["a"]).Meets .top e :=
    ⟨⟨"a/b/1", by rw [hspace, hid, below], reached⟩, trivial⟩
  have accepted : ∀ space ∈ Content.searched (.inSpaces ["a"]), ∃ start, Location.top.start space = .ok start := by
    intro space listed
    obtain rfl : space = some "a" := by simpa [Content.searched] using listed
    exact ⟨"a/", starts⟩
  obtain ⟨stays, exactly, -⟩ := unasked_keeps_content_iff (.standard .top) nestedSpace ids uploads
    (.inSpaces ["a"]) trivial (after .top .fresh nestedSpace) (.refl _)
  refine ⟨⟨ids, uploads⟩, e, he, hspace, (stays e he unasked).1, ?_⟩
  intro kept
  exact ((exactly calm accepted).2 e he unasked).1 kept meets

end Depot
