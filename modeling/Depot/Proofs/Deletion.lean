/-
What deletions do to the stores, whatever faults strike on their way.

A bulk deletion finds contents by the keys and the texts of objects. It removes none but those that its selection picks
(`deleteMatching_ends`), also if it breaks off between two of its requests. The rows are removed after that by a
statement of their own (`deleteSelected_ends`, `delete_ends`), so that a failure leaves them all where they are.
-/
import Depot.Files
import Depot.Proofs.Replies
import Depot.Proofs.Run

namespace Depot

open World

variable {w t u : World} {events : List Event} {site : Site} {l : Key.Location} {selection : Selection} {σ : Type}

/-! ## Contents -/

/-- there is an object at the key of a row -/
def World.HasContent (w : World) (l : Key.Location) (e : Entry) : Prop :=
  ∃ k o, l.key e.space e.id = .ok k ∧ w.object? k = some o

theorem World.SameStores.hasContent {e : Entry} (h : SameStores w t) : t.HasContent l e ↔ w.HasContent l e := by
  simp only [HasContent, h.object?]

/-! ## Objects that are picked -/

/-- the time in the texts of an object, if there is one and it can be read -/
def Content.timeIn (metadata : Metadata) : Option Time.Timestamp :=
  (metadata.lookup modifiedName).bind Time.Timestamp.ofIso?

/-- the texts of an object are as a selection wants them -/
def Selection.Wants : Selection → Object → Prop
  | .inNamespace _ ns, o => Content.namespaceIn o.metadata = ns
  | .inSpaces _, _ => True
  | .before cutoff, o => ∃ time, Content.timeIn o.metadata = some time ∧ time.isBefore? cutoff = some true

/-- a time in the texts of an object can be compared with the cutoff -/
def Selection.CanTell : Selection → Object → Prop
  | .before cutoff, o => ∀ time ∈ Content.timeIn o.metadata, time.isBefore? cutoff ≠ none
  | _, _ => True

/-- a key starts as those of one of some spaces do, or as all keys do -/
def Content.Among (l : Key.Location) (spaces : List (Option String)) (key : String) : Prop :=
  ∃ space ∈ spaces, ∃ start, l.start space = .ok start ∧ Bucket.startsWith start key = true

/-- a key is where a selection looks for contents -/
def Selection.Reaches (l : Key.Location) (selection : Selection) (key : String) : Prop :=
  Content.Among l (Content.searched selection) key

/-- the object at a key is picked by a selection -/
def Selection.Picks (l : Key.Location) (selection : Selection) (key : String) (o : Object) : Prop :=
  selection.Reaches l key ∧ selection.Wants o

/-- no objects but picked ones were removed, and nothing else happened to the stores -/
structure Trimmed (l : Key.Location) (selection : Selection) (w t : World) : Prop where
  files : t.files = w.files
  objects : ∀ k o, t.object? k = some o → w.object? k = some o
  kept : ∀ k o, w.object? k = some o → t.object? k = some o ∨ selection.Picks l k o

namespace Trimmed

theorem refl (l : Key.Location) (selection : Selection) (w : World) : Trimmed l selection w w :=
  ⟨rfl, fun _ _ => id, fun _ _ => .inl⟩

theorem then_same (h : Trimmed l selection w t) (same : SameStores t u) : Trimmed l selection w u :=
  ⟨same.files.trans h.files, fun k o ho => h.objects k o (same.object? k ▸ ho), fun k o ho => same.object? k ▸ h.kept k o ho⟩

theorem then_erase (h : Trimmed l selection w t) {b : Bucket} {keys : List String} (hb : t.bucket = some b)
    (hu : u.bucket = some (b.erase keys)) (hfiles : u.files = t.files)
    (picked : ∀ k ∈ keys, ∀ o, w.object? k = some o → selection.Picks l k o) : Trimmed l selection w u := by
  refine ⟨hfiles.trans h.files, fun k o ho => ?_, fun k o ho => ?_⟩
  · rw [object?_erase hb hu] at ho
    split at ho
    · cases ho
    · exact h.objects k o ho
  · rw [object?_erase hb hu]
    split
    · exact .inr (picked k ‹_› o ho)
    · exact h.kept k o ho

end Trimmed

/-! ## Texts of objects -/

namespace Content

theorem modifiedOf_ends (key : String) : (modifiedOf key).Ends serve (fun r t _ => SameStores w t ∧
    ∀ time, r = .ok time → key ≠ "" ∧ ∀ o, w.object? key = some o → timeIn o.metadata = time) w events := by
  have same : SameStores w (serve (.headObject key) w).2 := serve_reads (by exact trivial) w
  rw [modifiedOf, Op.ends_ask_bind]
  rcases serve_head w key with ⟨f, reply⟩ | ⟨o, named, ho, reply⟩
  · rw [reply, Prog.ofReply_error_bind, Prog.ends_fail]
    exact ⟨same, by simp⟩
  · rw [reply, Prog.ofReply_ok_bind]
    have only : ∀ time, timeIn o.metadata = time → ∀ time', (.ok time : Except Failure _) = .ok time' →
        key ≠ "" ∧ ∀ o', w.object? key = some o' → timeIn o'.metadata = time' := by
      rintro time read _ ⟨⟩
      refine ⟨named, fun o' ho' => ?_⟩
      rwa [← Option.some.inj (ho.symm.trans ho')]
    cases htext : o.metadata.lookup modifiedName with
    | none => exact ⟨same, only none (by rw [timeIn, htext]; rfl)⟩
    | some text =>
      dsimp only
      cases htime : Time.Timestamp.ofIso? text with
      | none => exact ⟨same, only none (by rw [timeIn, htext]; exact htime)⟩
      | some time => exact ⟨same, only (some time) (by rw [timeIn, htext]; exact htime)⟩

theorem namespaceOf_ends (key : String) : (namespaceOf key).Ends serve (fun r t _ => SameStores w t ∧
    ∀ ns, r = .ok ns → key ≠ "" ∧ ∀ o, w.object? key = some o → namespaceIn o.metadata = ns) w events := by
  have same : SameStores w (serve (.headObject key) w).2 := serve_reads (by exact trivial) w
  rw [namespaceOf, Op.ends_ask_bind]
  rcases serve_head w key with ⟨f, reply⟩ | ⟨o, named, ho, reply⟩
  · rw [reply, Prog.ofReply_error_bind, Prog.ends_fail]
    exact ⟨same, by simp⟩
  · rw [reply, Prog.ofReply_ok_bind, Prog.ends_pure]
    refine ⟨same, ?_⟩
    rintro _ ⟨⟩
    refine ⟨named, fun o' ho' => ?_⟩
    rw [← Option.some.inj (ho.symm.trans ho')]

/-- **An object is selected just if it is as the selection wants it,** where this can be told. -/
theorem selects_ends (selection : Selection) (key : String) : (selects selection key).Ends serve (fun r t _ =>
    SameStores w t ∧ ∀ chosen, r = .ok chosen → (key = "" → chosen = true) ∧
      ∀ o, w.object? key = some o → selection.CanTell o ∧ (chosen = true ↔ selection.Wants o)) w events := by
  cases selection with
  | inSpaces spaces =>
    refine ⟨.refl w, ?_⟩
    rintro chosen ⟨⟩
    exact ⟨fun _ => rfl, fun _ _ => ⟨trivial, iff_of_true rfl trivial⟩⟩
  | inNamespace space ns =>
    refine (namespaceOf_ends key).bind (fun found t more h => ⟨h.1, ?_⟩) (fun e t more h => ⟨h.1, by simp⟩)
    rintro chosen ⟨⟩
    refine ⟨fun empty => absurd empty (h.2 found rfl).1, fun o ho => ⟨trivial, ?_⟩⟩
    show (found == ns) = true ↔ namespaceIn o.metadata = ns
    rw [(h.2 found rfl).2 o ho, beq_iff_eq]
  | before cutoff =>
    refine (modifiedOf_ends key).bind (fun found t more h => ?_) (fun e t more h => ⟨h.1, by simp⟩)
    obtain ⟨same, read⟩ := h
    obtain ⟨named, read⟩ := read found rfl
    cases found with
    | none =>
      refine ⟨same, ?_⟩
      rintro chosen ⟨⟩
      refine ⟨fun empty => absurd empty named, fun o ho => ⟨fun time there => ?_, iff_of_false (by simp) ?_⟩⟩
      · rw [read o ho] at there
        cases there
      · rintro ⟨time, there, -⟩
        rw [read o ho] at there
        cases there
    | some time =>
      dsimp only
      cases before : time.isBefore? cutoff with
      | none => exact ⟨same, by simp⟩
      | some old =>
        refine ⟨same, ?_⟩
        rintro chosen ⟨⟩
        refine ⟨fun empty => absurd empty named, fun o ho => ⟨fun other there => ?_, ?_⟩⟩
        · rw [read o ho, Option.mem_some_iff] at there
          rw [← there, before]
          exact Option.some_ne_none old
        · constructor
          · intro yes
            exact ⟨time, read o ho, yes ▸ before⟩
          · rintro ⟨other, there, wanted⟩
            rw [read o ho, Option.some.injEq] at there
            rw [← there, before] at wanted
            exact Option.some.inj wanted

/-! ## Listings -/

/-- what is asked of a run that goes on with a value or breaks off -/
def Kept (J : σ → World → Prop) (F : World → Prop) : Prog.Goal World σ
  | .ok s, t, _ => J s t
  | .error _, t, _ => F t

variable {J : σ → World → Prop} {F : World → Prop} {step : σ → String → Op σ}

/-- **Going through keys.** What each key that starts so keeps, going through all of them keeps. -/
theorem overKeys_ends {start : String} (same : ∀ s t u, J s t → SameStores t u → J s u) (stop : ∀ s t, J s t → F t)
    (body : ∀ s key t events, Bucket.startsWith start key = true → J s t → (step s key).Ends serve (Kept J F) t events)
    (pages : Nat) (after : Option String) (s : σ) (h : J s t) :
    (overKeys start step pages after s).Ends serve (Kept J F) t events := by
  induction pages generalizing after s t events with
  | zero => exact stop s t h
  | succ pages ih =>
    have h' : J s (serve (.listObjects start after) t).2 := same s t _ h (serve_reads (by exact trivial) t)
    rw [overKeys, Op.ends_ask_bind]
    rcases serve_list t start after with ⟨f, reply⟩ | ⟨b, -, reply⟩
    · rw [reply]
      exact stop s _ h'
    · rw [reply, Prog.ofReply_ok_bind]
      refine Prog.Ends.bind (R := Kept J F) ?_ (fun s u more hs => ?_) (fun e u more he => he)
      · refine Prog.Ends.foldlM (fun keys s u _ => J s u ∧ ∀ key ∈ keys, Bucket.startsWith start key = true)
          (fun key keys s u more hs => ?_) (fun s u more hs => hs.1) _ s _ _ ⟨h', fun key hkey => ?_⟩
        · refine (body s key u more (hs.2 key List.mem_cons_self) hs.1).mono fun r v more hr => ?_
          cases r with
          | ok s => exact ⟨hr, fun k hk => hs.2 k (List.mem_cons_of_mem _ hk)⟩
          | error e => exact hr
        · exact (Bucket.mem_listed.1 (List.mem_of_mem_take hkey)).2.1
      · split
        · exact ih _ s hs
        · exact hs

/-- **Going through spaces.** -/
theorem overSpaces_ends {spaces : List (Option String)} (same : ∀ s t u, J s t → SameStores t u → J s u)
    (stop : ∀ s t, J s t → F t)
    (body : ∀ space ∈ spaces, ∀ start, site.location.start space = .ok start → ∀ s key t events,
      Bucket.startsWith start key = true → J s t → (step s key).Ends serve (Kept J F) t events)
    (s : σ) (h : J s t) : (overSpaces site step s spaces).Ends serve (Kept J F) t events := by
  rw [overSpaces]
  refine Prog.Ends.foldlM (fun rest s t _ => J s t ∧ ∀ space ∈ rest, space ∈ spaces) (fun space rest s t more hs => ?_)
    (fun s t more hs => hs.1) spaces s t events ⟨h, fun _ => id⟩
  rw [overSpace]
  cases hstart : site.location.start space with
  | error e => exact stop s t hs.1
  | ok start =>
    rw [Prog.ofExcept_ok_bind]
    refine (overKeys_ends same stop (body space (hs.2 space List.mem_cons_self) start hstart) _ _ s hs.1).mono
      fun r t more hr => ?_
    cases r with
    | ok s => exact ⟨hr, fun space h => hs.2 space (List.mem_cons_of_mem _ h)⟩
    | error e => exact hr

/-! ## Bulk deletions -/

/-- only picked objects were removed, and only they wait -/
structure Tally.Fair (l : Key.Location) (selection : Selection) (w : World) (tally : Tally) (t : World) : Prop where
  trimmed : Trimmed l selection w t
  waiting : ∀ k ∈ tally.waiting, ∀ o, w.object? k = some o → selection.Picks l k o

namespace Tally

variable {tally : Tally}

theorem Fair.then_same (h : Fair l selection w tally t) (same : SameStores t u) : Fair l selection w tally u :=
  ⟨h.trimmed.then_same same, h.waiting⟩

theorem flush_ends (h : Fair l selection w tally t) :
    tally.flush.Ends serve (Kept (Fair l selection w) (Trimmed l selection w)) t events := by
  rw [flush, Op.ends_ask_bind]
  rcases serve_deleteObjects t tally.waiting with ⟨f, reply, same⟩ | ⟨refused, reply, -, b, hb, hu, hfiles⟩
  · rw [reply]
    exact h.trimmed.then_same same
  · rw [reply, Prog.ofReply_ok_bind]
    have trimmed := h.trimmed.then_erase hb hu hfiles fun k hk => h.waiting k (List.mem_of_mem_filter hk)
    refine (Prog.ends_records _ refused _ _).bind (fun _ u more hu => ?_) (fun e u more hu => ?_)
    · obtain ⟨-, rfl⟩ := hu
      exact ⟨trimmed, by simp⟩
    · exact hu.2 ▸ trimmed

theorem add_ends (h : Fair l selection w tally t) {key : String}
    (picked : ∀ o, w.object? key = some o → selection.Picks l key o) :
    (tally.add site key).Ends serve (Kept (Fair l selection w) (Trimmed l selection w)) t events := by
  have fair : Fair l selection w { tally with waiting := tally.waiting ++ [key] } t := by
    refine ⟨h.trimmed, fun k hk => ?_⟩
    rcases List.mem_append.1 hk with hk | hk
    · exact h.waiting k hk
    · exact List.mem_singleton.1 hk ▸ picked
  rw [add]
  split
  · exact flush_ends fair
  · exact fair

theorem finish_ends (h : Fair l selection w tally t) :
    tally.finish.Ends serve (Kept (Fair l selection w) (Trimmed l selection w)) t events := by
  rw [finish]
  split
  · exact h
  · exact flush_ends h

end Tally

theorem consider_ends {tally : Tally} {key : String} (h : Tally.Fair l selection w tally t) (reached : selection.Reaches l key) :
    (consider site selection tally key).Ends serve (Kept (Tally.Fair l selection w) (Trimmed l selection w)) t events := by
  rw [consider]
  refine (selects_ends selection key).bind (fun chosen u more hu => ?_) (fun e u more hu => ?_)
  · have fair := h.then_same hu.1
    cases chosen with
    | false => exact fair
    | true =>
      refine Tally.add_ends fair fun o ho => ?_
      rcases h.trimmed.kept key o ho with still | picked
      · exact ⟨reached, ((hu.2 true rfl).2 o still).2.1 rfl⟩
      · exact picked
  · exact h.trimmed.then_same hu.1

/-- **A bulk deletion removes no contents but picked ones**, whatever faults strike. -/
theorem deleteMatching_ends (selection : Selection) :
    (deleteMatching site selection).Ends serve (fun _ t _ => Trimmed site.location selection w t) w events := by
  rw [deleteMatching]
  refine Prog.Ends.bind (R := fun _ t _ => Trimmed site.location selection w t) ?_ (fun _ t more h => h)
    (fun e t more h => h)
  refine Op.ends_account (R := fun _ t _ => Trimmed site.location selection w t) ?_ (fun _ _ _ h => h)
    (fun _ _ _ _ _ h _ => h)
  have loop : (overSpaces site (consider site selection) .zero (searched selection)).Ends serve
      (Kept (Tally.Fair site.location selection w) (Trimmed site.location selection w)) w events :=
    overSpaces_ends (fun _ _ _ h same => h.then_same same) (fun _ _ h => h.trimmed)
      (fun space hspace start hstart s key t more starts h => consider_ends h ⟨space, hspace, start, hstart, starts⟩)
      _ ⟨.refl _ _ _, by simp [Tally.zero]⟩
  refine loop.bind (fun tally t more h => ?_) (fun e t more h => h)
  refine (Tally.finish_ends h).mono fun r t more hr => ?_
  cases r with
  | ok tally => exact hr.trimmed
  | error e => exact hr

end Content

/-! ## One content -/

/-- **A content is removed, or nothing happens and this is a failure.** -/
theorem Content.delete_ends (space id : String) : (Content.delete site space id).Ends serve (fun r t _ =>
    (∃ failure, r = .error failure ∧ SameStores w t) ∨ r = .ok () ∧ ∃ key b, site.location.key space id = .ok key ∧
      w.bucket = some b ∧ t.bucket = some (b.erase [key]) ∧ t.files = w.files) w events := by
  rw [Content.delete]
  cases hkey : site.location.key space id with
  | error failure => exact .inl ⟨failure, rfl, .refl w⟩
  | ok key =>
    rw [Prog.ofExcept_ok_bind]
    apply Op.ends_account_either
    rw [Prog.ends_record_bind, Op.ends_ask_bind, Prog.ends_ofReply]
    rcases serve_deleteObject w key with ⟨f, reply, same⟩ | ⟨reply, b, hb, ht, hfiles⟩
    · exact .inl ⟨.fault f, congrArg Prog.bare reply, same⟩
    · exact .inr ⟨congrArg Prog.bare reply, key, b, rfl, hb, ht, hfiles⟩

/-! ## Rows -/

theorem Time.Timestamp.instant_toUtc? {t u : Time.Timestamp} (h : t.toUtc? = some u) : u.instant = t.instant := by
  rw [toUtc?, ofInstant?] at h
  split at h
  · cases h
    show (t.instant.toNat : Int) - 0 = t.instant
    omega
  · cases h

namespace FileTable

theorem eq_of_rows {table table' : FileTable} (h : table.rows = table'.rows) : table = table' := by
  cases table
  cases table'
  cases h
  rfl

theorem mem_remove {table : FileTable} {q : FileQuery} {e : Entry} :
    e ∈ (table.remove q).rows ↔ e ∈ table.rows ∧ q.holds e = false := by
  simp [remove, List.mem_filter]

theorem remove_none {q : FileQuery} (h : ∀ e, q.holds e = false) (table : FileTable) : table.remove q = table := by
  cases table
  simp [remove, h]

theorem select_remove (table : FileTable) (q : FileQuery) : (table.remove q).select q = [] := by
  simp [select, remove, List.filter_filter]

theorem remove_remove (table : FileTable) (q : FileQuery) : (table.remove q).remove q = table.remove q := by
  simp [remove, List.filter_filter]

end FileTable

namespace Files

/-- a question means the same with its cutoff in UTC -/
theorem prepare_cases (q : FileQuery) :
    (∃ f, prepare q = .fail (.fault f)) ∨ ∃ q', prepare q = pure q' ∧ ∀ e, q'.holds e = q.holds e := by
  cases q with
  | before cutoff =>
    rw [prepare, inUtc]
    cases hutc : cutoff.toUtc? with
    | none => exact .inl ⟨_, rfl⟩
    | some utc => exact .inr ⟨.before utc, rfl, fun e => by simp only [FileQuery.holds, Time.Timestamp.instant_toUtc? hutc]⟩
  | _ => exact .inr ⟨_, rfl, fun _ => rfl⟩

theorem holds_of_isEmpty {q : FileQuery} (h : q.isEmpty = true) (e : Entry) : q.holds e = false := by
  cases q <;> simp_all [FileQuery.isEmpty, FileQuery.holds]

/-- **The rows asked for are removed and counted, or nothing happens and this is a failure.** -/
theorem remove_ends (q : FileQuery) : (remove q).Ends serve (fun r t _ =>
    (∃ failure, r = .error failure ∧ SameStores w t) ∨ r = .ok (w.files.select q).length ∧ t.bucket = w.bucket ∧
      t.files = w.files.remove q) w events := by
  rw [remove]
  rcases prepare_cases q with ⟨f, failed⟩ | ⟨q', prepared, means⟩
  · rw [failed]
    exact .inl ⟨_, rfl, .refl w⟩
  · have removed : w.files.remove q' = w.files.remove q := by
      simp only [FileTable.remove, means]
    have selected : w.files.select q' = w.files.select q := by
      simp only [FileTable.select, funext means]
    rw [prepared, LawfulMonad.pure_bind]
    split
    case isTrue empty =>
      have nothing : w.files.select q = [] :=
        List.filter_eq_nil_iff.2 fun e _ => by rw [← means, holds_of_isEmpty empty]; decide
      exact .inr ⟨by rw [nothing]; rfl, rfl, by rw [← removed, FileTable.remove_none (holds_of_isEmpty empty)]⟩
    case isFalse =>
      rw [Op.ends_ask_bind, Prog.ends_ofReply]
      rcases serve_deleteFiles w q' with ⟨f, reply, same⟩ | ⟨reply, hbucket, hfiles⟩
      · exact .inl ⟨.fault f, congrArg Prog.bare reply, same⟩
      · exact .inr ⟨selected ▸ congrArg Prog.bare reply, hbucket, hfiles.trans removed⟩

theorem statement_remove_ends (task : Task) (q : FileQuery) : (statement task (remove q)).Ends serve (fun r t _ =>
    (∃ failure, r = .error failure ∧ SameStores w t) ∨ r = .ok (w.files.select q).length ∧ t.bucket = w.bucket ∧
      t.files = w.files.remove q) w events :=
  Op.ends_account_either (remove_ends q)

/-! ## Deletions -/

/-- **A deletion** does nothing and fails, or removes the content, and then removes the row or fails. -/
theorem delete_ends (space id : String) : (delete site space id).Ends serve (fun r t _ =>
    (∃ failure, r = .error failure ∧ SameStores w t) ∨ ∃ key b, site.location.key space id = .ok key ∧
      w.bucket = some b ∧ t.bucket = some (b.erase [key]) ∧
      ((∃ failure, r = .error failure) ∧ t.files = w.files ∨
        r = .ok (decide (0 < (w.files.select (.file space id)).length)) ∧
          t.files = w.files.remove (.file space id))) w events := by
  rw [delete]
  apply (Content.delete_ends space id).bind_either
  · rintro t more ⟨key, b, hkey, hb, ht, hfiles⟩
    apply (statement_remove_ends (.deleteEntry id) (.file space id)).bind_either
    · rintro u more ⟨hbucket, hrows⟩
      exact .inr ⟨key, b, hkey, hb, hbucket.trans ht, .inr ⟨by rw [← hfiles], by rw [hrows, hfiles]⟩⟩
    · intro failure u more same
      exact .inr ⟨key, b, hkey, hb, same.bucket.trans ht, .inl ⟨⟨failure, rfl⟩, same.files.trans hfiles⟩⟩
  · intro failure t more same
    exact .inl ⟨failure, rfl, same⟩

/-- a bulk deletion removes picked contents only, and then the rows of the selection, unless it fails -/
def Culled (l : Key.Location) (selection : Selection) (w : World) : Prog.Goal World Nat
  | .ok _, t, _ => ∃ u, Trimmed l selection w u ∧ t.bucket = u.bucket ∧ t.files = w.files.remove (queryOf selection)
  | .error _, t, _ => Trimmed l selection w t

/-- **A bulk deletion** removes the rows of its selection and no contents but picked ones, or it fails and removes no
row. -/
theorem deleteSelected_ends (selection : Selection) :
    (deleteSelected site selection).Ends serve (Culled site.location selection w) w events := by
  rw [deleteSelected]
  refine (Content.deleteMatching_ends selection).bind (fun _ t more h => ?_) (fun failure t more h => h)
  refine (statement_remove_ends _ (queryOf selection)).mono fun r u more hu => ?_
  rcases hu with ⟨failure, rfl, same⟩ | ⟨rfl, hbucket, hrows⟩
  · exact h.then_same same
  · exact ⟨t, h, hbucket, by rw [hrows, h.files]⟩

end Files

end Depot
