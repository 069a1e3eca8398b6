/-
What deletions complete where nothing fails.

Where no fault is scheduled and no row is locked, a listing is gone through to its end although keys are erased on the
way: a page starts after the last key of the one before, so every key of the listing comes up, or its object was erased
before (`calm_overSpaces`). So a bulk deletion leaves no object that its selection picks (`calm_deleteSelected`), a
sweep finds every content that is there (`calm_sweep`), and a deletion removes the content and the row (`calm_delete`).
-/
import Depot.Proofs.Coverage
import Depot.Proofs.Expiry

namespace Depot

open World

variable {w t u : World} {events : List Event} {site : Site} {l : Key.Location} {selection : Selection} {σ : Type}
  {k : String} {o : Object} {b : Bucket}

/-! ## Going on without a failure -/

/-- the bucket lost some objects, and nothing will fail -/
structure Eroded (t u : World) : Prop where
  calm : Calm u
  bucket : Erased t u

namespace Eroded

theorem refl (calm : Calm w) (hb : w.bucket = some b) : Eroded w w :=
  ⟨calm, .of_same hb rfl⟩

theorem trans (h : Eroded w t) (h' : Eroded t u) : Eroded w u :=
  ⟨h'.calm, h.bucket.trans h'.bucket⟩

end Eroded

namespace Content

/-- what is asked of a run that goes on -/
def Goes (J : σ → World → Prop) (t : World) : Prog.Goal World σ :=
  Prog.Succeeds fun s u _ => Eroded t u ∧ J s u

theorem goes_iff {J : σ → World → Prop} {r : Except Failure σ} :
    Goes J t r u events ↔ Over (fun w => w) (fun s u => Calm u ∧ J s u) (fun _ => False) t r u events := by
  constructor
  · rintro ⟨s, rfl, ⟨calm, erased⟩, hs⟩
    exact ⟨erased, calm, hs⟩
  · intro h
    cases r with
    | ok s => exact ⟨s, rfl, ⟨h.2.1, h.1⟩, h.2.2⟩
    | error e => exact h.elim

variable {step : σ → String → Op σ}

/-- **Going through all keys of some spaces.** `J` holds of the spaces gone through and of the keys still to come. -/
theorem calm_overSpaces {J : List (Option String) → List String → σ → World → Prop} {spaces : List (Option String)}
    (thin : ∀ done rest s t, J done rest s t → J done (rest.filter fun k => (t.object? k).isSome) s t)
    (body : ∀ done space key rest s t events b, Calm t → t.bucket = some b → J (done ++ [space]) (key :: rest) s t →
      (step s key).Ends serve (Goes (J (done ++ [space]) rest) t) t events)
    (opens : ∀ done space later start s t b, spaces = done ++ space :: later → site.location.start space = .ok start →
      Erased w t → t.bucket = some b → J done [] s t → J (done ++ [space]) (b.listed start none) s t)
    (starts : ∀ space ∈ spaces, ∃ start, site.location.start space = .ok start) (calm : Calm w)
    (hb : w.bucket = some b) (pages : b.objects.length < site.pageLimit) (s : σ) (h : J [] [] s w) :
    (overSpaces site step s spaces).Ends serve (Goes (J spaces []) w) w events := by
  refine (overSpaces_over (J := fun done rest s t => Calm t ∧ J done rest s t) (F := fun _ => False)
    (fun done rest s t h => ⟨h.1, thin done rest s t h.2⟩) ?lists ?body ?opens (.inl ⟨starts, pages⟩) hb s
    ⟨calm, h⟩).mono fun r t more ht => goes_iff.2 ht
  case lists =>
    intro done rest s t b start after hb h
    exact .inl ⟨t, unstruck_listObjects h.1.strikes hb start after, rfl, h⟩
  case body =>
    intro done space key rest s t more b hb h
    exact (body done space key rest s t more b h.1 hb h.2).mono fun r u more hu => goes_iff.1 hu
  case opens =>
    intro done space later start s t b all hstart erased hb h
    exact ⟨h.1, opens done space later start s t b all hstart erased hb h.2⟩

/-! ## Texts of objects -/

theorem unstruck_namespaceOf (unstruck : t.strikes = []) (hk : k ≠ "") (ho : t.object? k = some o) :
    (namespaceOf k).Ends serve (Prog.Succeeds fun ns u _ => ns = namespaceIn o.metadata ∧ u = t) t events := by
  rw [namespaceOf, Op.ends_ask_bind, unstruck_headObject unstruck hk ho, Prog.ofReply_ok_bind]
  exact ⟨_, rfl, rfl, rfl⟩

theorem unstruck_modifiedOf (unstruck : t.strikes = []) (hk : k ≠ "") (ho : t.object? k = some o) :
    (modifiedOf k).Ends serve (Prog.Succeeds fun time u _ => time = timeIn o.metadata ∧ u = t) t events := by
  rw [modifiedOf, Op.ends_ask_bind, unstruck_headObject unstruck hk ho, Prog.ofReply_ok_bind]
  cases htext : o.metadata.lookup modifiedName with
  | none => exact ⟨_, rfl, by rw [timeIn, htext]; rfl, rfl⟩
  | some text =>
    dsimp only
    cases htime : Time.Timestamp.ofIso? text with
    | none => exact ⟨_, rfl, by rw [timeIn, htext]; exact htime.symm, rfl⟩
    | some time => exact ⟨_, rfl, by rw [timeIn, htext]; exact htime.symm, rfl⟩

end Content

/-- whether a selection asks for the texts of objects -/
def Selection.Asks : Selection → Prop
  | .inSpaces _ => False
  | _ => True

namespace Content

/-- **It can be told of an object whether it is selected,** and this is so just if it is as the selection wants it. -/
theorem unstruck_selects (unstruck : t.strikes = []) (hk : k ≠ "")
    (there : selection.Asks → ∃ o, t.object? k = some o ∧ selection.CanTell o) :
    (selects selection k).Ends serve (Prog.Succeeds fun chosen u _ => u = t ∧
      ∀ o, t.object? k = some o → (chosen = true ↔ selection.Wants o)) t events := by
  have returns : (selects selection k).Ends serve (Prog.Succeeds fun _ u _ => u = t) t events := by
    cases selection with
    | inSpaces spaces => exact ⟨true, rfl, rfl⟩
    | inNamespace space ns =>
      obtain ⟨o, ho, -⟩ := there trivial
      exact (unstruck_namespaceOf unstruck hk ho).bind_ok fun found u more hu => ⟨_, rfl, hu.2⟩
    | before cutoff =>
      obtain ⟨o, ho, tell⟩ := there trivial
      refine (unstruck_modifiedOf unstruck hk ho).bind_ok fun found u more hu => ?_
      obtain ⟨rfl, rfl⟩ := hu
      cases htime : timeIn o.metadata with
      | none => exact ⟨false, rfl, rfl⟩
      | some time =>
        dsimp only
        cases before : time.isBefore? cutoff with
        | none => exact absurd before (tell time htime)
        | some old => exact ⟨old, rfl, rfl⟩
  refine (returns.and (selects_ends selection k)).mono fun r u more hu => ?_
  obtain ⟨⟨chosen, rfl, same⟩, -, told⟩ := hu
  exact ⟨chosen, rfl, same, fun o ho => ((told chosen rfl).2 o ho).2⟩

/-! ## Bulk deletions -/

/-- what is selected among some keys waits to be deleted, or is still to come; what is still to come can be asked for -/
structure Clearing (selection : Selection) (among : String → Prop) (rest : List String) (tally : Tally) (t : World) :
    Prop where
  complete : ∀ k o, t.object? k = some o → selection.Wants o → among k → k ∈ tally.waiting ∨ k ∈ rest
  keys : ∀ k, k ∈ tally.waiting ∨ k ∈ rest → k ≠ ""
  distinct : selection.Asks → rest.Nodup
  there : selection.Asks → ∀ k ∈ rest, k ∉ tally.waiting ∧ ∃ o, t.object? k = some o ∧ selection.CanTell o

namespace Clearing

variable {among : String → Prop} {rest : List String} {tally : Tally} {key : String}

theorem thin (h : Clearing selection among rest tally t) :
    Clearing selection among (rest.filter fun k => (t.object? k).isSome) tally t where
  complete k o ho wanted hk := (h.complete k o ho wanted hk).imp_right fun hrest => by simp [hrest, ho]
  keys k hk := h.keys k (hk.imp_right List.mem_of_mem_filter)
  distinct asks := (h.distinct asks).filter _
  there asks k hk := h.there asks k (List.mem_of_mem_filter hk)

theorem flush_ends (h : Clearing selection among rest tally t) (calm : Calm t) (hb : t.bucket = some b) :
    tally.flush.Ends serve (Goes (fun tally u => Clearing selection among rest tally u ∧ tally.waiting = []) t) t events := by
  have hkeys : "" ∉ tally.waiting := fun hk => h.keys "" (.inl hk) rfl
  rw [Tally.flush, Op.ends_ask_bind, calm_deleteObjects calm hb hkeys, Prog.ofReply_ok_bind]
  have eroded : Eroded t { t with bucket := some (b.erase tally.waiting) } :=
    ⟨⟨calm.strikes, calm.refusals, calm.locked⟩, b, tally.waiting, hb, rfl⟩
  refine ⟨_, rfl, eroded, ⟨fun k o ho wanted hk => ?_, fun k hk => ?_, h.distinct, fun asks k hk => ?_⟩, rfl⟩
  · rw [object?_erase hb rfl] at ho
    split at ho
    case isTrue => cases ho
    case isFalse kept => exact (h.complete k o ho wanted hk).imp_left fun hw => absurd hw kept
  · exact h.keys k (.inr (hk.resolve_left (List.not_mem_nil)))
  · obtain ⟨apart, o, ho, tell⟩ := h.there asks k hk
    exact ⟨List.not_mem_nil, o, by rwa [object?_erase hb rfl, if_neg apart], tell⟩

theorem skip (h : Clearing selection among (key :: rest) tally t)
    (unwanted : ∀ o, t.object? key = some o → ¬selection.Wants o) : Clearing selection among rest tally t where
  complete k o ho wanted hk := by
    refine (h.complete k o ho wanted hk).imp_right fun hrest => ?_
    rcases List.mem_cons.1 hrest with rfl | hrest
    · exact absurd wanted (unwanted o ho)
    · exact hrest
  keys k hk := h.keys k (hk.imp_right (List.mem_cons_of_mem _))
  distinct asks := (List.nodup_cons.1 (h.distinct asks)).2
  there asks k hk := h.there asks k (List.mem_cons_of_mem _ hk)

theorem wait (h : Clearing selection among (key :: rest) tally t) :
    Clearing selection among rest { tally with waiting := tally.waiting ++ [key] } t where
  complete k o ho wanted hk := by
    have := h.complete k o ho wanted hk
    simp only [List.mem_append, List.mem_cons] at this ⊢
    tauto
  keys k hk := by
    refine h.keys k ?_
    simp only [List.mem_append, List.mem_cons] at hk ⊢
    tauto
  distinct asks := (List.nodup_cons.1 (h.distinct asks)).2
  there asks k hk := by
    obtain ⟨apart, there⟩ := h.there asks k (List.mem_cons_of_mem _ hk)
    refine ⟨fun hw => ?_, there⟩
    rcases List.mem_append.1 hw with hw | hw
    · exact apart hw
    · exact (List.nodup_cons.1 (h.distinct asks)).1 (List.mem_singleton.1 hw ▸ hk)

theorem consider_ends (h : Clearing selection among (key :: rest) tally t) (calm : Calm t) (hb : t.bucket = some b) :
    (consider site selection tally key).Ends serve (Goes (Clearing selection among rest) t) t events := by
  rw [consider]
  refine (unstruck_selects calm.strikes (h.keys key (.inr List.mem_cons_self))
    fun asks => (h.there asks key List.mem_cons_self).2).bind_ok fun chosen u more hu => ?_
  obtain ⟨rfl, wants⟩ := hu
  cases chosen with
  | false => exact ⟨tally, rfl, .refl calm hb, h.skip fun o ho wanted => absurd ((wants o ho).2 wanted) (by decide)⟩
  | true =>
    show (tally.add site key).Ends _ _ _ _
    rw [Tally.add]
    split
    · refine (h.wait.flush_ends calm hb).mono fun r v _ hv => ?_
      obtain ⟨tally, rfl, eroded, cleared, -⟩ := hv
      exact ⟨tally, rfl, eroded, cleared⟩
    · exact ⟨_, rfl, .refl calm hb, h.wait⟩

theorem done (h : Clearing selection among [] tally t) (empty : tally.waiting = []) (ho : t.object? k = some o)
    (wanted : selection.Wants o) : ¬among k := by
  intro hk
  rcases h.complete k o ho wanted hk with hw | hw
  · simp [empty] at hw
  · cases hw

theorem finish_ends (h : Clearing selection among [] tally t) (calm : Calm t) (hb : t.bucket = some b) :
    tally.finish.Ends serve (Goes (fun _ u => ∀ k o, u.object? k = some o → selection.Wants o → ¬among k) t) t events := by
  rw [Tally.finish]
  split
  case isTrue empty => exact ⟨tally, rfl, .refl calm hb, fun k o ho wanted => h.done empty ho wanted⟩
  case isFalse =>
    refine (h.flush_ends calm hb).mono fun r u more hu => ?_
    obtain ⟨tally, rfl, eroded, cleared, empty⟩ := hu
    exact ⟨tally, rfl, eroded, fun k o ho wanted => cleared.done empty ho wanted⟩

end Clearing

theorem searched_of_asks (asks : selection.Asks) {done later : List (Option String)} {space : Option String}
    (h : searched selection = done ++ space :: later) : done = [] := by
  cases selection with
  | inSpaces => exact asks.elim
  | inNamespace | before =>
    cases done with
    | nil => rfl
    | cons x done => simp [searched] at h

theorem not_among_nil : ¬Among l [] k := by
  rintro ⟨space, absent, -⟩
  exact List.not_mem_nil absent

theorem clearing_zero (selection : Selection) (l : Key.Location) (w : World) :
    Clearing selection (Among l []) [] .zero w where
  complete _ _ _ _ hk := (not_among_nil hk).elim
  keys _ hk := by simp [Tally.zero] at hk
  distinct _ := List.nodup_nil
  there _ _ hk := (List.not_mem_nil hk).elim

/-- with another space, the keys listed for it are still to come -/
theorem Clearing.opens {done : List (Option String)} {space : Option String} {start : String} {tally : Tally}
    (h : Clearing selection (Among l done) [] tally t) (hb : t.bucket = some b) (hstart : l.start space = .ok start)
    (keys : ∀ k o, t.object? k = some o → Bucket.startsWith start k = true → k ≠ "" ∧ selection.CanTell o)
    (first : selection.Asks → tally.waiting = []) :
    Clearing selection (Among l (done ++ [space])) (b.listed start none) tally t where
  complete k o ho wanted among := by
    obtain ⟨space', hspace, start', hstart', starts'⟩ := among
    rcases List.mem_append.1 hspace with hspace | hspace
    · have := h.complete k o ho wanted ⟨space', hspace, start', hstart', starts'⟩
      exact .inl (this.resolve_right List.not_mem_nil)
    · rw [List.mem_singleton.1 hspace, hstart, Except.ok.injEq] at hstart'
      exact .inr ((mem_listed_iff hb).2 ⟨⟨o, ho⟩, hstart' ▸ starts'⟩)
  keys k hk := by
    rcases hk with hk | hk
    · exact h.keys k (.inl hk)
    · obtain ⟨⟨o, ho⟩, starts⟩ := (mem_listed_iff hb).1 hk
      exact (keys k o ho starts).1
  distinct _ := Bucket.listed_nodup _ _ _
  there asks k hk := by
    obtain ⟨⟨o, ho⟩, starts⟩ := (mem_listed_iff hb).1 hk
    exact ⟨by simp [first asks], o, ho, (keys k o ho starts).2⟩

/-- **A bulk deletion leaves no object that its selection picks.** -/
theorem calm_deleteMatching (calm : Calm w) (hb : w.bucket = some b) (pages : b.objects.length < site.pageLimit)
    (passable : selection.Passable site.location w) :
    (deleteMatching site selection).Ends serve
      (Goes (fun _ t => ∀ k o, t.object? k = some o → ¬selection.Picks site.location k o) w) w events := by
  let J (done : List (Option String)) (rest : List String) (tally : Tally) (t : World) : Prop :=
    Clearing selection (Among site.location done) rest tally t ∧ (done = [] → tally.waiting = [])
  have loop : (overSpaces site (consider site selection) .zero (searched selection)).Ends serve
      (Goes (J (searched selection) []) w) w events := by
    refine calm_overSpaces (J := J) (fun done rest s t h => ⟨h.1.thin, h.2⟩) ?body ?opens passable.starts calm
      hb pages _ ⟨clearing_zero _ _ _, fun _ => rfl⟩
    case body =>
      intro done space key rest tally t more b calm hb h
      refine (h.1.consider_ends calm hb).mono fun r u _ hu => ?_
      obtain ⟨tally, rfl, eroded, cleared⟩ := hu
      exact ⟨tally, rfl, eroded, cleared, fun initial => by simp at initial⟩
    case opens =>
      intro done space later start tally t b all hstart erased hb h
      have searched : space ∈ searched selection := all ▸ List.mem_append_right _ List.mem_cons_self
      exact ⟨h.1.opens hb hstart
        (fun k o ho starts => passable.objects k o (erased.objects ho) ⟨space, searched, start, hstart, starts⟩)
        (fun asks => h.2 (searched_of_asks asks all)), fun initial => by simp at initial⟩
  rw [deleteMatching]
  refine (Op.ends_account_ok (loop.bind_ok fun tally t more ht => ?_)).bind_ok fun tally t more ht => ⟨_, rfl, ht⟩
  obtain ⟨eroded, cleared, -⟩ := ht
  obtain ⟨b', gone, hb', ht⟩ := eroded.bucket
  refine (cleared.finish_ends eroded.calm ht).mono fun r u more hu => ?_
  obtain ⟨tally, rfl, eroded', finished⟩ := hu
  exact ⟨tally, rfl, eroded.trans eroded', fun k o ho picked => finished k o ho picked.2 picked.1⟩

/-! ## Missing contents -/

/-- **All keys of some spaces are found.** -/
theorem calm_keysOf (calm : Calm w) (hb : w.bucket = some b) (pages : b.objects.length < site.pageLimit)
    {spaces : List String} (starts : ∀ space ∈ spaces, ∃ start, site.location.start (some space) = .ok start) :
    (keysOf site spaces).Ends serve (Goes (fun keys t => ∀ k o, t.object? k = some o →
      Among site.location (spaces.map some) k → k ∈ keys) w) w events := by
  let J (done : List (Option String)) (rest keys : List String) (t : World) : Prop :=
    ∀ k o, t.object? k = some o → Among site.location done k → k ∈ keys ∨ k ∈ rest
  have loop : (keysOf site spaces).Ends serve (Goes (J (spaces.map some) []) w) w events := by
    refine calm_overSpaces (J := J) ?thin ?body ?opens ?starts calm hb pages _ ?zero
    case thin => exact fun done rest s t h k o ho among => (h k o ho among).imp_right fun hk => by simp [hk, ho]
    case body =>
      refine fun done space key rest keys t more b calm hb h => ⟨key :: keys, rfl, .refl calm hb, fun k o ho among => ?_⟩
      have := h k o ho among
      simp only [List.mem_cons] at this ⊢
      tauto
    case opens =>
      rintro done space later start keys t b - hstart - hb h k o ho ⟨space', hspace, start', hstart', starts'⟩
      rcases List.mem_append.1 hspace with hspace | hspace
      · exact .inl ((h k o ho ⟨space', hspace, start', hstart', starts'⟩).resolve_right List.not_mem_nil)
      · rw [List.mem_singleton.1 hspace, hstart, Except.ok.injEq] at hstart'
        exact .inr ((mem_listed_iff hb).2 ⟨⟨o, ho⟩, hstart' ▸ starts'⟩)
    case starts => simpa using starts
    case zero => exact fun _ _ _ among => (not_among_nil among).elim
  refine loop.mono fun r t more ht => ?_
  obtain ⟨keys, rfl, eroded, h⟩ := ht
  exact ⟨keys, rfl, eroded, fun k o ho among => (h k o ho among).resolve_right List.not_mem_nil⟩

/-- **The entries that miss their content are found** where their keys and the starts of their spaces are accepted. -/
theorem calm_withoutContent (calm : Calm w) (hb : w.bucket = some b) (pages : b.objects.length < site.pageLimit)
    {entries : List Entry} (starts : ∀ e ∈ entries, ∃ start, site.location.start (some e.space) = .ok start)
    (keys : ∀ e ∈ entries, ∃ key, site.location.key e.space e.id = .ok key) :
    (withoutContent site entries).Ends serve (Prog.Succeeds fun _ t _ => Calm t) w events := by
  have searched : ∀ space ∈ (entries.map (·.space)).eraseDups, ∃ start, site.location.start (some space) = .ok start := by
    intro space hspace
    obtain ⟨e, he, rfl⟩ := List.mem_map.1 (List.mem_eraseDups.1 hspace)
    exact starts e he
  have listed : (keysOf site (entries.map (·.space)).eraseDups).Ends serve (Prog.Succeeds fun _ t _ => Calm t) w
      events := by
    refine (calm_keysOf calm hb pages searched).mono fun r t more ht => ?_
    obtain ⟨keys, rfl, eroded, -⟩ := ht
    exact ⟨keys, rfl, eroded.calm⟩
  unfold withoutContent
  refine (Op.ends_account_ok listed).bind_ok fun found t more calm' => ?_
  refine Prog.Ends.bind_ok (R := fun _ u _ => u = t) ?_ fun keyed u more hu => ⟨_, rfl, hu ▸ calm'⟩
  refine (located_ends entries t more).mono fun r u _ ⟨still, _, succeeds⟩ => ?_
  obtain ⟨keyed, rfl⟩ := succeeds keys
  exact ⟨keyed, rfl, still⟩

end Content

/-! ## Rows -/

namespace Files

/-- a question can be put: its cutoff, if it has one, has a date in UTC -/
def Answerable : FileQuery → Prop
  | .before cutoff => cutoff.toUtc? ≠ none
  | _ => True

/-- a removal of rows asks the database with the cutoff in UTC, which asks for the same rows -/
theorem remove_eq {q : FileQuery} (answerable : Answerable q) :
    ∃ q', (∀ table : FileTable, table.remove q' = table.remove q ∧ table.select q' = table.select q) ∧
      remove q = if q'.isEmpty then pure 0 else Op.ask (.deleteFiles q') >>= fun reply => Prog.ofReply reply := by
  obtain ⟨q', prepared, means⟩ : ∃ q', prepare q = pure q' ∧ ∀ e, q'.holds e = q.holds e := by
    cases q with
    | before cutoff =>
      obtain ⟨utc, hutc⟩ := Option.ne_none_iff_exists'.1 answerable
      refine ⟨.before utc, by rw [prepare, inUtc, hutc]; rfl, fun e => ?_⟩
      simp only [FileQuery.holds, Time.Timestamp.instant_toUtc? hutc]
    | _ => exact ⟨_, rfl, fun _ => rfl⟩
  refine ⟨q', fun table => ⟨?_, List.filter_congr fun e _ => means e⟩, ?_⟩
  · simp only [FileTable.remove, means]
  · rw [remove, prepared, LawfulMonad.pure_bind]

/-- **The rows asked for are removed** and counted, if none of them is locked, and nothing else happens. -/
theorem unstruck_remove (unstruck : w.strikes = []) {q : FileQuery} (answerable : Answerable q)
    (free : ∀ e ∈ w.files.select q, w.locked.contains e.id = false) (task : Task) :
    (statement task (remove q)).Ends serve (Prog.Succeeds fun n t more => n = (w.files.select q).length ∧
      t = { w with files := w.files.remove q } ∧ more = events) w events := by
  refine Op.ends_account_ok ?_
  obtain ⟨q', same, removes⟩ := remove_eq answerable
  obtain ⟨removed, asked⟩ := same w.files
  rw [removes, ← removed, ← asked]
  split
  case isTrue empty =>
    have nobody : w.files.select q' = [] := List.filter_eq_nil_iff.2 fun e _ => by simp [holds_of_isEmpty empty e]
    rw [FileTable.remove_none (holds_of_isEmpty empty), nobody]
    exact ⟨0, rfl, rfl, rfl, rfl⟩
  case isFalse =>
    have unlocked : ¬((w.files.select q').any fun e => w.locked.contains e.id) = true := by
      rw [Bool.not_eq_true, List.any_eq_false, asked]
      intro e he
      rw [free e he]
      exact Bool.false_ne_true
    rw [Op.ends_ask_bind, unstruck_deleteFiles unstruck, if_neg unlocked]
    exact ⟨_, rfl, rfl, rfl, rfl⟩

theorem calm_remove (calm : Calm w) {q : FileQuery} (answerable : Answerable q) (task : Task) :
    (statement task (remove q)).Ends serve (Prog.Succeeds fun n t more => n = (w.files.select q).length ∧
      t = { w with files := w.files.remove q } ∧ more = events) w events :=
  unstruck_remove calm.strikes answerable (fun e _ => by simp [calm.locked]) task

/-- **Where one of them is locked, none is removed,** and this is accounted for. -/
theorem unstruck_remove_locked (unstruck : w.strikes = []) {q : FileQuery} (answerable : Answerable q) {e : Entry}
    (he : e ∈ w.files.select q) (locked : w.locked.contains e.id = true) (task : Task) :
    (statement task (remove q)).Ends serve (fun r t more => r = .error (.storage task .lockedRow) ∧ t = w ∧
      more = .taskFailed task :: events) w events := by
  obtain ⟨q', same, removes⟩ := remove_eq answerable
  have he : e ∈ w.files.select q' := (same w.files).2 ▸ he
  have asks : ¬(q'.isEmpty = true) := by
    intro empty
    have holds := (List.mem_filter.1 he).2
    rw [holds_of_isEmpty empty e] at holds
    cases holds
  have held : ((w.files.select q').any fun e => w.locked.contains e.id) = true := List.any_eq_true.2 ⟨e, he, locked⟩
  have refused : (remove q).Ends serve (fun r t more => r = .error (.fault .lockedRow) ∧ t = w ∧ more = events) w
      events := by
    rw [removes, if_neg asks, Op.ends_ask_bind, unstruck_deleteFiles unstruck, if_pos held]
    exact ⟨rfl, rfl, rfl⟩
  unfold statement Op.account
  apply refused.rescue
  · rintro n t more ⟨failed, -⟩
    cases failed
  · rintro failure t more ⟨failed, rfl, rfl⟩
    cases failed
    exact ⟨rfl, rfl, rfl⟩

/-! ## Sweeps -/

/-- **A sweep returns** where the keys of all rows and the starts of their spaces are accepted. -/
theorem calm_sweep (calm : Calm w) (hb : w.bucket = some b) (pages : b.objects.length < site.pageLimit)
    (starts : ∀ e ∈ w.files.rows, ∃ start, site.location.start (some e.space) = .ok start)
    (keys : ∀ e ∈ w.files.rows, ∃ key, site.location.key e.space e.id = .ok key) :
    (sweep site).Ends serve (Prog.Succeeds fun _ _ _ => True) w events := by
  have selected : (select .all).Ends serve (Prog.Succeeds fun rows t _ => rows = w.files.rows ∧ t = w) w events := by
    have all : w.files.select .all = w.files.rows := List.filter_eq_self.2 fun _ _ => rfl
    show (Op.ask (.selectFiles .all) >>= _).Ends _ _ _ _
    rw [Op.ends_ask_bind, unstruck_selectFiles calm.strikes, all]
    exact ⟨_, rfl, rfl, rfl⟩
  unfold sweep
  refine (Op.ends_account_ok selected).bind_ok fun rows t more ht => ?_
  obtain ⟨rfl, rfl⟩ := ht
  refine (Content.calm_withoutContent calm hb pages starts keys).bind_ok fun missing u more calm' => ?_
  split
  case isTrue => exact ⟨0, rfl, trivial⟩
  case isFalse =>
    refine (Prog.ends_records _ missing _ _).bind (fun _ v more hv => ?_) (fun failure v more hv => by cases hv.1)
    obtain ⟨-, rfl⟩ := hv
    refine (calm_remove calm' (q := .withIds (missing.map (·.id))) trivial _).mono fun r x more hx => ?_
    obtain ⟨n, rfl, -⟩ := hx
    exact ⟨n, rfl, trivial⟩

/-! ## Deletions -/

/-- a deletion removes the content first -/
theorem unstruck_content (unstruck : w.strikes = []) (hb : w.bucket = some b) {space id key : String}
    (hkey : site.location.key space id = .ok key) (hne : key ≠ "") :
    (Content.delete site space id).Ends serve (Prog.Succeeds fun _ t more =>
      t = { w with bucket := some (b.erase [key]) } ∧ more = .deletingContent key :: events) w events := by
  rw [Content.delete, hkey, Prog.ofExcept_ok_bind]
  refine Op.ends_account_ok ?_
  rw [Prog.ends_record_bind, Op.ends_ask_bind, unstruck_deleteObject unstruck hb hne]
  exact ⟨_, rfl, rfl, rfl⟩

/-- **A deletion removes the content and the row,** if this is not locked, and says whether there was one. -/
theorem unstruck_delete (unstruck : w.strikes = []) (hb : w.bucket = some b) {space id key : String}
    (hkey : site.location.key space id = .ok key) (hne : key ≠ "")
    (free : ∀ e ∈ w.files.select (.file space id), w.locked.contains e.id = false) :
    (delete site space id).Ends serve (Prog.Succeeds fun there t more =>
      there = decide (0 < (w.files.select (.file space id)).length) ∧
      t = { w with bucket := some (b.erase [key]), files := w.files.remove (.file space id) } ∧
      more = .entryDeleted id space :: .deletingContent key :: events) w events := by
  unfold delete
  apply (unstruck_content unstruck hb hkey hne).bind_ok
  rintro _ t more ⟨rfl, rfl⟩
  have answerable : Answerable (.file space id) := trivial
  have unstruck' : { w with bucket := some (b.erase [key]) }.strikes = [] := unstruck
  apply (unstruck_remove unstruck' answerable free (.deleteEntry id)).bind_ok
  rintro n u more ⟨rfl, rfl, rfl⟩
  exact ⟨_, rfl, rfl, rfl, rfl⟩

theorem calm_delete (calm : Calm w) (hb : w.bucket = some b) {space id key : String}
    (hkey : site.location.key space id = .ok key) (hne : key ≠ "") :
    (delete site space id).Ends serve (Prog.Succeeds fun there t more =>
      there = decide (0 < (w.files.select (.file space id)).length) ∧
      t = { w with bucket := some (b.erase [key]), files := w.files.remove (.file space id) } ∧
      more = .entryDeleted id space :: .deletingContent key :: events) w events :=
  unstruck_delete calm.strikes hb hkey hne fun e _ => by simp [calm.locked]

/-- **A deletion of a file whose row is locked** removes the content and fails at the row. -/
theorem unstruck_delete_locked (unstruck : w.strikes = []) (hb : w.bucket = some b) {space id key : String}
    (hkey : site.location.key space id = .ok key) (hne : key ≠ "") {e : Entry}
    (he : e ∈ w.files.select (.file space id)) (locked : w.locked.contains e.id = true) :
    (delete site space id).Ends serve (fun r t more => r = .error (.storage (.deleteEntry id) .lockedRow) ∧
      t = { w with bucket := some (b.erase [key]) } ∧
      more = .taskFailed (.deleteEntry id) :: .deletingContent key :: events) w events := by
  unfold delete
  refine (unstruck_content unstruck hb hkey hne).bind ?_ ?_
  · rintro _ t more ⟨_, -, rfl, rfl⟩
    have answerable : Answerable (.file space id) := trivial
    have unstruck' : { w with bucket := some (b.erase [key]) }.strikes = [] := unstruck
    refine (unstruck_remove_locked unstruck' answerable he locked (.deleteEntry id)).bind ?_ ?_
    · rintro n u more ⟨failed, -⟩
      cases failed
    · rintro failure u more ⟨failed, rfl, rfl⟩
      cases failed
      exact ⟨rfl, rfl, rfl⟩
  · rintro failure t more ⟨_, failed, -⟩
    cases failed

/-- **A bulk deletion removes the contents of its selection, and no others**, before it asks for their rows. -/
theorem calm_contents (calm : Calm w) (hb : w.bucket = some b) (pages : b.objects.length < site.pageLimit)
    (passable : selection.Passable site.location w) :
    (Content.deleteMatching site selection).Ends serve (Prog.Succeeds fun _ t _ => Calm t ∧ t.files = w.files ∧
      ∀ k o, t.object? k = some o ↔ w.object? k = some o ∧ ¬selection.Picks site.location k o) w events := by
  refine ((Content.calm_deleteMatching calm hb pages passable).and (Content.deleteMatching_ends selection)).mono
    fun r t more ht => ?_
  obtain ⟨⟨n, rfl, eroded, unpicked⟩, trimmed⟩ := ht
  refine ⟨n, rfl, eroded.calm, trimmed.files, fun k o => ?_⟩
  constructor
  · intro ho
    exact ⟨trimmed.objects k o ho, unpicked k o ho⟩
  · intro ⟨ho, left⟩
    exact (trimmed.kept k o ho).resolve_right left

/-- **A bulk deletion removes the rows and the contents of its selection.** -/
theorem calm_deleteSelected (calm : Calm w) (hb : w.bucket = some b) (pages : b.objects.length < site.pageLimit)
    (passable : selection.Passable site.location w) (answerable : Answerable (queryOf selection)) :
    (deleteSelected site selection).Ends serve (Prog.Succeeds fun _ t _ =>
      t.files = w.files.remove (queryOf selection) ∧
        ∀ k o, t.object? k = some o ↔ w.object? k = some o ∧ ¬selection.Picks site.location k o) w events := by
  rw [deleteSelected]
  refine (calm_contents calm hb pages passable).bind_ok fun _ t more ht => ?_
  obtain ⟨calm', files, left⟩ := ht
  refine (calm_remove calm' answerable _).mono fun r u more hu => ?_
  obtain ⟨n, rfl, -, rfl, -⟩ := hu
  exact ⟨n, rfl, by rw [files], left⟩

end Files

/-! ## Cleanup -/

/-- **A deletion by the cleanup removes the content and the row.** -/
theorem Retention.calm_deleteSafely {n : Nat} (h : 0 < n) (calm : Calm w) (hb : w.bucket = some b) {e : Entry}
    {key : String} (hkey : site.location.key e.space e.id = .ok key) (hne : key ≠ "") :
    ((⟨files site, n, h⟩ : Cleaner service).deleteSafely e).Ends serve (fun _ t _ => Calm t ∧
      t.bucket = some (b.erase [key]) ∧ t.files = w.files.remove (.file e.space e.id)) w events := by
  show (Prog.record (.deleting e.description) >>= fun _ => (Files.delete site e.space e.id).attempt >>= _).Ends _ _ _ _
  rw [Prog.ends_record_bind, Prog.ends_bind, Prog.ends_attempt]
  refine (Files.calm_delete calm hb hkey hne).mono fun r t more ht => ?_
  obtain ⟨there, rfl, -, rfl, -⟩ := ht
  have calm' : Calm { w with bucket := some (b.erase [key]), files := w.files.remove (.file e.space e.id) } :=
    ⟨calm.strikes, calm.refusals, calm.locked⟩
  cases there with
  | true => exact ⟨calm', rfl, rfl⟩
  | false => exact ⟨calm', rfl, rfl⟩

end Depot
