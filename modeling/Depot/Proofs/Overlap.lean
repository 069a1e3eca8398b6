/-
A bulk deletion while one content comes and goes.

While a deletion of spaces or of a namespace goes through its listings, others may put a content at some key and remove it
again. Where pages and batches end may depend on that, but what becomes of the objects at all other keys does not: each of
them that is wanted is on the page where its key is (`Combed.pages`), waits and is removed, and nothing else is. So a
deletion that ends well leaves at other keys just what its selection does not pick (`Files.follows_deleteSelected`).
-/
import Depot.Proofs.Isolation
import Depot.Proofs.Paging

namespace Depot

open World Key

variable {l : Location} {w s t u : World} {own : String} {selection : Selection} {site : Site}

/-! ## What others do meanwhile -/

theorem World.object?_of_bucket (bucket : t.bucket = w.bucket) (k : String) : t.object? k = w.object? k := by
  rw [object?, bucket, ← object?]

/-- the objects at all keys but one are the same, and nothing will fail -/
structure World.Apart (own : String) (s u : World) : Prop where
  calm : Calm u
  objects : ∀ k, k ≠ own → u.object? k = s.object? k

theorem World.Apart.refl (calm : Calm s) : Apart own s s :=
  ⟨calm, fun _ _ => rfl⟩

theorem World.Apart.trans (h : Apart own s t) (h' : Apart own t u) : Apart own s u :=
  ⟨h'.calm, fun k other => (h'.objects k other).trans (h.objects k other)⟩

theorem World.Apart.reads {c : Call} (h : Apart own s u) (reads : c.Reads) : Apart own s (serve c u).2 :=
  ⟨serve_calm c h.calm, fun k other => ((serve_reads reads u).object? k).trans (h.objects k other)⟩

/-- between the calls of a program, others change the object at one key at most -/
def World.besides (own : String) : Protocol service World where
  allows _ _ := True
  leads c s r t := ∃ u, Apart own s u ∧ r = (serve c u).1 ∧ t = (serve c u).2

/-! ## Going through the listings -/

/-- of the objects at other keys than one, those that are gone and those that wait are picked, and those that are wanted
and among some keys wait or are still to come; so does one at the empty key, which no call can remove -/
structure Combed (l : Location) (selection : Selection) (w : World) (own : String) (among coming : String → Prop)
    (tally : Content.Tally) (s : World) : Prop where
  calm : Calm s
  objects : ∀ k o, k ≠ own → s.object? k = some o → w.object? k = some o
  kept : ∀ k o, k ≠ own → w.object? k = some o → s.object? k = some o ∨ selection.Picks l k o
  waiting : ∀ k ∈ tally.waiting, k ≠ own → ∀ o, w.object? k = some o → selection.Picks l k o
  complete : ∀ k o, k ≠ own → s.object? k = some o → selection.Wants o ∨ k = "" → among k → k ∈ tally.waiting ∨ coming k

namespace Combed

variable {among coming coming' : String → Prop} {tally : Content.Tally} {key : String}

theorem apart (h : Combed l selection w own among coming tally s) (apart : Apart own s u) :
    Combed l selection w own among coming tally u where
  calm := apart.calm
  objects k o other ho := h.objects k o other (apart.objects k other ▸ ho)
  kept k o other ho := apart.objects k other ▸ h.kept k o other ho
  waiting := h.waiting
  complete k o other ho := h.complete k o other (apart.objects k other ▸ ho)

/-- what is still to come may be told in another way -/
theorem mono (h : Combed l selection w own among coming tally s) (sub : ∀ k, coming k → coming' k) :
    Combed l selection w own among coming' tally s :=
  ⟨h.calm, h.objects, h.kept, h.waiting, fun k o other ho wanted hk =>
    (h.complete k o other ho wanted hk).imp_right (sub k)⟩

theorem follows_flush (h : Combed l selection w own among coming tally s) : tally.flush.Follows (besides own)
    (Yields fun tally t => Combed l selection w own among coming tally t ∧ tally.waiting = []) s := by
  rw [Content.Tally.flush, Op.follows_ask_bind]
  refine ⟨trivial, ?_⟩
  rintro _ _ ⟨u, apart, rfl, rfl⟩
  have h := h.apart apart
  rcases serve_deleteObjects u tally.waiting with ⟨f, reply, -⟩ | ⟨refused, reply, willing, b, hb, hu, -⟩
  · rw [reply]
    exact yields_error _
  obtain rfl := willing apart.calm.refusals
  rw [reply, Prog.ofReply_ok_bind]
  have all : tally.waiting.filter (fun k => !(([] : List Refused).filterMap (·.key)).contains k) = tally.waiting :=
    List.filter_eq_self.2 fun _ _ => rfl
  rw [all] at hu
  refine yields_ok ⟨⟨serve_calm _ apart.calm, fun k o other ho => ?_, fun k o other ho => ?_, by simp,
    fun k o other ho wanted among => .inr ?_⟩, rfl⟩
  · rw [object?_erase hb hu] at ho
    split at ho
    · cases ho
    · exact h.objects k o other ho
  · rw [object?_erase hb hu]
    split
    case isTrue sent => exact .inr (h.waiting k sent other o ho)
    case isFalse => exact h.kept k o other ho
  · rw [object?_erase hb hu] at ho
    split at ho
    case isTrue => cases ho
    case isFalse unsent => exact (h.complete k o other ho wanted among).resolve_left unsent

/-- an object that stays is listed on the page where its key is when that page is given -/
theorem pages {start : String} {after : Option String}
    (h : Combed l selection w own among (Content.Behind start after) tally s) :
    Content.Pages (besides own) (fun coming => Combed l selection w own among coming tally) start after s := by
  refine ⟨trivial, ?_⟩
  rintro _ _ ⟨u, apart, rfl, rfl⟩
  rcases serve_list u start after with ⟨f, reply⟩ | ⟨b, hb, reply⟩
  · exact .inl ⟨f, reply⟩
  have hu := h.apart apart
  have ht := h.apart (apart.reads (c := .listObjects start after) trivial)
  refine .inr ⟨b, reply, ht.calm, ht.objects, ht.kept, ht.waiting, fun k o other ho wanted hk => ?_⟩
  rw [(serve_reads (c := .listObjects start after) trivial u).object?] at ho
  refine (hu.complete k o other ho wanted hk).imp_right fun behind => ?_
  rw [object?, hb, Option.bind_some] at ho
  exact Bucket.mem_listed.2 ⟨Bucket.mem_keys_iff.2 ⟨o, ho⟩, behind⟩

/-- with another space, what is listed for it is still to come -/
theorem opens {done : List (Option String)} {space : Option String} {start : String}
    (h : Combed l selection w own (Content.Among l done) (fun _ => False) tally s) (hstart : l.start space = .ok start) :
    Combed l selection w own (Content.Among l (done ++ [space])) (Content.Behind start none) tally s := by
  refine ⟨h.calm, h.objects, h.kept, h.waiting, fun k o other ho wanted among => ?_⟩
  obtain ⟨space', hspace, start', hstart', starts⟩ := among
  rcases List.mem_append.1 hspace with before | here
  · exact .inl ((h.complete k o other ho wanted ⟨space', before, start', hstart', starts⟩).resolve_right id)
  · rw [List.mem_singleton.1 here, hstart, Except.ok.injEq] at hstart'
    exact .inr ⟨hstart' ▸ starts, by simp⟩

end Combed

namespace Content

variable {among coming : String → Prop} {tally : Tally} {key : String}

/-- an object at another key is chosen just if it is wanted, and one at the empty key cannot be told apart -/
theorem follows_selects (byPlace : selection.ByPlace) (calm : Calm s) (key : String) :
    (selects selection key).Follows (besides own) (Yields fun chosen t => Apart own s t ∧ (key = "" → chosen = true) ∧
      (key ≠ own → ∀ o, s.object? key = some o → (chosen = true ↔ selection.Wants o))) s := by
  cases selection with
  | before => exact byPlace.elim
  | inSpaces spaces => exact yields_ok ⟨.refl calm, fun _ => rfl, fun _ _ _ => iff_of_true rfl trivial⟩
  | inNamespace space ns =>
    rw [selects, namespaceOf, LawfulMonad.bind_assoc, Op.follows_ask_bind]
    refine ⟨trivial, ?_⟩
    rintro _ _ ⟨u, apart, rfl, rfl⟩
    rcases serve_head u key with ⟨f, reply⟩ | ⟨o, named, ho, reply⟩
    · rw [reply]
      exact yields_error _
    · rw [reply]
      refine yields_ok ⟨apart.reads trivial, fun empty => absurd empty named, fun other o' ho' => ?_⟩
      rw [apart.objects key other] at ho
      rw [beq_iff_eq, ← Option.some.inj (ho.symm.trans ho')]
      exact Iff.rfl

theorem follows_consider (byPlace : selection.ByPlace) (reached : selection.Reaches l key)
    (h : Combed l selection w own among (fun k => k = key ∨ coming k) tally s) :
    (consider site selection tally key).Follows (besides own)
      (Yields (Combed l selection w own among coming)) s := by
  rw [consider]
  refine (follows_selects byPlace h.calm key).yields fun chosen t ht => ?_
  obtain ⟨apart, nameless, chosen_iff⟩ := ht
  have ht := h.apart apart
  cases chosen with
  | false =>
    refine yields_ok ⟨ht.calm, ht.objects, ht.kept, ht.waiting, fun k o other ho wanted hk => ?_⟩
    refine (ht.complete k o other ho wanted hk).imp_right fun coming => coming.resolve_left ?_
    rintro rfl
    refine absurd ?_ Bool.false_ne_true
    exact wanted.elim (chosen_iff other o (apart.objects k other ▸ ho)).2 nameless
  | true =>
    have waits : Combed l selection w own among coming { tally with waiting := tally.waiting ++ [key] } t := by
      refine ⟨ht.calm, ht.objects, ht.kept, fun k hk other o ho => ?_, fun k o other ho wanted hk => ?_⟩
      · rcases List.mem_append.1 hk with hk | hk
        · exact h.waiting k hk other o ho
        · obtain rfl := List.mem_singleton.1 hk
          refine (h.kept k o other ho).elim (fun there => ⟨reached, (chosen_iff other o there).1 rfl⟩) id
      · rw [List.mem_append, List.mem_singleton, or_assoc]
        exact ht.complete k o other ho wanted hk
    show (tally.add site key).Follows _ _ _
    rw [Tally.add]
    split
    · exact waits.follows_flush.mono fun r v hv tally ok => (hv tally ok).1
    · exact yields_ok waits

/-- **All keys of the spaces of a selection come up,** if they are accepted. -/
theorem follows_clearing (byPlace : selection.ByPlace) (calm : Calm w) :
    (overSpaces site (consider site selection) .zero (searched selection)).Follows (besides own) (Yields fun tally t =>
      Combed site.location selection w own (selection.Reaches site.location) (fun _ => False) tally t ∧
        ∀ space ∈ searched selection, ∃ start, site.location.start space = .ok start) w := by
  refine follows_overSpaces
    (J := fun done coming tally t => Combed site.location selection w own (Among site.location done) coming tally t)
    (fun _ _ _ _ _ sub h => h.mono sub) (fun _ _ _ _ _ h => h.pages) ?body
    (fun _ _ _ _ _ hstart h => h.opens hstart) _ w ?zero
  case body =>
    intro done space start key coming tally t listed hstart starts h
    exact follows_consider byPlace ⟨space, listed, start, hstart, starts⟩ h
  case zero =>
    exact ⟨calm, fun _ _ _ ho => ho, fun _ _ _ ho => .inl ho, by simp [Tally.zero], fun _ _ _ _ _ among =>
      (not_among_nil among).elim⟩

/-- at other keys than one there is just what a selection does not pick; and nothing stood in the way of its deletion -/
structure Sifted (l : Location) (selection : Selection) (own : String) (w t : World) : Prop where
  objects : ∀ k o, k ≠ own → (t.object? k = some o ↔ w.object? k = some o ∧ ¬selection.Picks l k o)
  starts : ∀ space ∈ searched selection, ∃ start, l.start space = .ok start
  named : ∀ o, "" ≠ own → t.object? "" = some o → ¬selection.Reaches l ""

theorem Sifted.apart (h : Sifted l selection own w t) (apart : Apart own t u) : Sifted l selection own w u where
  objects k o other := apart.objects k other ▸ h.objects k o other
  starts := h.starts
  named o other ho := h.named o other (apart.objects "" other ▸ ho)

/-- once all keys have come up and none waits -/
theorem Sifted.of_combed (h : Combed l selection w own (selection.Reaches l) (fun _ => False) tally t)
    (empty : tally.waiting = []) (starts : ∀ space ∈ searched selection, ∃ start, l.start space = .ok start) :
    Sifted l selection own w t := by
  have unwanted k o (other : k ≠ own) (ho : t.object? k = some o) (wanted : selection.Wants o ∨ k = "")
      (reached : selection.Reaches l k) : False := by
    have waits := h.complete k o other ho wanted reached
    rw [empty] at waits
    exact waits.elim List.not_mem_nil id
  refine ⟨fun k o other => ⟨fun ho => ?_, fun left => ?_⟩, starts, fun o other ho => ?_⟩
  · exact ⟨h.objects k o other ho, fun picked => unwanted k o other ho (.inl picked.2) picked.1⟩
  · exact (h.kept k o other left.1).resolve_right left.2
  · exact unwanted "" o other ho (.inr rfl)

/-- **A bulk deletion that ends well has removed just what its selection picks,** at other keys than one. -/
theorem follows_deleteMatching (byPlace : selection.ByPlace) (calm : Calm w) :
    (deleteMatching site selection).Follows (besides own)
      (Yields fun _ t => Sifted site.location selection own w t) w := by
  rw [deleteMatching]
  refine Prog.Follows.yields (J := fun _ t => Sifted site.location selection own w t) ?_ fun tally t ht => by
    rw [Prog.follows_record_bind]
    exact yields_ok ht
  refine Op.follows_account ?_ fun _ e _ _ => yields_error e
  refine (follows_clearing byPlace calm).yields fun tally t ht => ?_
  obtain ⟨ht, accepted⟩ := ht
  rw [Tally.finish]
  split
  case isTrue empty => exact yields_ok (.of_combed ht empty accepted)
  case isFalse =>
    refine ht.follows_flush.mono fun r v hv tally ok => ?_
    obtain ⟨hv, empty⟩ := hv tally ok
    exact .of_combed hv empty accepted

end Content

/-- a question for rows by their place is put as it is -/
theorem Selection.ByPlace.prepare (byPlace : selection.ByPlace) :
    Files.prepare (Files.queryOf selection) = pure (Files.queryOf selection) := by
  cases selection with
  | before => exact byPlace.elim
  | _ => rfl

/-- **And it has removed their rows after that,** which leaves the objects as they are. -/
theorem Files.follows_deleteSelected (byPlace : selection.ByPlace) (calm : Calm w) :
    (deleteSelected site selection).Follows (besides own)
      (Yields fun _ t => Content.Sifted site.location selection own w t) w := by
  rw [deleteSelected]
  refine (Content.follows_deleteMatching byPlace calm).yields fun _ t sifted => ?_
  refine Op.follows_account ?_ fun _ e _ _ => yields_error e
  rw [remove, byPlace.prepare, LawfulMonad.pure_bind]
  split
  · exact yields_ok sifted
  · rw [Op.follows_ask_bind]
    refine ⟨trivial, ?_⟩
    rintro r _ ⟨u, apart, -, rfl⟩
    rw [Prog.follows_ofReply]
    intro n _
    refine sifted.apart (apart.trans ⟨serve_calm _ apart.calm, fun k _ => ?_⟩)
    exact object?_of_bucket (serve_keepsBucket (c := .deleteFiles (queryOf selection)) trivial u) k

end Depot
