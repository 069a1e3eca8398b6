/-
Listings that others change on the way.

Between the calls of a program others may put objects and remove them, so neither the pages of a listing nor their number is
known beforehand. But a page begins right after the last key of the one before. So whatever is listed while a page is given
is on that page, or its key is behind it; and what is true of the keys that are still to come is carried from page to page
and from space to space (`follows_overKeys`, `follows_overSpaces`). Where such a run ends well no key is still to come.
-/
import Depot.Content.Bulk
import Depot.Proofs.Listing
import Depot.Proofs.Turns

namespace Depot.Content

variable {σ τ : Type} {P : Protocol service τ} {site : Site} {step : σ → String → Op σ} {start : String}

/-- the keys of a listing after one of them, or all -/
def Behind (start : String) (after : Option String) (k : String) : Prop :=
  Bucket.startsWith start k = true ∧ ∀ a ∈ after, a < k

/-- the next page may be asked for. This breaks off, or the page is that of a bucket, and `J` holds of the keys that the
bucket lists. -/
def Pages (P : Protocol service τ) (J : (String → Prop) → τ → Prop) (start : String) (after : Option String) (t : τ) :
    Prop :=
  P.allows (.listObjects start after) t ∧ ∀ r u, P.leads (.listObjects start after) t r u →
    (∃ f, r = .error f) ∨ ∃ b : Bucket, r = .ok (b.page start after) ∧ J (· ∈ b.listed start after) u

/-- **A page for a page.** `J` holds of the keys still to come, of the value so far, and of the state. -/
theorem follows_overKeys {J : (String → Prop) → σ → τ → Prop}
    (mono : ∀ coming coming' s t, (∀ k, coming k → coming' k) → J coming s t → J coming' s t)
    (pages : ∀ after s t, J (Behind start after) s t → Pages P (J · s) start after t)
    (body : ∀ key coming s t, Bucket.startsWith start key = true → J (fun k => k = key ∨ coming k) s t →
      (step s key).Follows P (Yields (J coming)) t)
    (limit : Nat) (after : Option String) (s : σ) (t : τ) (h : J (Behind start after) s t) :
    (overKeys start step limit after s).Follows P (Yields (J fun _ => False)) t := by
  induction limit generalizing after s t with
  | zero => exact yields_error _
  | succ limit ih =>
    rw [overKeys, Op.follows_ask_bind]
    obtain ⟨allowed, given⟩ := pages after s t h
    refine ⟨allowed, fun r u leads => ?_⟩
    obtain ⟨f, rfl⟩ | ⟨b, rfl, listed⟩ := given r u leads
    · exact yields_error _
    rw [Prog.ofReply_ok_bind]
    -- a key comes up on this page, or behind the last one of it
    let later (k : String) : Prop :=
      (b.page start after).more = true ∧ Behind start (b.page start after).keys.getLast? k
    have here : J (fun k => k ∈ (b.page start after).keys ∨ later k) s u := by
      refine mono _ _ s u (fun k hk => (Bucket.mem_page_or hk).imp_right fun after => ?_) listed
      exact ⟨after.1, (Bucket.mem_listed.1 hk).2.1, after.2⟩
    have fold : ((b.page start after).keys.foldlM step s).Follows P (Yields (J later)) u := by
      refine Prog.Follows.foldlM (fun rest s t => J (fun k => k ∈ rest ∨ later k) s t ∧
        ∀ k ∈ rest, Bucket.startsWith start k = true) (fun key rest s t ht => ?_) (fun s t ht => ?last) _ s u
        ⟨here, fun k hk => (Bucket.mem_listed.1 (List.mem_of_mem_take hk)).2.1⟩
      case last => exact yields_ok (mono _ _ s t (fun k coming => coming.resolve_left List.not_mem_nil) ht.1)
      obtain ⟨ht, within⟩ := ht
      have next : J (fun k => k = key ∨ k ∈ rest ∨ later k) s t :=
        mono _ _ s t (fun k coming => by simpa [or_assoc] using coming) ht
      refine (body key _ s t (within key List.mem_cons_self) next).mono fun r v hv => ?_
      cases r with
      | ok s => exact ⟨hv s rfl, fun k hk => within k (List.mem_cons_of_mem _ hk)⟩
      | error e => exact yields_error e
    refine fold.yields fun s v hv => ?_
    split
    case isTrue more => exact ih _ s v (mono _ _ s v (fun k coming => coming.2) hv)
    case isFalse last => exact yields_ok (mono _ _ s v (fun k coming => last coming.1) hv)

/-- **Space after space.** `J` holds of the spaces gone through besides. -/
theorem follows_overSpaces {J : List (Option String) → (String → Prop) → σ → τ → Prop} {spaces : List (Option String)}
    (mono : ∀ done coming coming' s t, (∀ k, coming k → coming' k) → J done coming s t → J done coming' s t)
    (pages : ∀ done start after s t, J done (Behind start after) s t → Pages P (J done · s) start after t)
    (body : ∀ done space start key coming s t, space ∈ spaces → site.location.start space = .ok start →
      Bucket.startsWith start key = true → J done (fun k => k = key ∨ coming k) s t →
      (step s key).Follows P (Yields (J done coming)) t)
    (opens : ∀ done space start s t, site.location.start space = .ok start → J done (fun _ => False) s t →
      J (done ++ [space]) (Behind start none) s t)
    (s : σ) (t : τ) (h : J [] (fun _ => False) s t) :
    (overSpaces site step s spaces).Follows P (Yields fun s t => J spaces (fun _ => False) s t ∧
      ∀ space ∈ spaces, ∃ start, site.location.start space = .ok start) t := by
  rw [overSpaces]
  refine Prog.Follows.foldlM (fun rest s t => ∃ done, spaces = done ++ rest ∧ J done (fun _ => False) s t ∧
    ∀ space ∈ done, ∃ start, site.location.start space = .ok start)
    (fun space rest s t ht => ?_) (fun s t ht => ?_) spaces s t ⟨[], rfl, h, by simp⟩
  · obtain ⟨done, all, ht, accepted⟩ := ht
    rw [overSpace]
    cases hstart : site.location.start space with
    | error failure => exact yields_error failure
    | ok start =>
      rw [Prog.ofExcept_ok_bind]
      have listed : space ∈ spaces := all ▸ List.mem_append_right _ List.mem_cons_self
      refine (follows_overKeys (J := J (done ++ [space])) (mono _) (pages _ start)
        (fun key coming s t => body _ space start key coming s t listed hstart) _ none s t
        (opens done space start s t hstart ht)).mono fun r u hu => ?_
      cases r with
      | error failure => exact yields_error failure
      | ok s =>
        refine ⟨done ++ [space], by simp [all], hu s rfl, fun x hx => ?_⟩
        rcases List.mem_append.1 hx with hx | hx
        · exact accepted x hx
        · exact ⟨start, List.mem_singleton.1 hx ▸ hstart⟩
  · obtain ⟨done, all, ht, accepted⟩ := ht
    obtain rfl : spaces = done := by rw [all, List.append_nil]
    exact yields_ok ⟨ht, accepted⟩

end Depot.Content
