/-
Keys and what the keys of their space start with.

A space may be any text: its key and its start are cleaned apart from each other, one with the id at its end and one
with a slash. Both lead the same way (`Leads`), so they keep the same segments, and wherever the key is accepted the
start is too, and the key is the start with the id after it (`Location.key_eq_start`). An id that is the last name of
the location is left out: a space may lead back up to the location itself, whose key then gets a slash at its end.
-/
import Mathlib.Data.List.TakeWhile
import Depot.Proofs.Keys

namespace Depot.Key

namespace Path

variable {base stem path folder p s k : List Char} {kept : List (List Char)} {rooted : Bool}

/-! ## Rows of segments -/

/-- segments that were kept, the last one first, each with a slash after it -/
def folders (kept : List (List Char)) : List Char := kept.reverse.flatMap (· ++ ['/'])

@[simp] theorem folders_nil : folders [] = [] := rfl

@[simp] theorem folders_cons (s : List Char) (kept : List (List Char)) : folders (s :: kept) = folders kept ++ s ++ ['/'] := by
  simp [folders]

theorem unite_reverse_cons (s : List Char) (kept : List (List Char)) : unite (s :: kept).reverse = folders kept ++ s := by
  induction kept generalizing s with
  | nil => rfl
  | cons t kept ih =>
    rw [List.reverse_cons, unite_append (by simp) (by simp), ih, folders_cons]
    simp [unite]

theorem unite_reverse_slash (h : kept ≠ []) : unite kept.reverse ++ ['/'] = folders kept := by
  obtain ⟨s, more, rfl⟩ := List.exists_cons_of_ne_nil h
  rw [unite_reverse_cons, folders_cons]

theorem isFolder_folders (kept : List (List Char)) : IsFolder (folders kept) := by
  cases kept with
  | nil => exact .inl rfl
  | cons s kept => exact .inr ⟨folders kept ++ s, folders_cons s kept⟩

theorem Stack.ne_nil (h : Stack rooted kept) : ∀ s ∈ kept, s ≠ [] := by
  induction h with
  | nil => simp
  | up _ _ _ ih => simpa using ih
  | name hs _ ih => simpa [hs.1] using ih

/-- segments that are not empty and hold no slash do not begin with one -/
theorem head?_folders (names : ∀ t ∈ kept, t ≠ [] ∧ '/' ∉ t) (hs : '/' ∉ s) : (folders kept ++ s).head? ≠ some '/' := by
  induction kept generalizing s with
  | nil => exact head?_ne_slash hs
  | cons t kept ih =>
    obtain ⟨nonempty, free⟩ := names t List.mem_cons_self
    have ahead := ih (fun u hu => names u (List.mem_cons_of_mem t hu)) free
    have long : folders kept ++ t ≠ [] := by simp [nonempty]
    rwa [folders_cons, List.append_assoc, head?_append_of_ne_nil long]

/-! ## What is kept of a path -/

theorem foldl_keep_slash (p : List Char) (kept : List (List Char)) :
    (segments (p ++ ['/'])).foldl (keep rooted) kept = (segments p).foldl (keep rooted) kept := by
  rw [segments_append, List.foldl_append]
  simp [segments, keep]

theorem foldl_keep_snoc (hp : IsFolder p) (hs : IsName s) (free : '/' ∉ s) (kept : List (List Char)) :
    (segments (p ++ s)).foldl (keep rooted) kept = s :: (segments p).foldl (keep rooted) kept := by
  rcases hp with rfl | ⟨q, rfl⟩
  · rw [List.nil_append, segments_of_no_slash free]
    exact keep_name hs
  · rw [foldl_keep_slash, List.append_assoc, List.singleton_append, segments_append, List.foldl_append,
      segments_of_no_slash free, List.foldl_cons, List.foldl_nil, keep_name hs]

theorem names_of_kept (p : List Char) : ∀ t ∈ (segments p).foldl (keep rooted) [], t ≠ [] ∧ '/' ∉ t := by
  intro t ht
  constructor
  · exact (stack_foldl (segments p) .nil).ne_nil t ht
  · exact no_slash_of_mem_segments ((mem_foldl_keep ht).resolve_right List.not_mem_nil)

/-- the normal form of a path that does not lead nowhere -/
theorem normalize_eq (nonempty : root p ++ unite ((segments p).foldl (keep (!(root p).isEmpty)) []).reverse ≠ []) :
    normalize p = root p ++ unite ((segments p).foldl (keep (!(root p).isEmpty)) []).reverse := by
  unfold normalize
  dsimp only
  split
  case h_1 nowhere => exact absurd nowhere nonempty
  case h_2 => rfl

theorem root_slashes (p : List Char) : ∀ c ∈ root p, c = '/' := by
  unfold root
  split <;> simp

theorem root_ne_nil (h : p.head? = some '/') : root p ≠ [] := by
  obtain ⟨rest, rfl⟩ := List.head?_eq_some_iff.1 h
  unfold root
  split <;> simp_all

theorem dropWhile_slashes {slashes : List Char} (all : ∀ c ∈ slashes, c = '/') (rest : List Char) :
    (slashes ++ rest).dropWhile (· == '/') = rest.dropWhile (· == '/') := by
  have gone : slashes.dropWhile (· == '/') = [] := by
    rw [List.dropWhile_eq_nil_iff]
    simpa using all
  rw [List.dropWhile_append, gone]
  rfl

theorem dropWhile_of_head (h : p.head? ≠ some '/') : p.dropWhile (· == '/') = p := by
  cases p with
  | nil => rfl
  | cons c rest =>
    have other : c ≠ '/' := by simpa using h
    simp [other]

/-! ## Paths that lead the same way -/

/-- a path with a slash at its end leads where a folder leads -/
structure Leads (path folder : List Char) : Prop where
  slash : endsInSlash path = true
  rooted : path.head? = some '/' ↔ folder.head? = some '/'
  kept : ∀ rooted kept, (segments path).foldl (keep rooted) kept = (segments folder).foldl (keep rooted) kept

theorem endsInSlash_snoc (p : List Char) : endsInSlash (p ++ ['/']) = true := by
  simp [endsInSlash]

theorem ne_dot_of_slash (slash : endsInSlash p = true) : p ≠ ['.'] := by
  rintro rfl
  cases slash

theorem leads_snoc (p : List Char) : Leads (p ++ ['/']) (p ++ ['/']) :=
  ⟨endsInSlash_snoc p, .rfl, fun _ _ => rfl⟩

/-- one slash at the end leads as far as two -/
theorem leads_of_slash (slash : endsInSlash p = true) : Leads p (p ++ ['/']) := by
  have nonempty : p ≠ [] := by
    rintro rfl
    cases slash
  refine ⟨slash, ?_, ?_⟩
  · rw [head?_append_of_ne_nil nonempty]
  · intro rooted kept
    exact (foldl_keep_slash p kept).symm

/-- a path with a slash at its end leads nowhere, or to the root, or to the last segment that is kept of it -/
theorem normalize_slash (p : List Char) :
    (ahead p = [] ∧ normalize (p ++ ['/']) = ['.']) ∨
    (endsInSlash (ahead p) = true ∧ normalize (p ++ ['/']) = ahead p) ∨
    ahead p = normalize (p ++ ['/']) ++ ['/'] := by
  have same : (segments (p ++ ['/'])).foldl (keep (!(root (p ++ ['/'])).isEmpty)) [] =
      (segments p).foldl (keep (!(root (p ++ ['/'])).isEmpty)) [] := foldl_keep_slash p []
  have names : ∀ t ∈ (segments p).foldl (keep (!(root (p ++ ['/'])).isEmpty)) [], t ≠ [] ∧ '/' ∉ t := names_of_kept p
  have form := normalize_eq (p := p ++ ['/'])
  rw [same] at form
  unfold ahead
  dsimp only
  by_cases nothing : (segments p).foldl (keep (!(root (p ++ ['/'])).isEmpty)) [] = []
  · rw [if_pos nothing]
    by_cases free : root (p ++ ['/']) = []
    · left
      refine ⟨free, ?_⟩
      unfold normalize
      dsimp only
      rw [same, nothing, free]
      rfl
    · right
      left
      rcases isFolder_root (p ++ ['/']) with empty | ⟨q, hq⟩
      · exact absurd empty free
      · refine ⟨hq ▸ endsInSlash_snoc q, ?_⟩
        rw [nothing] at form
        simpa [unite] using form (by simp [free])
  · right
    right
    rw [if_neg nothing]
    obtain ⟨t, more, ht⟩ := List.exists_cons_of_ne_nil nothing
    have nonempty : t ≠ [] := (names t (ht ▸ List.mem_cons_self)).1
    have long : root (p ++ ['/']) ++ unite ((segments p).foldl (keep (!(root (p ++ ['/'])).isEmpty)) []).reverse ≠ [] := by
      rw [ht, unite_reverse_cons]
      simp [nonempty]
    rw [form long]

/-- a path with a slash at its end is cleaned to one that leads where the cleaned path before a name leads -/
theorem clean_leads (p : List Char) : Leads (clean (p ++ ['/'])) ((ahead p).map forward) := by
  unfold clean
  dsimp only
  rw [endsInSlash_snoc]
  rcases normalize_slash p with ⟨nothing, nowhere⟩ | ⟨slash, same⟩ | more
  · rw [nowhere, nothing]
    exact ⟨rfl, by decide, fun _ _ => rfl⟩
  · rw [same]
    rcases (isFolder_ahead p).map_forward with empty | ⟨q, hq⟩
    · rw [List.map_eq_nil_iff.1 empty] at slash
      cases slash
    · rw [hq, endsInSlash_snoc]
      simp only [Bool.not_true, Bool.and_false, Bool.false_eq_true, if_false]
      rw [if_neg (ne_dot_of_slash (endsInSlash_snoc q))]
      exact leads_snoc q
  · rw [more, List.map_append, List.map_singleton, forward_slash]
    generalize (normalize (p ++ ['/'])).map forward = c
    cases slash : endsInSlash c with
    | true =>
      simp only [Bool.not_true, Bool.and_false, Bool.false_eq_true, if_false]
      rw [if_neg (ne_dot_of_slash slash)]
      exact leads_of_slash slash
    | false =>
      simp only [Bool.not_false, Bool.and_true, if_true]
      rw [if_neg (ne_dot_of_slash (endsInSlash_snoc c))]
      exact leads_snoc c

/-! ## Under a base -/

theorem endsInSlash_trimEnd (base : List Char) : endsInSlash (trimEnd base) = false := by
  unfold endsInSlash trimEnd
  rw [beq_eq_false_iff_ne, List.getLast?_reverse]
  intro last
  have kept := List.head?_dropWhile_not (· == '/') base.reverse
  rw [last] at kept
  cases kept

theorem under_iff {g : List Char} :
    stem.isPrefixOf g = true ∧ (g.drop stem.length).head? = some '/' ↔ stem ++ ['/'] <+: g := by
  rw [List.isPrefixOf_iff_prefix]
  constructor
  · intro ⟨⟨rest, hrest⟩, head⟩
    rw [← hrest, List.drop_left] at head
    obtain ⟨more, rfl⟩ := List.head?_eq_some_iff.1 head
    exact ⟨more, by rw [← hrest, List.append_assoc, List.singleton_append]⟩
  · intro ⟨rest, hrest⟩
    rw [← hrest, List.append_assoc]
    exact ⟨List.prefix_append _ _, by rw [List.drop_left]; rfl⟩

theorem join?_slash (slash : endsInSlash path = true) : join? base path = some k ↔
    trimEnd base ++ ['/'] <+: normalize (within (trimEnd base ++ ['/']) path) ++ ['/'] ∧
      (normalize (within (trimEnd base ++ ['/']) path) ++ ['/']).dropWhile (· == '/') = k := by
  have apart : normalize (within (trimEnd base ++ ['/']) path) ++ ['/'] ≠ trimEnd base := by
    intro same
    have cut := endsInSlash_trimEnd base
    rw [← same, endsInSlash_snoc] at cut
    cases cut
  simp only [join?, slash, Bool.true_or, if_true, if_neg apart, under_iff, Option.ite_none_right_eq_some,
    Option.some.injEq]

/-- a path without a slash at its end that does not lead to the base itself, under a base -/
theorem join?_name (cut : endsInSlash path = false)
    (apart : normalize (within (trimEnd base ++ ['/']) path) ≠ trimEnd base) : join? base path = some k ↔
    trimEnd base ++ ['/'] <+: normalize (within (trimEnd base ++ ['/']) path) ∧
      (normalize (within (trimEnd base ++ ['/']) path)).dropWhile (· == '/') = k := by
  simp only [join?, cut, Bool.false_or, beq_iff_eq, List.append_cancel_right_eq, if_neg apart, under_iff,
    Option.ite_none_right_eq_some, Option.some.injEq]

/-- what begins with a base and a slash does so before a name at its end -/
theorem prefix_of_prefix_name (h : stem ++ ['/'] <+: p ++ s) (free : '/' ∉ s) : stem ++ ['/'] <+: p := by
  rcases List.prefix_or_prefix_of_prefix h (List.prefix_append p s) with short | ⟨rest, long⟩
  · exact short
  · rw [← long, List.prefix_append_right_inj] at h
    have nothing : rest = [] := by
      rcases List.eq_nil_or_concat rest with empty | ⟨front, c, rfl⟩
      · exact empty
      · have last := congrArg List.getLast? long
        simp only [List.concat_eq_append, ← List.append_assoc, List.getLast?_append, List.getLast?_singleton] at last
        obtain rfl : c = '/' := by simpa using last
        exact absurd (h.subset (by simp)) free
    rw [nothing, List.append_nil] at long
    exact long ▸ List.prefix_rfl

/-! ## A key and its start -/

/-- the normal form of a path from the root, but for how many slashes it begins with -/
theorem normalize_rooted (h : p.head? = some '/') : ∃ slashes : List Char, slashes ≠ [] ∧ (∀ c ∈ slashes, c = '/') ∧
    normalize p = slashes ++ unite ((segments p).foldl (keep true) []).reverse := by
  have nonempty := root_ne_nil h
  have form := normalize_eq (p := p) (by simp [nonempty])
  have flag : (!(root p).isEmpty) = true := by simpa using nonempty
  rw [flag] at form
  exact ⟨root p, nonempty, root_slashes p, form⟩

/-- the normal form of a path that is not given from the root and of which something is kept -/
theorem normalize_free (h : p.head? ≠ some '/') (nonempty : (segments p).foldl (keep false) [] ≠ []) :
    normalize p = unite ((segments p).foldl (keep false) []).reverse := by
  have form := normalize_eq (p := p)
  rw [root_of_head h] at form
  simp only [List.isEmpty_nil, Bool.not_true, List.nil_append] at form
  refine form ?_
  obtain ⟨t, more, ht⟩ := List.exists_cons_of_ne_nil nonempty
  have named : t ≠ [] := (names_of_kept p t (ht ▸ List.mem_cons_self)).1
  rw [ht, unite_reverse_cons]
  simp [named]

theorem within_top (path : List Char) : (within ['/'] path).head? = some '/' ∧
    (segments (within ['/'] path)).foldl (keep true) [] = (segments path).foldl (keep true) [] := by
  unfold within
  split
  case isTrue rooted => exact ⟨rooted, rfl⟩
  case isFalse => exact ⟨rfl, by simp [segments, keep]⟩

theorem head?_snoc_iff (hp : IsFolder p) (free : '/' ∉ s) : (p ++ s).head? = some '/' ↔ p.head? = some '/' := by
  rcases hp with rfl | ⟨q, rfl⟩
  · simp [head?_ne_slash free]
  · rw [head?_append_of_ne_nil (by simp)]

/-- at the top of a bucket a name comes after what its folder is joined to -/
theorem join?_leads_top (top : trimEnd base = []) (leads : Leads path p) (hp : IsFolder p) (hs : IsName s)
    (free : '/' ∉ s) (h : join? base (p ++ s) = some k) : ∃ r, join? base path = some r ∧ k = r ++ s := by
  obtain ⟨kept, hkept⟩ : ∃ kept, (segments p).foldl (keep true) [] = kept := ⟨_, rfl⟩
  have names : ∀ t ∈ kept, t ≠ [] ∧ '/' ∉ t := hkept ▸ names_of_kept p
  obtain ⟨slashes, nonempty, all, form⟩ := normalize_rooted (within_top (p ++ s)).1
  rw [(within_top (p ++ s)).2, foldl_keep_snoc hp hs free, hkept, unite_reverse_cons] at form
  obtain ⟨slashes', nonempty', all', form'⟩ := normalize_rooted (within_top path).1
  rw [(within_top path).2, leads.kept, hkept] at form'
  have apart : normalize (within (trimEnd base ++ ['/']) (p ++ s)) ≠ trimEnd base := by
    rw [top, List.nil_append, form]
    simp [nonempty]
  obtain ⟨-, rfl⟩ := (join?_name (endsInSlash_append hs.1 free) apart).1 h
  refine ⟨folders kept, (join?_slash leads.slash).2 ?_, ?_⟩
  · rw [top, List.nil_append, form']
    constructor
    · obtain ⟨c, more, rfl⟩ := List.exists_cons_of_ne_nil nonempty'
      rw [all' c List.mem_cons_self]
      exact ⟨_, rfl⟩
    · rw [List.append_assoc, dropWhile_slashes all']
      by_cases nothing : kept = []
      · rw [nothing]
        rfl
      · have head := head?_folders (s := []) names List.not_mem_nil
        rw [List.append_nil] at head
        rw [unite_reverse_slash nothing, dropWhile_of_head head]
  · rw [top, List.nil_append, form, dropWhile_slashes all, dropWhile_of_head (head?_folders names free)]

/-- a path from the root keeps its slash, so it is below no base that does not begin with one -/
theorem join?_rooted (hbase : base.head? ≠ some '/') (below : trimEnd base ≠ []) (hs : IsName s) (free : '/' ∉ s)
    (rooted : (p ++ s).head? = some '/') : join? base (p ++ s) ≠ some k := by
  intro h
  have hstem := head?_trimEnd hbase
  have inside : within (trimEnd base ++ ['/']) (p ++ s) = p ++ s := if_pos rooted
  obtain ⟨slashes, full, all, form⟩ := normalize_rooted rooted
  have head : (normalize (p ++ s)).head? = some '/' := by
    obtain ⟨c, more, rfl⟩ := List.exists_cons_of_ne_nil full
    rw [form, all c List.mem_cons_self]
    rfl
  have apart : normalize (within (trimEnd base ++ ['/']) (p ++ s)) ≠ trimEnd base := by
    rw [inside]
    intro same
    exact hstem (same ▸ head)
  obtain ⟨⟨rest, hrest⟩, -⟩ := (join?_name (endsInSlash_append hs.1 free) apart).1 h
  rw [inside] at hrest
  rw [← hrest, List.append_assoc, head?_append_of_ne_nil below] at head
  exact hstem head

/-- below a base a name comes after what its folder is joined to, unless they lead to the base itself -/
theorem join?_leads_below (hbase : base.head? ≠ some '/') (below : trimEnd base ≠ [])
    (other : ∀ q, IsFolder q → q ++ s ≠ trimEnd base) (leads : Leads path p) (hp : IsFolder p) (hs : IsName s)
    (free : '/' ∉ s) (h : join? base (p ++ s) = some k) : ∃ r, join? base path = some r ∧ k = r ++ s := by
  have hstem := head?_trimEnd hbase
  have rooted : (p ++ s).head? ≠ some '/' := fun rooted => join?_rooted hbase below hs free rooted h
  have sub : ∀ y, y.head? ≠ some '/' → within (trimEnd base ++ ['/']) y = trimEnd base ++ '/' :: y := by
    intro y hy
    rw [within, if_neg hy, List.append_assoc]
    rfl
  have head : ∀ y, (trimEnd base ++ '/' :: y).head? ≠ some '/' := by
    intro y
    rwa [head?_append_of_ne_nil below]
  have free' : path.head? ≠ some '/' := by
    rwa [Ne, leads.rooted, ← head?_snoc_iff hp free]
  obtain ⟨kept, hkept⟩ : ∃ kept, (segments (trimEnd base ++ '/' :: p)).foldl (keep false) [] = kept := ⟨_, rfl⟩
  have whole : (segments (trimEnd base ++ '/' :: (p ++ s))).foldl (keep false) [] = s :: kept := by
    rw [← hkept, segments_append, segments_append, List.foldl_append, List.foldl_append, foldl_keep_snoc hp hs free]
  have same : (segments (trimEnd base ++ '/' :: path)).foldl (keep false) [] = kept := by
    rw [← hkept, segments_append, segments_append, List.foldl_append, List.foldl_append, leads.kept]
  have form := normalize_free (head (p ++ s)) (by simp [whole])
  rw [whole, unite_reverse_cons] at form
  have apart : normalize (within (trimEnd base ++ ['/']) (p ++ s)) ≠ trimEnd base := by
    rw [sub _ rooted, form]
    exact other _ (isFolder_folders kept)
  obtain ⟨inside, rfl⟩ := (join?_name (endsInSlash_append hs.1 free) apart).1 h
  rw [sub _ rooted, form] at inside
  have under := prefix_of_prefix_name inside free
  have nonempty : kept ≠ [] := by
    rintro rfl
    simp [below] at under
  have form' : normalize (trimEnd base ++ '/' :: path) ++ ['/'] = folders kept := by
    rw [normalize_free (head path) (by rwa [same]), same, unite_reverse_slash nonempty]
  have names : ∀ t ∈ kept, t ≠ [] ∧ '/' ∉ t := hkept ▸ names_of_kept _
  have bare := head?_folders (s := []) names List.not_mem_nil
  rw [List.append_nil] at bare
  refine ⟨folders kept, (join?_slash leads.slash).2 ?_, ?_⟩
  · rw [sub _ free', form']
    exact ⟨under, dropWhile_of_head bare⟩
  · rw [sub _ rooted, form, dropWhile_of_head (head?_folders names free)]

/-! ## A key and the whole location -/

/-- segments with a name at their end are the segments of it -/
theorem segments_folders (names : ∀ t ∈ kept, '/' ∉ t) (free : '/' ∉ s) :
    segments (folders kept ++ s) = (s :: kept).reverse := by
  rw [← unite_reverse_cons]
  apply segments_unite (by simp)
  intro t ht
  rcases List.mem_cons.1 (List.mem_reverse.1 ht) with rfl | ht
  · exact free
  · exact names t ht

/-- **Where a name is accepted, the base is in normal form,** and what it is joined to is below it. -/
theorem join?_below (hbase : base.head? ≠ some '/') (hp : IsFolder p) (hs : IsName s) (free : '/' ∉ s)
    (h : join? base (p ++ s) = some k) : IsNormal base ∧ folderOf base <+: k := by
  by_cases top : trimEnd base = []
  · refine ⟨.inl top, ?_⟩
    rw [folderOf, top]
    exact List.nil_prefix
  have rooted : (p ++ s).head? ≠ some '/' := fun rooted => join?_rooted hbase top hs free rooted h
  have inside : within (trimEnd base ++ ['/']) (p ++ s) = trimEnd base ++ '/' :: (p ++ s) := by
    rw [within, if_neg rooted, List.append_assoc]
    rfl
  have bare : ∀ y, (trimEnd base ++ y).head? ≠ some '/' := by
    intro y
    rw [head?_append_of_ne_nil top]
    exact head?_trimEnd hbase
  obtain ⟨kept, hkept⟩ : ∃ kept, (segments (trimEnd base ++ '/' :: p)).foldl (keep false) [] = kept := ⟨_, rfl⟩
  have whole : (segments (trimEnd base ++ '/' :: (p ++ s))).foldl (keep false) [] = s :: kept := by
    rw [← hkept, segments_append, segments_append, List.foldl_append, List.foldl_append, foldl_keep_snoc hp hs free]
  have names : ∀ t ∈ kept, '/' ∉ t := fun t ht => (names_of_kept _ t (hkept ▸ ht)).2
  have stack : Stack false (s :: kept) := whole ▸ stack_foldl _ .nil
  have form : normalize (within (trimEnd base ++ ['/']) (p ++ s)) = folders kept ++ s := by
    rw [inside, normalize_free (bare _) (by simp [whole]), whole, unite_reverse_cons]
  have folder : folderOf base = trimEnd base ++ ['/'] := dropWhile_of_head (bare _)
  by_cases same : folders kept ++ s = trimEnd base
  · -- the path leads to the base itself, which gets a slash
    refine ⟨.inr ?_, ?_⟩
    · rw [← same, segments_folders names free, List.reverse_reverse]
      exact stack
    · have apart : trimEnd base ++ ['/'] ≠ trimEnd base := by simp
      simp only [join?, form, same, endsInSlash_append hs.1 free, Bool.false_or, beq_self_eq_true, if_true, if_neg apart,
        Option.ite_none_right_eq_some, Option.some.injEq] at h
      exact h.2 ▸ List.prefix_rfl
  · obtain ⟨under, rfl⟩ := (join?_name (endsInSlash_append hs.1 free) (form ▸ same)).1 h
    rw [form] at under ⊢
    obtain ⟨rest, hrest⟩ := under
    refine ⟨.inr ?_, ?_⟩
    · have segs : (s :: kept).reverse = segments (trimEnd base) ++ segments rest := by
        rw [← segments_folders names free, ← segments_append, ← hrest, List.append_assoc]
        rfl
      have split : s :: kept = (segments rest).reverse ++ (segments (trimEnd base)).reverse := by
        rw [← List.reverse_append, ← segs, List.reverse_reverse]
      have dropped := stack.drop (segments rest).reverse.length
      rwa [split, List.drop_left] at dropped
    · rw [← hrest, folder, List.append_assoc, dropWhile_of_head (bare _), ← List.append_assoc]
      exact List.prefix_append _ _

end Path

namespace Location

variable {l : Location} {space s t id k : String}

/-- the text after the last slash of a location, without the slashes at its end -/
def lastName (l : Location) : String :=
  String.ofList (lastSegment l.text.toList).reverse

/-- a location does not end with a name other than its last one -/
theorem ne_of_lastName (hid : IsSegment id) (other : id ≠ l.lastName) :
    ∀ q, Path.IsFolder q → q ++ id.toList ≠ Path.trimEnd l.text.toList := by
  intro q hq same
  apply other
  rw [← String.toList_inj, lastName, String.toList_ofList, lastSegment, ← same, takeWhile_name hq hid.no_slash,
    List.reverse_reverse]

/-- **A key is what the keys of its space start with, and then its id.** -/
theorem key_eq_start (hid : IsSegment id) (other : id ≠ l.lastName) (h : l.key space id = .ok k) :
    ∃ start, l.start (some space) = .ok start ∧ k = start ++ id := by
  have joined := place_ok h
  rw [Path.clean_snoc _ hid.isName hid.no_slash hid.no_backslash] at joined
  have folder := (Path.isFolder_ahead space.toList).map_forward
  have leads := Path.clean_leads space.toList
  obtain ⟨r, hr, hk⟩ : ∃ r, Path.join? l.text.toList (Path.clean (space.toList ++ ['/'])) = some r ∧
      k.toList = r ++ id.toList := by
    by_cases top : Path.trimEnd l.text.toList = []
    · exact Path.join?_leads_top top leads folder hid.isName hid.no_slash joined
    · exact Path.join?_leads_below l.relative top (ne_of_lastName hid other) leads folder hid.isName hid.no_slash joined
  refine ⟨String.ofList r, ?_, ?_⟩
  · rw [start, key, String.toList_empty, place, hr]
  · rw [← String.toList_inj, String.toList_append, String.toList_ofList, hk]

/-- **Where a key is accepted, the whole location can be looked into, and the key is below it.** -/
theorem sound_of_id (hid : IsSegment id) (h : l.key space id = .ok k) :
    l.Sound ∧ Bucket.startsWith l.folder k = true := by
  have joined := place_ok h
  rw [Path.clean_snoc _ hid.isName hid.no_slash hid.no_backslash] at joined
  obtain ⟨normal, below⟩ := Path.join?_below l.relative (Path.isFolder_ahead space.toList).map_forward hid.isName
    hid.no_slash joined
  refine ⟨normal, ?_⟩
  rw [startsWith_iff, folder, String.toList_ofList]
  exact below

/-! ## Keys and starts -/

/-- a key is what the keys of its space start with and then its id, and it starts with what all keys start with -/
structure FitsStarts (l : Location) (space id k : String) : Prop where
  ofSpace : ∃ start, l.start (some space) = .ok start ∧ k = start ++ id
  ofAll : ∃ start, l.start none = .ok start ∧ Bucket.startsWith start k = true

theorem key_fitsStarts (hid : IsSegment id) (other : id ≠ l.lastName) (h : l.key space id = .ok k) :
    l.FitsStarts space id k := by
  obtain ⟨sound, below⟩ := sound_of_id hid h
  exact ⟨key_eq_start hid other h, l.folder, start_all sound, below⟩

/-- wherever a segment has a key in a space that is a segment too, the keys of all such spaces have a start -/
theorem startsWith_start (hs : IsSegment s) (ht : IsSegment t) (hid : IsSegment id) (h : l.key t id = .ok k) :
    ∃ start, l.start (some s) = .ok start ∧ (Bucket.startsWith start k = true ↔ s = t) := by
  refine ⟨l.folder ++ s ++ "/", start_space (sound_of_id hid h).1 hs, ?_⟩
  rw [key_eq ht hid h]
  exact startsWith_key hs ht

/-- **Keys fit what they start with.** In every location, for ids that are segments,
- where an id other than the last name of the location has a key in a space, whatever text the space is, the keys of that
space and all keys have a start; the key is the one start and then the id, and it starts with the other;
- keys of different ids differ, whatever their spaces are;
- a key in a space that is a segment starts with what the keys of another such space start with just if the spaces are the
same. -/
theorem keys_fit_starts (l : Location) :
    (∀ space id k, IsSegment id → id ≠ l.lastName → l.key space id = .ok k → l.FitsStarts space id k) ∧
    (∀ space space' id id' k k', IsSegment id → IsSegment id' → id ≠ id' →
      l.key space id = .ok k → l.key space' id' = .ok k' → k ≠ k') ∧
    ∀ s t id k, IsSegment s → IsSegment t → IsSegment id → l.key t id = .ok k →
      ∃ start, l.start (some s) = .ok start ∧ (Bucket.startsWith start k = true ↔ s = t) := by
  refine ⟨?_, ?_, ?_⟩
  · intro space id k hid other h
    exact key_fitsStarts hid other h
  · intro space space' id id' k k' hid hid' apart h h' same
    exact apart (key_id hid hid' h (same ▸ h'))
  · intro s t id k hs ht hid h
    exact startsWith_start hs ht hid h

theorem depotFiles_relative : "depot/files/".toList.head? ≠ some '/' := by decide

def depotFiles : Location := ⟨"depot/files/", depotFiles_relative⟩

theorem keys_fit_starts_backslashes :
    (IsSegment "1" ∧ "1" ≠ depotFiles.lastName ∧ depotFiles.key "x\\..\\a//./b/.." "1" = .ok "depot/files/a/1" ∧
      IsSegment "2" ∧ depotFiles.key "a" "2" = .ok "depot/files/a/2" ∧ IsSegment "a" ∧ IsSegment "ab") ∧
    depotFiles.FitsStarts "x\\..\\a//./b/.." "1" "depot/files/a/1" ∧
    "depot/files/a/1" ≠ "depot/files/a/2" ∧
    (∃ start, depotFiles.start (some "a") = .ok start ∧ Bucket.startsWith start "depot/files/a/2" = true) ∧
    ∃ start, depotFiles.start (some "ab") = .ok start ∧ Bucket.startsWith start "depot/files/a/2" = false := by
  have one : IsSegment "1" := by decide
  have two : IsSegment "2" := by decide
  have a : IsSegment "a" := by decide
  have ab : IsSegment "ab" := by decide
  have other : "1" ≠ depotFiles.lastName := by decide +kernel
  have first : depotFiles.key "x\\..\\a//./b/.." "1" = .ok "depot/files/a/1" := by decide +kernel
  have second : depotFiles.key "a" "2" = .ok "depot/files/a/2" := by decide +kernel
  obtain ⟨fits, differ, spaces⟩ := keys_fit_starts depotFiles
  obtain ⟨own, hown, within⟩ := spaces "a" "a" "2" _ a a two second
  obtain ⟨foreign, hforeign, apart⟩ := spaces "ab" "a" "2" _ ab a two second
  refine ⟨⟨one, other, first, two, second, a, ab⟩, fits _ _ _ one other first,
    differ _ _ _ _ _ _ one two (by decide) first second, ⟨own, hown, within.2 rfl⟩, foreign, hforeign, ?_⟩
  rw [Bool.eq_false_iff, Ne, apart]
  decide

/-- the last name of a location has a key in the space above it, whose keys have no start -/
example : depotFiles.key ".." "files" = .ok "depot/files/" ∧ (depotFiles.start (some "..")).toOption = none := by
  decide +kernel

end Location

end Depot.Key
