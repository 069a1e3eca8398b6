/-
Slash-separated paths and their normal forms.

`segments_append`, `unite_segments` and `segments_unite`: taking a path apart and putting it together. The segments
that `normalize` keeps form a `Stack`: no empty segment, no `.`, and `..` only at the bottom. A stack is kept as it is
(`Stack.foldl_reverse`), and what is kept of any path is a stack (`stack_foldl`).

A plain segment at the end of a path stays there: `normalize_snoc` and `clean_snoc` say what stands before it.
-/
import Depot.Key.Path

namespace Depot.Key.Path

/-! ## Taking apart and putting together -/

theorem segments_ne_nil (p : List Char) : segments p ≠ [] := by
  induction p with
  | nil => simp [segments]
  | cons c rest ih =>
    rw [segments]
    split
    · simp
    · split <;> simp

theorem segments_append (a b : List Char) : segments (a ++ '/' :: b) = segments a ++ segments b := by
  induction a with
  | nil => simp [segments]
  | cons c rest ih =>
    by_cases hc : c = '/'
    · simp [segments, hc, ih]
    · obtain ⟨s, more, hs⟩ := List.exists_cons_of_ne_nil (segments_ne_nil rest)
      rw [hs] at ih
      simp [segments, hc, hs, ih]

theorem segments_of_no_slash {s : List Char} (h : '/' ∉ s) : segments s = [s] := by
  induction s with
  | nil => rfl
  | cons c rest ih =>
    obtain ⟨hc, hrest⟩ := not_or.1 (mt List.mem_cons.2 h)
    simp [segments, Ne.symm hc, ih hrest]

theorem no_slash_of_mem_segments {p s : List Char} (h : s ∈ segments p) : '/' ∉ s := by
  induction p generalizing s with
  | nil => simp_all [segments]
  | cons c rest ih =>
    by_cases hc : c = '/'
    · rw [segments, if_pos hc] at h
      rcases List.mem_cons.1 h with rfl | h
      · simp
      · exact ih h
    · obtain ⟨t, more, ht⟩ := List.exists_cons_of_ne_nil (segments_ne_nil rest)
      rw [segments, if_neg hc, ht] at h
      rcases List.mem_cons.1 h with rfl | h
      · have := ih (ht ▸ List.mem_cons_self)
        simp [Ne.symm hc, this]
      · exact ih (ht ▸ List.mem_cons_of_mem _ h)

theorem unite_cons {s : List Char} {more : List (List Char)} (h : more ≠ []) :
    unite (s :: more) = s ++ '/' :: unite more := by
  cases more with
  | nil => exact absurd rfl h
  | cons t more => rfl

theorem unite_segments (p : List Char) : unite (segments p) = p := by
  induction p with
  | nil => rfl
  | cons c rest ih =>
    obtain ⟨t, more, ht⟩ := List.exists_cons_of_ne_nil (segments_ne_nil rest)
    by_cases hc : c = '/'
    · rw [segments, if_pos hc, unite_cons (segments_ne_nil rest), ih, hc, List.nil_append]
    · rw [segments, if_neg hc, ht]
      rw [ht] at ih
      cases more with
      | nil => simpa [unite] using ih
      | cons u more =>
        rw [unite_cons (by simp)] at ih ⊢
        simpa using ih

theorem segments_unite {ss : List (List Char)} (hne : ss ≠ []) (h : ∀ s ∈ ss, '/' ∉ s) : segments (unite ss) = ss := by
  induction ss with
  | nil => exact absurd rfl hne
  | cons s more ih =>
    by_cases hm : more = []
    · rw [hm]
      exact segments_of_no_slash (h s List.mem_cons_self)
    · rw [unite_cons hm, segments_append, segments_of_no_slash (h s List.mem_cons_self),
        ih hm fun t ht => h t (List.mem_cons_of_mem _ ht), List.singleton_append]

theorem unite_append {xs ys : List (List Char)} (hx : xs ≠ []) (hy : ys ≠ []) :
    unite (xs ++ ys) = unite xs ++ '/' :: unite ys := by
  induction xs with
  | nil => exact absurd rfl hx
  | cons x xs ih =>
    by_cases h : xs = []
    · rw [h, List.singleton_append, unite_cons hy]
      rfl
    · rw [List.cons_append, unite_cons (by simp [h]), unite_cons h, ih h, List.append_assoc, List.cons_append]

/-! ## Segments that are kept -/

/-- a segment that is a name: neither empty, nor `.`, nor `..` -/
def IsName (s : List Char) : Prop := s ≠ [] ∧ s ≠ ['.'] ∧ s ≠ ['.', '.']

theorem keep_name {rooted : Bool} {kept : List (List Char)} {s : List Char} (h : IsName s) :
    keep rooted kept s = s :: kept := by
  simp [keep, h.1, h.2.1, h.2.2]

/-- segments that are kept, the last one first: names, with `..` below all of them, and not at the root -/
inductive Stack (rooted : Bool) : List (List Char) → Prop where
  | nil : Stack rooted []
  | up {kept : List (List Char)} (free : rooted = false) (all : ∀ t ∈ kept, t = ['.', '.']) (below : Stack rooted kept) :
    Stack rooted (['.', '.'] :: kept)
  | name {kept : List (List Char)} {s : List Char} (hs : IsName s) (below : Stack rooted kept) :
    Stack rooted (s :: kept)

theorem Stack.tail {rooted : Bool} {s : List Char} {kept : List (List Char)} (h : Stack rooted (s :: kept)) :
    Stack rooted kept := by
  cases h with
  | up _ _ below => exact below
  | name _ below => exact below

theorem stack_keep {rooted : Bool} {kept : List (List Char)} (h : Stack rooted kept) (s : List Char) :
    Stack rooted (keep rooted kept s) := by
  rw [keep.eq_def]
  split
  case isTrue => exact h
  case isFalse hs =>
    obtain ⟨hs, hdot⟩ := not_or.1 hs
    split
    case isTrue hup =>
      subst hup
      cases h with
      | nil =>
        cases rooted with
        | true => exact .nil
        | false => exact .up rfl (by simp) .nil
      | up free all below => exact .up free (by simpa using all) (.up free all below)
      | name hn below =>
        simp only [if_neg hn.2.2]
        exact below
    case isFalse hup => exact .name ⟨hs, hdot, hup⟩ h

theorem stack_foldl {rooted : Bool} (ss : List (List Char)) {kept : List (List Char)} (h : Stack rooted kept) :
    Stack rooted (ss.foldl (keep rooted) kept) := by
  induction ss generalizing kept with
  | nil => exact h
  | cons s ss ih => exact ih (stack_keep h s)

/-- **A stack is kept as it is.** -/
theorem Stack.foldl_reverse {rooted : Bool} {kept : List (List Char)} (h : Stack rooted kept) :
    kept.reverse.foldl (keep rooted) [] = kept := by
  induction h with
  | nil => rfl
  | @up kept free all below ih =>
    rw [List.reverse_cons, List.foldl_append, ih, free]
    cases kept with
    | nil => rfl
    | cons t kept => simp [keep, all t List.mem_cons_self]
  | name hs below ih =>
    rw [List.reverse_cons, List.foldl_append, ih]
    exact keep_name hs

theorem Stack.drop {rooted : Bool} {kept : List (List Char)} (h : Stack rooted kept) (n : Nat) :
    Stack rooted (kept.drop n) := by
  induction n generalizing kept with
  | zero => exact h
  | succ n ih =>
    cases kept with
    | nil => exact .nil
    | cons s kept => exact ih h.tail

theorem mem_foldl_keep {rooted : Bool} {ss kept : List (List Char)} {s : List Char}
    (h : s ∈ ss.foldl (keep rooted) kept) : s ∈ ss ∨ s ∈ kept := by
  induction ss generalizing kept with
  | nil => exact .inr h
  | cons t ss ih =>
    rcases ih h with h | h
    · exact .inl (List.mem_cons_of_mem _ h)
    · rw [keep.eq_def] at h
      split at h
      · exact .inr h
      · split at h
        · cases kept with
          | nil => simp_all
          | cons u kept =>
            simp only at h
            split at h
            · rcases List.mem_cons.1 h with rfl | h
              · exact .inl List.mem_cons_self
              · exact .inr h
            · exact .inr (List.mem_cons_of_mem _ h)
        · rcases List.mem_cons.1 h with rfl | h
          · exact .inl List.mem_cons_self
          · exact .inr h

/-! ## A name at the end -/

/-- nothing, or a text that ends with a slash -/
def IsFolder (p : List Char) : Prop := p = [] ∨ ∃ q, p = q ++ ['/']

theorem root_snoc (p : List Char) {s : List Char} (h : s.head? ≠ some '/') : root (p ++ '/' :: s) = root (p ++ ['/']) := by
  rcases p with _ | ⟨a, _ | ⟨b, _ | ⟨c, p⟩⟩⟩
  · rcases s with _ | ⟨d, s⟩
    · rfl
    · have hd : d ≠ '/' := by simpa using h
      simp [root, hd]
  · rcases s with _ | ⟨d, s⟩
    · rfl
    · have hd : d ≠ '/' := by simpa using h
      by_cases ha : a = '/' <;> simp [root, ha, hd]
  · by_cases ha : a = '/' <;> by_cases hb : b = '/' <;> simp [root, ha, hb]
  · by_cases ha : a = '/' <;> by_cases hb : b = '/' <;> by_cases hc : c = '/' <;> simp [root, ha, hb, hc]

/-- what stands before a name at the end of a path in its normal form -/
def ahead (p : List Char) : List Char :=
  let start := root (p ++ ['/'])
  let kept := (segments p).foldl (keep (!start.isEmpty)) []
  if kept = [] then start else start ++ unite kept.reverse ++ ['/']

theorem isFolder_root (p : List Char) : IsFolder (root p) := by
  rw [root.eq_def]
  split
  · exact .inr ⟨[], rfl⟩
  · exact .inr ⟨['/'], rfl⟩
  · exact .inr ⟨[], rfl⟩
  · exact .inl rfl

theorem isFolder_ahead (p : List Char) : IsFolder (ahead p) := by
  rw [ahead]
  split
  · exact isFolder_root _
  · exact .inr ⟨_, rfl⟩

theorem head?_ne_slash {s : List Char} (hs : '/' ∉ s) : s.head? ≠ some '/' :=
  fun h => hs (List.mem_of_mem_head? h)

/-- **A name at the end of a path stays there.** -/
theorem normalize_snoc (p : List Char) {s : List Char} (hs : IsName s) (hslash : '/' ∉ s) :
    normalize (p ++ '/' :: s) = ahead p ++ s := by
  rw [normalize, root_snoc p (head?_ne_slash hslash), segments_append, List.foldl_append,
    segments_of_no_slash hslash, List.foldl_cons, List.foldl_nil, keep_name hs, ahead]
  generalize root (p ++ ['/']) = start
  generalize (segments p).foldl (keep (!start.isEmpty)) [] = kept
  have whole : start ++ unite (s :: kept).reverse =
      (if kept = [] then start else start ++ unite kept.reverse ++ ['/']) ++ s := by
    by_cases hk : kept = []
    · simp [hk, unite]
    · rw [if_neg hk, List.reverse_cons, unite_append (by simpa using hk) (by simp)]
      simp [unite]
  rw [whole]
  split
  · rename_i h
    simp [hs.1] at h
  · rfl

/-- a backslash, which `forward` turns into a slash -/
def backslash : Char := Char.ofNat 0x5C

theorem map_forward {s : List Char} (h : backslash ∉ s) : s.map forward = s := by
  refine (List.map_congr_left fun c hc => ?_).trans (List.map_id s)
  rw [forward, if_neg, id]
  rintro rfl
  exact h hc

theorem forward_slash : forward '/' = '/' := by decide

theorem IsFolder.map_forward {p : List Char} (h : IsFolder p) : IsFolder (p.map forward) := by
  rcases h with rfl | ⟨q, rfl⟩
  · exact .inl rfl
  · exact .inr ⟨q.map forward, by rw [List.map_append, List.map_singleton, forward_slash]⟩

theorem endsInSlash_append {p s : List Char} (hs : s ≠ []) (hslash : '/' ∉ s) : endsInSlash (p ++ s) = false := by
  rw [endsInSlash, beq_eq_false_iff_ne, List.getLast?_append, Option.or_of_isSome (by simpa using hs)]
  exact fun h => hslash (List.mem_of_getLast? h)

theorem clean_snoc (p : List Char) {s : List Char} (hs : IsName s) (hslash : '/' ∉ s) (hback : backslash ∉ s) :
    clean (p ++ '/' :: s) = (ahead p).map forward ++ s := by
  have cut : endsInSlash (p ++ '/' :: s) = false := by
    rw [List.append_cons]
    exact endsInSlash_append hs.1 hslash
  rw [clean, normalize_snoc p hs hslash, List.map_append, Path.map_forward hback, cut]
  simp only [Bool.false_and, Bool.false_eq_true, if_false]
  rw [if_neg]
  intro h
  rcases List.append_eq_singleton_iff.1 h with ⟨-, h⟩ | ⟨-, h⟩
  · exact hs.2.1 h
  · exact hs.1 h

theorem IsFolder.dropWhile_append {p s : List Char} (h : IsFolder p) (hs : '/' ∉ s) :
    ∃ q, IsFolder q ∧ (p ++ s).dropWhile (· == '/') = q ++ s := by
  rw [List.dropWhile_append]
  split
  case isTrue empty =>
    refine ⟨[], .inl rfl, ?_⟩
    cases s with
    | nil => rfl
    | cons c s =>
      have : c ≠ '/' := fun h => hs (h ▸ List.mem_cons_self)
      simp [this]
  case isFalse full =>
    refine ⟨_, ?_, rfl⟩
    rcases h with rfl | ⟨q, rfl⟩
    · exact .inl rfl
    · rw [List.dropWhile_append]
      split
      · exact .inl (by simp)
      · exact .inr ⟨_, rfl⟩

/-- **A name at the end of a path under a base stays there**; where it is the end of the base itself, a slash follows. -/
theorem join?_snoc {base p s k : List Char} (hp : IsFolder p) (hs : IsName s) (hslash : '/' ∉ s)
    (h : join? base (p ++ s) = some k) : ∃ q, IsFolder q ∧ (k = q ++ s ∨ k = q ++ s ++ ['/']) := by
  obtain ⟨q, hq⟩ : ∃ q, within (trimEnd base ++ ['/']) (p ++ s) = q ++ '/' :: s := by
    rw [within]
    split
    case isTrue rooted =>
      rcases hp with rfl | ⟨q, rfl⟩
      · exact absurd rooted (head?_ne_slash hslash)
      · exact ⟨q, by simp⟩
    case isFalse free =>
      rcases hp with rfl | ⟨q, rfl⟩
      · exact ⟨trimEnd base, by simp⟩
      · exact ⟨trimEnd base ++ '/' :: q, by simp⟩
  obtain ⟨g, hg, hk⟩ : ∃ g, (g = ahead q ++ s ∨ g = ahead q ++ s ++ ['/']) ∧ g.dropWhile (· == '/') = k := by
    simp only [join?, hq, normalize_snoc q hs hslash, endsInSlash_append hs.1 hslash, Bool.false_or, beq_iff_eq,
      List.append_cancel_right_eq] at h
    by_cases same : ahead q ++ s = trimEnd base
    · have far : ahead q ++ s ++ ['/'] ≠ trimEnd base := by simp [same]
      rw [if_pos same] at h
      simp only [if_neg far, Option.ite_none_right_eq_some] at h
      exact ⟨_, .inr rfl, Option.some.inj h.2⟩
    · simp only [if_neg same, Option.ite_none_right_eq_some] at h
      exact ⟨_, .inl rfl, Option.some.inj h.2⟩
  obtain ⟨r, hr, hrs⟩ := (isFolder_ahead q).dropWhile_append hslash
  refine ⟨r, hr, ?_⟩
  rcases hg with rfl | rfl
  · exact .inl (hk.symm.trans hrs)
  · refine .inr (hk.symm.trans ?_)
    rw [List.dropWhile_append, hrs, if_neg (by simp [hs.1])]

/-! ## Bases in normal form -/

/-- a base whose segments are all kept -/
def IsNormal (base : List Char) : Prop :=
  trimEnd base = [] ∨ Stack false (segments (trimEnd base)).reverse

theorem head?_append_of_ne_nil {a b : List Char} (h : a ≠ []) : (a ++ b).head? = a.head? := by
  rcases a with _ | ⟨c, a⟩
  · exact absurd rfl h
  · rfl

theorem head?_trimEnd {base : List Char} (h : base.head? ≠ some '/') : (trimEnd base).head? ≠ some '/' := by
  have cut : trimEnd base <+: base := by
    rw [← List.reverse_suffix, trimEnd, List.reverse_reverse]
    exact List.dropWhile_suffix _
  obtain ⟨rest, hrest⟩ := cut
  intro head
  apply h
  rw [← hrest, List.head?_append, head]
  rfl

theorem foldl_keep_names {rooted : Bool} {names kept : List (List Char)} (h : ∀ s ∈ names, IsName s) :
    names.foldl (keep rooted) kept = names.reverse ++ kept := by
  induction names generalizing kept with
  | nil => rfl
  | cons s names ih =>
    rw [List.foldl_cons, keep_name (h s List.mem_cons_self), ih fun t ht => h t (List.mem_cons_of_mem _ ht)]
    simp

theorem root_of_head {p : List Char} (h : p.head? ≠ some '/') : root p = [] := by
  rcases p with _ | ⟨a, p⟩
  · rfl
  · have ha : a ≠ '/' := by simpa using h
    simp [root, ha]

theorem normalize_under {stem path : List Char} (names : List (List Char)) (hstem : stem.head? ≠ some '/')
    (normal : stem = [] ∨ Stack false (segments stem).reverse) (hpath : path.head? ≠ some '/') (hne : names ≠ [])
    (kept : ∀ rooted kept, (segments path).foldl (keep rooted) kept = names.reverse ++ kept) :
    normalize (stem ++ '/' :: path) = stem ++ '/' :: unite names := by
  rw [normalize, segments_append, List.foldl_append, kept]
  rcases normal with rfl | normal
  · rw [root_snoc [] hpath]
    simp [root, segments, keep]
  · by_cases h : stem = []
    · subst h
      rw [root_snoc [] hpath]
      simp [root, segments, keep]
    · have hroot : root (stem ++ '/' :: path) = [] := by
        exact root_of_head (by rwa [head?_append_of_ne_nil h])
      have base := normal.foldl_reverse
      rw [List.reverse_reverse] at base
      simp only [hroot, List.isEmpty_nil, Bool.not_true, base, List.reverse_append, List.reverse_reverse,
        List.nil_append, unite_append (segments_ne_nil stem) hne, unite_segments]
      split
      · rename_i empty
        simp at empty
      · rfl

theorem dropWhile_base {stem path : List Char} (hstem : stem.head? ≠ some '/') (hpath : path.head? ≠ some '/') :
    (stem ++ '/' :: path).dropWhile (· == '/') = (stem ++ ['/']).dropWhile (· == '/') ++ path := by
  rcases stem with _ | ⟨a, stem⟩
  · rcases path with _ | ⟨b, path⟩
    · rfl
    · have hb : b ≠ '/' := by simpa using hpath
      simp [hb]
  · have ha : a ≠ '/' := by simpa using hstem
    simp [ha]

variable {base s t : List Char}

/-- what keys under a base start with -/
def folderOf (base : List Char) : List Char := (trimEnd base ++ ['/']).dropWhile (· == '/')

theorem head?_append_name {rest : List Char} (hs : IsName s) (hslash : '/' ∉ s) : (s ++ rest).head? ≠ some '/' := by
  rw [head?_append_of_ne_nil hs.1]
  exact head?_ne_slash hslash

theorem join?_names (hbase : base.head? ≠ some '/') (normal : IsNormal base) (hs : IsName s) (hss : '/' ∉ s)
    (ht : IsName t) (hts : '/' ∉ t) : join? base (s ++ '/' :: t) = some (folderOf base ++ (s ++ '/' :: t)) := by
  have hstem := head?_trimEnd hbase
  have hpath : (s ++ '/' :: t).head? ≠ some '/' := head?_append_name hs hss
  have segs : segments (s ++ '/' :: t) = [s, t] := by
    rw [segments_append, segments_of_no_slash hss, segments_of_no_slash hts]
    rfl
  have reached : normalize (trimEnd base ++ '/' :: (s ++ '/' :: t)) = trimEnd base ++ '/' :: (s ++ '/' :: t) := by
    refine (normalize_under [s, t] hstem normal hpath (by simp) fun rooted kept => ?_).trans rfl
    rw [segs]
    exact foldl_keep_names (by simp [hs, ht])
  have cut : endsInSlash (s ++ '/' :: t) = false := by
    rw [List.append_cons]
    exact endsInSlash_append ht.1 hts
  simp only [join?, within, if_neg hpath, List.append_assoc, List.singleton_append, reached, cut, Bool.false_or, folderOf]
  simp [hs.1]
  exact dropWhile_base hstem hpath

theorem join?_folder (hbase : base.head? ≠ some '/') (normal : IsNormal base) (hs : IsName s) (hss : '/' ∉ s) :
    join? base (s ++ ['/']) = some (folderOf base ++ (s ++ ['/'])) := by
  have hstem := head?_trimEnd hbase
  have hpath : (s ++ ['/']).head? ≠ some '/' := head?_append_name hs hss
  have segs : segments (s ++ ['/']) = [s, []] := by
    rw [segments_append, segments_of_no_slash hss]
    rfl
  have reached : normalize (trimEnd base ++ '/' :: (s ++ ['/'])) = trimEnd base ++ '/' :: s := by
    refine (normalize_under [s] hstem normal hpath (by simp) fun rooted kept => ?_).trans rfl
    rw [segs, List.foldl_cons, keep_name hs]
    simp [keep]
  have full : endsInSlash (s ++ ['/']) = true := by simp [endsInSlash]
  have shape : trimEnd base ++ '/' :: s ++ ['/'] = trimEnd base ++ '/' :: (s ++ ['/']) := by simp
  simp only [join?, within, if_neg hpath, List.append_assoc, List.singleton_append, reached, full, Bool.true_or, if_true,
    folderOf]
  simp
  exact dropWhile_base hstem hpath

theorem join?_nil (hbase : base.head? ≠ some '/') (normal : IsNormal base) : join? base [] = some (folderOf base) := by
  have hstem := head?_trimEnd hbase
  by_cases h : trimEnd base = []
  · simp [join?, within, h, normalize, root, segments, keep, unite, endsInSlash, folderOf]
  · have stack : Stack false (segments (trimEnd base)).reverse := normal.resolve_left h
    have kept := stack.foldl_reverse
    rw [List.reverse_reverse] at kept
    have hroot : root (trimEnd base ++ ['/']) = [] := root_of_head (by rwa [head?_append_of_ne_nil h])
    have reached : normalize (trimEnd base ++ ['/']) = trimEnd base := by
      rw [normalize, segments_append, List.foldl_append, hroot]
      simp only [List.isEmpty_nil, Bool.not_true, kept, segments, List.foldl_cons, List.foldl_nil]
      simp only [keep, true_or, if_true, List.reverse_reverse, unite_segments, List.nil_append]
    simp [join?, within, reached, endsInSlash, folderOf]

/-! ## Bases that are not in normal form -/

/-- the segments of a base that are left of it in a path under it -/
def left (base : List Char) : List (List Char) :=
  ((segments (trimEnd base)).foldl (keep false) []).reverse

theorem foldl_keep_base (base : List Char) : (segments (trimEnd base)).foldl (keep false) [] = (left base).reverse := by
  rw [left, List.reverse_reverse]

theorem stack_left (base : List Char) : Stack false (left base).reverse :=
  foldl_keep_base base ▸ stack_foldl _ .nil

theorem foldl_keep_left (base : List Char) {more : List (List Char)} (hmore : ∀ u ∈ more, IsName u) :
    (left base ++ more).foldl (keep false) [] = more.reverse ++ (left base).reverse := by
  have kept := (stack_left base).foldl_reverse
  rw [List.reverse_reverse] at kept
  rw [List.foldl_append, kept, foldl_keep_names hmore]

/-- what is left of a base is not the base without its last names -/
theorem eq_nil_of_left {more : List (List Char)} (hmore : ∀ u ∈ more, IsName u)
    (h : segments (trimEnd base) = left base ++ more) : more = [] := by
  have lengths := congrArg List.length (foldl_keep_left base hmore)
  rw [← h, foldl_keep_base, List.length_append, List.length_reverse, List.length_reverse] at lengths
  exact List.length_eq_zero_iff.1 (by omega)

theorem segments_left (base : List Char) (hss : '/' ∉ s) (hts : '/' ∉ t) :
    segments (unite (left base ++ [s, t])) = left base ++ [s, t] := by
  refine segments_unite (by simp) fun u hu => ?_
  rcases List.mem_append.1 hu with hu | hu
  · rw [left, List.mem_reverse] at hu
    exact no_slash_of_mem_segments ((mem_foldl_keep hu).resolve_right (by simp))
  · simp only [List.mem_cons, List.not_mem_nil, or_false] at hu
    rcases hu with rfl | rfl
    · exact hss
    · exact hts

/-- two names under a base come after what is left of it -/
theorem normalize_left (hbase : base.head? ≠ some '/') (based : trimEnd base ≠ []) (hs : IsName s) (hss : '/' ∉ s)
    (ht : IsName t) (hts : '/' ∉ t) : normalize (trimEnd base ++ '/' :: (s ++ '/' :: t)) = unite (left base ++ [s, t]) := by
  have hroot : root (trimEnd base ++ '/' :: (s ++ '/' :: t)) = [] :=
    root_of_head (by rw [head?_append_of_ne_nil based]; exact head?_trimEnd hbase)
  rw [normalize, hroot, segments_append, List.foldl_append, segments_append, segments_of_no_slash hss,
    segments_of_no_slash hts]
  simp only [List.isEmpty_nil, Bool.not_true, foldl_keep_base, List.singleton_append]
  rw [foldl_keep_names (by simp [hs, ht])]
  simp only [List.reverse_append, List.reverse_reverse, List.nil_append]
  split
  · rename_i nowhere
    have segs := segments_left base hss hts
    rw [nowhere] at segs
    have lengths := congrArg List.length segs
    simp [segments] at lengths
  · rfl

/-- **Two names are accepted only under a base in normal form.** -/
theorem isNormal_of_join? {k : List Char} (hbase : base.head? ≠ some '/') (hs : IsName s) (hss : '/' ∉ s)
    (ht : IsName t) (hts : '/' ∉ t) (h : join? base (s ++ '/' :: t) = some k) : IsNormal base := by
  have hpath : (s ++ '/' :: t).head? ≠ some '/' := head?_append_name hs hss
  by_cases empty : trimEnd base = []
  · exact .inl empty
  right
  have reached := normalize_left hbase empty hs hss ht hts
  have apart : unite (left base ++ [s, t]) ≠ trimEnd base := by
    intro same
    have segs := segments_left base hss hts
    rw [same] at segs
    exact List.cons_ne_nil _ _ (eq_nil_of_left (by simp [hs, ht]) segs)
  have cut : endsInSlash (s ++ '/' :: t) = false := by
    rw [List.append_cons]
    exact endsInSlash_append ht.1 hts
  simp only [join?, within, if_neg hpath, List.append_assoc, List.singleton_append, reached, cut, Bool.false_or,
    beq_iff_eq, List.append_cancel_right_eq, if_neg apart, Option.ite_none_right_eq_some] at h
  obtain ⟨rest, hrest⟩ : ∃ rest, unite (left base ++ [s, t]) = trimEnd base ++ '/' :: rest := by
    obtain ⟨tail, htail⟩ := List.isPrefixOf_iff_prefix.1 h.1.1
    rw [← htail, List.drop_left] at h
    obtain ⟨rest, rfl⟩ := List.head?_eq_some_iff.1 h.1.2
    exact ⟨rest, htail.symm⟩
  have segs : left base ++ [s, t] = segments (trimEnd base) ++ segments rest := by
    rw [← segments_append, ← hrest, segments_left base hss hts]
  rcases List.append_eq_append_iff.1 segs with ⟨more, hmore, hlast⟩ | ⟨more, hmore, -⟩
  · -- the base goes on after what is left of it, with `s` at most, since something remains for `rest`
    have few : more = [] ∨ more = [s] := by
      rcases more with _ | ⟨a, _ | ⟨b, more⟩⟩
      · exact .inl rfl
      · right
        simp only [List.cons_append, List.nil_append, List.cons.injEq] at hlast
        rw [hlast.1]
      · simp only [List.cons_append, List.cons.injEq] at hlast
        exact absurd hlast.2.2.symm (by simp [segments_ne_nil])
    have nothing : more = [] := eq_nil_of_left (by rcases few with rfl | rfl <;> simp [hs]) hmore
    rw [hmore, nothing, List.append_nil]
    exact stack_left base
  · have stack := stack_left base
    rw [hmore, List.reverse_append] at stack
    have := stack.drop more.reverse.length
    rwa [List.drop_left] at this

end Depot.Key.Path
