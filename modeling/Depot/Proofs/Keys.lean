/-
The keys of contents, where spaces and ids are single segments or only ids are.

A segment as an id is the last one of the key whatever the space is, so a key belongs to one id (`key_id`). Where the
space is a segment too and any key is accepted at all (`Location.Sound`), the key is the location's folder, the space,
a slash and the id (`key_segments`), and it starts with what the keys of a space start with just for its own space
(`startsWith_key`). The written form of an execution's id is a segment (`isSegment_idText`).
-/
import Mathlib.Tactic
import Depot.Bucket
import Depot.Execution
import Depot.Key.Location
import Depot.Proofs.Paths

namespace Depot.Key

/-- one segment of a path that cleaning leaves as it is -/
def IsSegment (s : String) : Prop :=
  s ≠ "" ∧ s ≠ "." ∧ s ≠ ".." ∧ '/' ∉ s.toList ∧ Path.backslash ∉ s.toList

instance (s : String) : Decidable (IsSegment s) :=
  inferInstanceAs (Decidable (_ ∧ _))

namespace IsSegment

variable {s t : String}

theorem isName (h : IsSegment s) : Path.IsName s.toList := by
  refine ⟨fun same => h.1 ?_, fun same => h.2.1 ?_, fun same => h.2.2.1 ?_⟩ <;>
    exact String.toList_inj.1 same

theorem no_slash (h : IsSegment s) : '/' ∉ s.toList := h.2.2.2.1

theorem no_backslash (h : IsSegment s) : Path.backslash ∉ s.toList := h.2.2.2.2

end IsSegment

namespace Location

variable {l : Location} {space s t id i j k : String}

/-! ## Keys of ids -/

theorem place_ok {name : List Char} (h : l.place name = .ok k) : Path.join? l.text.toList name = some k.toList := by
  rw [place] at h
  split at h
  · cases h
    rw [String.toList_ofList]
    assumption
  · cases h

theorem key_ends (hid : IsSegment id) (h : l.key space id = .ok k) :
    ∃ q, Path.IsFolder q ∧ (k.toList = q ++ id.toList ∨ k.toList = q ++ id.toList ++ ['/']) := by
  have := place_ok h
  rw [Path.clean_snoc _ hid.isName hid.no_slash hid.no_backslash] at this
  exact Path.join?_snoc (Path.isFolder_ahead _).map_forward hid.isName hid.no_slash this

/-- the last segment of a path, whether a slash follows it or not -/
def lastSegment (k : List Char) : List Char :=
  (Path.trimEnd k).reverse.takeWhile (· != '/')

/-- a name after a folder, read from its end to the slash before it -/
theorem takeWhile_name {q p : List Char} (hq : Path.IsFolder q) (hslash : '/' ∉ p) :
    (q ++ p).reverse.takeWhile (· != '/') = p.reverse := by
  have all : ∀ c ∈ p.reverse, (c != '/') = true := by
    intro c hc
    rw [bne_iff_ne]
    rintro rfl
    exact hslash (List.mem_reverse.1 hc)
  rw [List.reverse_append, List.takeWhile_append_of_pos all]
  rcases hq with rfl | ⟨r, rfl⟩
  · simp
  · simp

theorem lastSegment_of_ends {q p : List Char} (hq : Path.IsFolder q) (hp : p ≠ []) (hslash : '/' ∉ p)
    (h : k.toList = q ++ p ∨ k.toList = q ++ p ++ ['/']) : lastSegment k.toList = p.reverse := by
  have trimmed : Path.trimEnd k.toList = q ++ p := by
    obtain ⟨c, r, hr⟩ := List.exists_cons_of_ne_nil (List.reverse_ne_nil_iff.2 hp)
    have hc : c ≠ '/' := by
      rintro rfl
      exact hslash (List.mem_reverse.1 (hr ▸ List.mem_cons_self))
    have back : (q ++ p).reverse = c :: (r ++ q.reverse) := by rw [List.reverse_append, hr, List.cons_append]
    rw [Path.trimEnd]
    rcases h with h | h
    · rw [h, back, List.dropWhile_cons_of_neg (by simpa using hc), ← back, List.reverse_reverse]
    · rw [h, List.reverse_append, List.reverse_singleton, List.singleton_append,
        List.dropWhile_cons_of_pos (by simp), back, List.dropWhile_cons_of_neg (by simpa using hc), ← back,
        List.reverse_reverse]
  rw [lastSegment, trimmed, takeWhile_name hq hslash]

/-- **A key belongs to one id.** -/
theorem key_id (hi : IsSegment i) (hj : IsSegment j) (h : l.key s i = .ok k) (h' : l.key t j = .ok k) : i = j := by
  obtain ⟨q, hq, ends⟩ := key_ends hi h
  obtain ⟨q', hq', ends'⟩ := key_ends hj h'
  have first := lastSegment_of_ends hq hi.isName.1 hi.no_slash ends
  have second := lastSegment_of_ends hq' hj.isName.1 hj.no_slash ends'
  exact String.toList_inj.1 (List.reverse_injective (first.symm.trans second))

theorem key_ne_empty (hid : IsSegment id) (h : l.key space id = .ok k) : k ≠ "" := by
  rintro rfl
  obtain ⟨q, -, ends⟩ := key_ends hid h
  rcases ends with ends | ends
  · exact hid.isName.1 (List.append_eq_nil_iff.1 ends.symm).2
  · simp at ends

/-! ## Keys of spaces that are segments -/

/-- what all keys start with -/
def folder (l : Location) : String :=
  String.ofList (Path.folderOf l.text.toList)

/-- the keys of segments are accepted -/
def Sound (l : Location) : Prop :=
  Path.IsNormal l.text.toList

theorem clean_segments (hs : IsSegment s) (hi : IsSegment i) :
    Path.clean (s.toList ++ '/' :: i.toList) = s.toList ++ '/' :: i.toList := by
  have ahead : Path.ahead s.toList = s.toList ++ ['/'] := by
    have hroot : Path.root (s.toList ++ ['/']) = [] :=
      Path.root_of_head (Path.head?_append_name hs.isName hs.no_slash)
    rw [Path.ahead, hroot, Path.segments_of_no_slash hs.no_slash]
    simp [Path.keep_name hs.isName, Path.unite]
  have same : (s.toList ++ ['/']).map Path.forward = s.toList ++ ['/'] := by
    rw [List.map_append, Path.map_forward hs.no_backslash, List.map_singleton, Path.forward_slash]
  rw [Path.clean_snoc _ hi.isName hi.no_slash hi.no_backslash, ahead, same, List.append_assoc, List.singleton_append]

theorem normalize_folder (hs : IsSegment s) : Path.normalize (s.toList ++ ['/']) = s.toList := by
  have hroot : Path.root (s.toList ++ ['/']) = [] :=
    Path.root_of_head (Path.head?_append_name hs.isName hs.no_slash)
  have kept : (Path.segments (s.toList ++ ['/'])).foldl (Path.keep false) [] = [s.toList] := by
    rw [Path.segments_append, Path.segments_of_no_slash hs.no_slash, Path.segments, List.singleton_append, List.foldl_cons,
      Path.keep_name hs.isName, List.foldl_cons, List.foldl_nil, Path.keep, if_pos (.inl rfl)]
  simp only [Path.normalize, hroot, List.isEmpty_nil, Bool.not_true, kept]
  split
  · rename_i nowhere
    exact absurd nowhere hs.isName.1
  · rfl

theorem clean_folder (hs : IsSegment s) : Path.clean (s.toList ++ ['/']) = s.toList ++ ['/'] := by
  have full : Path.endsInSlash (s.toList ++ ['/']) = true := by simp [Path.endsInSlash]
  have cut : Path.endsInSlash s.toList = false := Path.endsInSlash_append (p := []) hs.isName.1 hs.no_slash
  simp only [Path.clean, normalize_folder hs, Path.map_forward hs.no_backslash, full, cut, Bool.not_false,
    Bool.and_true, if_true]
  rw [if_neg]
  intro dot
  have := congrArg List.getLast? dot
  simp at this

theorem key_toList (hs : IsSegment s) (hi : IsSegment i) (h : l.key s i = .ok k) :
    Path.join? l.text.toList (s.toList ++ '/' :: i.toList) = some k.toList := by
  rw [← clean_segments hs hi]
  exact place_ok h

/-- where one key of segments is accepted, all are -/
theorem sound_of_key (hs : IsSegment s) (hi : IsSegment i) (h : l.key s i = .ok k) : l.Sound :=
  Path.isNormal_of_join? l.relative hs.isName hs.no_slash hi.isName hi.no_slash (key_toList hs hi h)

/-- **The key of segments.** -/
theorem key_segments (sound : l.Sound) (hs : IsSegment s) (hi : IsSegment i) :
    l.key s i = .ok (l.folder ++ s ++ "/" ++ i) := by
  have joined := Path.join?_names l.relative sound hs.isName hs.no_slash hi.isName hi.no_slash
  have shape : String.ofList (Path.folderOf l.text.toList ++ (s.toList ++ '/' :: i.toList)) =
      l.folder ++ s ++ "/" ++ i := by
    rw [← String.toList_inj]
    simp [folder]
  rw [key, clean_segments hs hi, place, joined]
  exact congrArg Except.ok shape

theorem key_eq (hs : IsSegment s) (hi : IsSegment i) (h : l.key s i = .ok k) : k = l.folder ++ s ++ "/" ++ i := by
  have := (key_segments (sound_of_key hs hi h) hs hi).symm.trans h
  exact (Except.ok.inj this).symm

theorem start_space (sound : l.Sound) (hs : IsSegment s) : l.start (some s) = .ok (l.folder ++ s ++ "/") := by
  have joined := Path.join?_folder l.relative sound hs.isName hs.no_slash
  have shape : String.ofList (Path.folderOf l.text.toList ++ (s.toList ++ ['/'])) = l.folder ++ s ++ "/" := by
    rw [← String.toList_inj]
    simp [folder]
  rw [start, key, String.toList_empty, clean_folder hs, place, joined]
  exact congrArg Except.ok shape

theorem start_all (sound : l.Sound) : l.start none = .ok l.folder := by
  rw [start, place, Path.join?_nil l.relative sound]
  rfl

theorem startsWith_iff (start key : String) : Bucket.startsWith start key = true ↔ start.toList <+: key.toList :=
  List.isPrefixOf_iff_prefix

theorem startsWith_folder (s i : String) : Bucket.startsWith l.folder (l.folder ++ s ++ "/" ++ i) = true := by
  rw [startsWith_iff]
  simp only [String.toList_append, List.append_assoc]
  exact List.prefix_append _ _

/-- of two rows of characters without slashes and with a slash after them, one does not start with the other -/
theorem eq_of_prefix_slash {a b rest : List Char} (ha : '/' ∉ a) (hb : '/' ∉ b)
    (h : a ++ ['/'] <+: b ++ '/' :: rest) : a = b := by
  obtain ⟨more, h⟩ := h
  rw [List.append_assoc, List.singleton_append] at h
  have cut : ∀ {x y : List Char}, '/' ∉ x → (x ++ '/' :: y).takeWhile (· != '/') = x := by
    intro x y hx
    rw [List.takeWhile_append_of_pos]
    · simp
    · intro c hc
      rw [bne_iff_ne]
      rintro rfl
      exact hx hc
  exact (cut ha).symm.trans (h ▸ cut hb)

/-- **A key starts with what the keys of a space start with just for its own space.** -/
theorem startsWith_key (hs : IsSegment s) (ht : IsSegment t) :
    Bucket.startsWith (l.folder ++ s ++ "/") (l.folder ++ t ++ "/" ++ i) = true ↔ s = t := by
  rw [startsWith_iff]
  constructor
  · intro h
    simp only [String.toList_append, List.append_assoc] at h
    have := (List.prefix_append_right_inj _).1 h
    exact String.toList_inj.1 (eq_of_prefix_slash hs.no_slash ht.no_slash this)
  · rintro rfl
    simp only [String.toList_append, List.append_assoc]
    exact ⟨i.toList, by simp⟩

/-- **Keys of segments belong to one space and one id.** -/
theorem key_inj (hs : IsSegment s) (ht : IsSegment t) (hi : IsSegment i) (hj : IsSegment j) (h : l.key s i = .ok k)
    (h' : l.key t j = .ok k) : s = t ∧ i = j := by
  have first := key_eq hs hi h
  have second := key_eq ht hj h'
  refine ⟨(startsWith_key (l := l) (i := j) hs ht).1 ?_, key_id hi hj h h'⟩
  rw [← second, first]
  exact (startsWith_key hs hs).2 rfl

end Location

/-! ## Ids of 32 digits -/

theorem digitChar_plain {d : Nat} (h : d < 16) : d.digitChar ≠ '/' ∧ d.digitChar ≠ Path.backslash := by
  interval_cases d <;> decide

theorem toDigits_plain (n : Nat) : ∀ c ∈ Nat.toDigits 16 n, c ≠ '/' ∧ c ≠ Path.backslash := by
  induction n using Nat.strongRecOn with
  | ind n ih =>
    intro c hc
    rw [Nat.toDigits_eq_if (by decide)] at hc
    split at hc
    case isTrue small => exact List.mem_singleton.1 hc ▸ digitChar_plain small
    case isFalse large =>
      rcases List.mem_append.1 hc with hc | hc
      · exact ih (n / 16) (by omega) c hc
      · exact List.mem_singleton.1 hc ▸ digitChar_plain (Nat.mod_lt n (by decide))

/-- **The written form of an id is a segment.** -/
theorem isSegment_idText (n : Nat) : IsSegment (Execution.idText n) := by
  obtain ⟨digits, hdigits⟩ : ∃ digits, digits = (Nat.toDigits 16 n).leftpad Execution.idLength '0' := ⟨_, rfl⟩
  have plain : ∀ c ∈ digits, c ≠ '/' ∧ c ≠ Path.backslash := by
    intro c hc
    rw [hdigits, List.leftpad, List.mem_append] at hc
    rcases hc with hc | hc
    · rw [List.eq_of_mem_replicate hc]
      decide
    · exact toDigits_plain n c hc
  have group : ∀ start count, ∀ c ∈ (digits.drop start).take count, c ≠ '/' ∧ c ≠ Path.backslash :=
    fun start count c hc => plain c (List.mem_of_mem_drop (List.mem_of_mem_take hc))
  have text : (Execution.idText n).toList = (digits.drop 0).take 8 ++ '-' :: (digits.drop 8).take 4 ++
      '-' :: (digits.drop 12).take 4 ++ '-' :: (digits.drop 16).take 4 ++ '-' :: (digits.drop 20).take 12 := by
    rw [Execution.idText, String.toList_ofList, ← hdigits]
  have dash : '-' ≠ '/' ∧ '-' ≠ Path.backslash := by decide
  have all : ∀ c ∈ (Execution.idText n).toList, c ≠ '/' ∧ c ≠ Path.backslash := by
    rw [text]
    simp only [List.forall_mem_append, List.forall_mem_cons]
    exact ⟨⟨⟨⟨group 0 8, dash, group 8 4⟩, dash, group 12 4⟩, dash, group 16 4⟩, dash, group 20 12⟩
  have hyphen : '-' ∈ (Execution.idText n).toList := by simp [text]
  have other : ∀ name : String, '-' ∉ name.toList → Execution.idText n ≠ name :=
    fun name none same => none (same ▸ hyphen)
  exact ⟨other _ (by decide), other _ (by decide), other _ (by decide), fun h => (all _ h).1 rfl,
    fun h => (all _ h).2 rfl⟩

end Depot.Key
