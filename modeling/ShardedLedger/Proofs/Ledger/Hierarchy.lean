import Mathlib.Data.List.Nodup
import ShardedLedger.Ledger.Error

namespace ShardedLedger

namespace Text

theorem behind_eq_some_iff (start text rest : List Char) :
    behind start text = some rest ↔ text = start ++ rest := by
  induction start generalizing text with
  | nil => simp [behind, eq_comm]
  | cons a start ih =>
      cases text with
      | nil => simp [behind]
      | cons c text =>
          by_cases he : a = c
          · simp [behind, he, ih]
          · simp [behind, he, Ne.symm he]

theorem splitOn_append (separator : Char) (before rest : List Char) :
    splitOn separator (before ++ separator :: rest) =
      splitOn separator before ++ splitOn separator rest := by
  induction before with
  | nil => simp [splitOn]
  | cons c before ih =>
      by_cases he : c = separator
      · simp [splitOn, he, ih]
      · obtain ⟨piece, pieces, hpieces⟩ :=
          List.exists_cons_of_ne_nil (splitOn_ne_nil separator before)
        simp [splitOn, he, ih, hpieces]

theorem splitOn_of_notMem {separator : Char} {text : List Char} (h : separator ∉ text) :
    splitOn separator text = [text] := by
  induction text with
  | nil => rfl
  | cons c text ih =>
      rw [List.mem_cons, not_or] at h
      obtain ⟨hc, hrest⟩ := h
      simp only [splitOn, Ne.symm hc, ite_false, ih hrest]

-- The pieces with the separators between them are the text.
theorem intercalate_splitOn (separator : Char) (text : List Char) :
    [separator].intercalate (splitOn separator text) = text := by
  induction text with
  | nil => rfl
  | cons c rest ih =>
      obtain ⟨piece, pieces, hpieces⟩ := List.exists_cons_of_ne_nil (splitOn_ne_nil separator rest)
      rw [hpieces] at ih
      by_cases he : c = separator
      · simp only [splitOn, he, ite_true, hpieces, List.intercalate_cons_cons, ih]
        rfl
      · simp only [splitOn, he, ite_false, hpieces]
        rw [← ih]
        cases pieces <;> simp [List.intercalate]

theorem beforeLast_eq_none_iff {separator : Char} {text : List Char} :
    beforeLast separator text = none ↔ separator ∉ text := by
  induction text with
  | nil => simp [beforeLast]
  | cons c text ih =>
      unfold beforeLast
      split
      next shorter hshorter =>
        have hmem : separator ∈ text := by
          by_contra hnot
          rw [ih.mpr hnot] at hshorter
          cases hshorter
        simp [hmem]
      next hnone =>
        by_cases he : c = separator
        · simp [he]
        · simp [he, Ne.symm he, ih.mp hnone]

theorem exists_append_of_beforeLast {separator : Char} {text before : List Char}
    (h : beforeLast separator text = some before) :
    ∃ rest, separator ∉ rest ∧ text = before ++ separator :: rest := by
  induction text generalizing before with
  | nil => cases h
  | cons c text ih =>
      unfold beforeLast at h
      split at h
      next shorter hshorter =>
        cases h
        obtain ⟨rest, hnot, hrest⟩ := ih hshorter
        exact ⟨rest, hnot, by rw [hrest, List.cons_append]⟩
      next hnone =>
        split at h
        next he =>
          cases h
          exact ⟨text, beforeLast_eq_none_iff.mp hnone, by rw [he, List.nil_append]⟩
        next => cases h

end Text

namespace Key

theorem ext_toList {a b : Key} (h : a.text.toList = b.text.toList) : a = b := by
  obtain ⟨a⟩ := a
  obtain ⟨b⟩ := b
  exact congrArg Key.mk (String.toList_inj.mp h)

section Ancestors

theorem mem_properPrefixes_iff (text before : List Char) :
    before ∈ properPrefixes text ↔ ∃ rest, text = before ++ separator :: rest := by
  induction text generalizing before with
  | nil => simp [properPrefixes]
  | cons c text ih =>
      cases before with
      | nil => by_cases he : c = separator <;> simp [properPrefixes, he]
      | cons d before =>
          by_cases he : c = separator <;>
            simp [properPrefixes, he, ih, eq_comm, and_comm]

-- One key stands above another exactly if a separator follows it in the other's text.
theorem mem_ancestors_iff (key other : Key) :
    key ∈ other.ancestors ↔ ∃ rest, other.text.toList = key.text.toList ++ separator :: rest := by
  simp only [ancestors, List.mem_map, mem_properPrefixes_iff]
  constructor
  · rintro ⟨before, ⟨rest, hrest⟩, rfl⟩
    exact ⟨rest, by simpa using hrest⟩
  · rintro ⟨rest, hrest⟩
    exact ⟨key.text.toList, ⟨rest, hrest⟩, by simp⟩

theorem mem_ancestors_trans {a b c : Key} (hab : a ∈ b.ancestors) (hbc : b ∈ c.ancestors) :
    a ∈ c.ancestors := by
  obtain ⟨middle, hmiddle⟩ := (mem_ancestors_iff a b).mp hab
  obtain ⟨rest, hrest⟩ := (mem_ancestors_iff b c).mp hbc
  refine (mem_ancestors_iff a c).mpr ⟨middle ++ separator :: rest, ?_⟩
  rw [hrest, hmiddle, List.append_assoc, List.cons_append]

theorem not_mem_ancestors (key : Key) : key ∉ key.ancestors := by
  rw [mem_ancestors_iff]
  rintro ⟨rest, hrest⟩
  have hlength := congrArg List.length hrest
  simp at hlength

theorem nodup_properPrefixes (text : List Char) : (properPrefixes text).Nodup := by
  induction text with
  | nil => exact .nil
  | cons c text ih =>
      have hlonger : ((properPrefixes text).map (c :: ·)).Nodup :=
        List.Nodup.map (fun _ _ h => (List.cons.inj h).2) ih
      unfold properPrefixes
      split
      · exact List.nodup_cons.mpr ⟨by simp, hlonger⟩
      · exact hlonger

theorem nodup_ancestors (key : Key) : key.ancestors.Nodup := by
  refine List.Nodup.map (fun a b h => ?_) (nodup_properPrefixes key.text.toList)
  exact String.ofList_injective (congrArg text h)

theorem contains_iff (key other : Key) :
    key.contains other = true ↔ key = other ∨ key ∈ other.ancestors := by
  rw [mem_ancestors_iff]
  constructor
  · intro h
    unfold contains at h
    split at h
    · cases h
    next hbehind =>
      rw [Text.behind_eq_some_iff, List.append_nil] at hbehind
      exact .inl (ext_toList hbehind.symm)
    next c rest hbehind =>
      rw [Text.behind_eq_some_iff] at hbehind
      exact .inr ⟨rest, by rw [hbehind, of_decide_eq_true h]⟩
  · rintro (rfl | ⟨rest, hrest⟩)
    · have hbehind : Text.behind key.text.toList key.text.toList = some [] :=
        (Text.behind_eq_some_iff _ _ _).mpr (by simp)
      simp [contains, hbehind]
    · have hbehind : Text.behind key.text.toList other.text.toList = some (separator :: rest) :=
        (Text.behind_eq_some_iff _ _ _).mpr hrest
      simp [contains, hbehind]

theorem contains_eq_false_iff (key other : Key) :
    key.contains other = false ↔ key ≠ other ∧ key ∉ other.ancestors := by
  rw [← Bool.not_eq_true, contains_iff, not_or]

-- What contains an ancestor of a key contains the key.
theorem contains_of_mem_ancestors {key above other : Key} (h : key.contains above = true)
    (habove : above ∈ other.ancestors) : key.contains other = true := by
  refine (contains_iff key other).mpr (.inr ?_)
  rcases (contains_iff key above).mp h with rfl | h
  · exact habove
  · exact mem_ancestors_trans h habove

-- What stands above a key that contains another one contains that one too.
theorem contains_of_contains {key above other : Key} (habove : above ∈ key.ancestors)
    (h : key.contains other = true) : above.contains other = true := by
  refine (contains_iff above other).mpr (.inr ?_)
  rcases (contains_iff key other).mp h with rfl | h
  · exact habove
  · exact mem_ancestors_trans habove h

end Ancestors

section Validity

theorem parse_eq_ok_iff (text : String) (key : Key) :
    parse text = .ok key ↔ key = ⟨text⟩ ∧ key.IsValid := by
  by_cases h : (⟨text⟩ : Key).IsValid
  · simp only [parse, parse?, h, ite_true, Except.ok.injEq]
    constructor
    · rintro rfl
      exact ⟨rfl, h⟩
    · rintro ⟨rfl, -⟩
      rfl
  · simp only [parse, parse?, h, ite_false, reduceCtorEq, false_iff, not_and]
    rintro rfl
    exact h

-- The segments of an ancestor are the first ones of the key.
theorem isValid_of_mem_ancestors {key other : Key} (h : other.IsValid)
    (hmem : key ∈ other.ancestors) : key.IsValid := by
  obtain ⟨rest, hrest⟩ := (mem_ancestors_iff key other).mp hmem
  obtain ⟨hslash, hsegments⟩ := h
  rw [segments, hrest, Text.splitOn_append, List.mem_append, not_or] at hsegments
  rw [hrest, List.mem_append, not_or] at hslash
  exact ⟨hslash.1, hsegments.1⟩

end Validity

section Root

theorem takeWhile_append_separator (before rest : List Char) :
    (before ++ separator :: rest).takeWhile (· ≠ separator) =
      before.takeWhile (· ≠ separator) := by
  induction before with
  | nil => simp
  | cons c before ih =>
      by_cases he : c = separator
      · simp [he]
      · simpa [he] using ih

theorem root_of_mem_ancestors {key other : Key} (h : key ∈ other.ancestors) :
    key.root = other.root := by
  obtain ⟨rest, hrest⟩ := (mem_ancestors_iff key other).mp h
  rw [root, root, rootOf, rootOf, hrest, takeWhile_append_separator]

theorem root_of_contains {key other : Key} (h : key.contains other = true) :
    key.root = other.root := by
  rcases (contains_iff key other).mp h with rfl | h
  · rfl
  · exact root_of_mem_ancestors h

-- What stands above a key ends at the last separator of its text.
theorem mem_ancestors_of_isChildOf {key parent : Key} (h : key.isChildOf parent = true) :
    parent ∈ key.ancestors := by
  obtain ⟨before, hbefore, rfl⟩ := Option.map_eq_some_iff.mp (of_decide_eq_true h)
  obtain ⟨rest, -, hrest⟩ := Text.exists_append_of_beforeLast hbefore
  exact (mem_ancestors_iff _ key).mpr ⟨rest, by rw [hrest, String.toList_ofList]⟩

theorem root_of_isChildOf {key parent : Key} (h : key.isChildOf parent = true) :
    key.root = parent.root :=
  (root_of_mem_ancestors (mem_ancestors_of_isChildOf h)).symm

-- The first segment is itself a key, either the whole one or the one above all others.
theorem contains_root (key : Key) : (⟨key.root⟩ : Key).contains key = true := by
  have htext : (⟨key.root⟩ : Key).text.toList = key.text.toList.takeWhile (· ≠ separator) :=
    String.toList_ofList
  have hsplit := List.takeWhile_append_dropWhile (p := (· ≠ separator)) (l := key.text.toList)
  rw [← htext] at hsplit
  rw [contains_iff, mem_ancestors_iff]
  cases hbehind : key.text.toList.dropWhile (· ≠ separator) with
  | nil =>
      rw [hbehind, List.append_nil] at hsplit
      exact .inl (ext_toList hsplit)
  | cons c rest =>
      have hc := List.head?_dropWhile_not (· ≠ separator) key.text.toList
      rw [hbehind] at hc
      have hseparator : c = separator := by simpa using hc
      rw [hbehind, hseparator] at hsplit
      exact .inr ⟨rest, hsplit.symm⟩

theorem contains_root_iff (key other : Key) :
    (⟨key.root⟩ : Key).contains other = true ↔ other.root = key.root := by
  constructor
  · intro h
    exact (root_of_contains h).symm.trans (root_of_contains key.contains_root)
  · intro hroot
    exact hroot ▸ other.contains_root

end Root

end Key

end ShardedLedger
