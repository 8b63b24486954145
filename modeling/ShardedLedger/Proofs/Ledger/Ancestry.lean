import Mathlib.Data.List.Chain
import Mathlib.Data.List.TakeWhile
import Mathlib.Logic.Relation
import Mathlib.Order.Defs.Unbundled
import ShardedLedger.Proofs.Ledger.Hierarchy

namespace ShardedLedger

namespace Text

section Bytes

variable {a b : String}

-- Whole characters end where the bytes of a text end inside another one.
theorem isValid_of_bytes (h : a.toUTF8.data.toList <+: b.toUTF8.data.toList) :
    String.Pos.Raw.IsValid b ⟨a.utf8ByteSize⟩ := by
  have hextract : b.toByteArray.extract 0 a.utf8ByteSize = a.toByteArray := by
    obtain ⟨rest, hrest⟩ := h
    have hb : b.toByteArray.data.toList = a.toByteArray.data.toList ++ rest := hrest.symm
    have hsize : a.utf8ByteSize = a.toByteArray.data.toList.length := rfl
    apply ByteArray.ext
    rw [ByteArray.data_extract, ← Array.toList_inj, Array.toList_extract, hb, hsize]
    simp
  refine String.Pos.Raw.isValid_iff_isValidUTF8_extract_zero.mpr ⟨?_, ?_⟩
  · exact h.length_le
  · exact hextract ▸ a.isValidUTF8

theorem exists_append_of_bytes (h : a.toUTF8.data.toList <+: b.toUTF8.data.toList) :
    ∃ rest, b = a ++ rest := by
  obtain ⟨start, rest, hb, hend⟩ :=
    String.Pos.Raw.isValid_iff_exists_append.mp (isValid_of_bytes h)
  have hstart : start.toUTF8.data.toList <+: b.toUTF8.data.toList := by
    rw [hb, String.toUTF8, String.toUTF8, String.toByteArray_append, ByteArray.data_append,
      Array.toList_append]
    exact List.prefix_append _ _
  have hlength : a.toUTF8.data.toList.length = start.toUTF8.data.toList.length :=
    congrArg String.Pos.Raw.byteIdx hend
  have hbytes := (List.prefix_of_prefix_length_le h hstart hlength.le).eq_of_length hlength
  have hsame : a = start :=
    String.toByteArray_inj.mp (ByteArray.ext (Array.toList_inj.mp hbytes))
  exact ⟨rest, hsame ▸ hb⟩

end Bytes

end Text

namespace Key

variable {key parent : Key}

section Parents

theorem parent?_eq_none_iff : key.parent? = none ↔ separator ∉ key.text.toList := by
  rw [parent?, Option.map_eq_none_iff, Text.beforeLast_eq_none_iff]

theorem exists_append_of_parent? (h : key.parent? = some parent) :
    ∃ rest, separator ∉ rest ∧ key.text.toList = parent.text.toList ++ separator :: rest := by
  obtain ⟨before, hbefore, rfl⟩ := Option.map_eq_some_iff.mp h
  obtain ⟨rest, hnot, hrest⟩ := Text.exists_append_of_beforeLast hbefore
  exact ⟨rest, hnot, by rw [hrest, String.toList_ofList]⟩

-- From the root down: every key is a root or one level below another key, which is shorter.
@[elab_as_elim]
theorem parentInduction {P : Key → Prop} (root : ∀ key, key.parent? = none → P key)
    (child : ∀ key parent, key.parent? = some parent → P parent → P key) (key : Key) : P key := by
  induction hlength : key.text.toList.length using Nat.strongRecOn generalizing key with
  | _ length ih =>
      cases hparent : key.parent? with
      | none => exact root key hparent
      | some parent =>
          obtain ⟨rest, -, hrest⟩ := exists_append_of_parent? hparent
          refine child key parent hparent (ih _ ?_ parent rfl)
          rw [← hlength, hrest, List.length_append, List.length_cons]
          omega

theorem properPrefixes_append (before rest : List Char) :
    properPrefixes (before ++ separator :: rest) =
      properPrefixes before ++ before ::
        (properPrefixes rest).map (before ++ separator :: ·) := by
  induction before with
  | nil => simp [properPrefixes]
  | cons c before ih =>
      by_cases he : c = separator <;> simp [properPrefixes, he, ih, Function.comp_def]

theorem properPrefixes_of_notMem {text : List Char} (h : separator ∉ text) :
    properPrefixes text = [] := by
  refine List.eq_nil_iff_forall_not_mem.mpr fun before hmem => h ?_
  obtain ⟨rest, rfl⟩ := (mem_properPrefixes_iff text before).mp hmem
  simp

theorem ancestors_of_root (h : key.parent? = none) : key.ancestors = [] := by
  rw [ancestors, properPrefixes_of_notMem (parent?_eq_none_iff.mp h), List.map_nil]

-- The ancestors are found by going up from parent to parent.
theorem ancestors_of_parent (h : key.parent? = some parent) :
    key.ancestors = parent.ancestors ++ [parent] := by
  obtain ⟨rest, hnot, hrest⟩ := exists_append_of_parent? h
  rw [ancestors, hrest, properPrefixes_append, properPrefixes_of_notMem hnot, List.map_nil,
    List.map_append, List.map_singleton, String.ofList_toList, ancestors]

end Parents

section Lineage

def IsParent (parent key : Key) : Prop := key.isChildOf parent = true

theorem isParent_iff : parent.IsParent key ↔ key.parent? = some parent := decide_eq_true_iff

theorem isChain_ancestors (key : Key) : (key.ancestors ++ [key]).IsChain IsParent := by
  induction key using parentInduction with
  | root key h =>
      rw [ancestors_of_root h]
      exact List.isChain_singleton key
  | child key parent h ih =>
      rw [ancestors_of_parent h]
      refine ih.append (List.isChain_singleton key) ?_
      simpa using isParent_iff.mpr h

theorem head?_ancestors (key : Key) :
    (key.ancestors ++ [key]).head? = some ⟨key.root⟩ := by
  induction key using parentInduction with
  | root key h =>
      have hroot : key.text.toList.takeWhile (· ≠ separator) = key.text.toList := by
        refine List.takeWhile_eq_self_iff.mpr fun c hc => ?_
        exact decide_eq_true fun he => parent?_eq_none_iff.mp h (he ▸ hc)
      rw [ancestors_of_root h, List.nil_append, List.head?_cons, root, rootOf, hroot,
        String.ofList_toList]
  | child key parent h ih =>
      have hmem : parent ∈ key.ancestors := by simp [ancestors_of_parent h]
      rw [ancestors_of_parent h, List.head?_append_of_ne_nil _ (by simp), ih,
        root_of_mem_ancestors hmem]

theorem mem_ancestors_iff_transGen (above key : Key) :
    above ∈ key.ancestors ↔ Relation.TransGen IsParent above key := by
  constructor
  · intro hmem
    induction key using parentInduction with
    | root key h => simp [ancestors_of_root h] at hmem
    | child key parent h ih =>
        rw [ancestors_of_parent h, List.mem_append, List.mem_singleton] at hmem
        rcases hmem with hmem | rfl
        · exact (ih hmem).tail (isParent_iff.mpr h)
        · exact .single (isParent_iff.mpr h)
  · intro h
    induction h with
    | single h => exact mem_ancestors_of_isChildOf h
    | tail _ h ih => exact mem_ancestors_trans ih (mem_ancestors_of_isChildOf h)

theorem contains_isPartialOrder : IsPartialOrder Key fun key other => key.contains other = true where
  refl key := (contains_iff key key).mpr (.inl rfl)
  trans a b c hab hbc := by
    rcases (contains_iff b c).mp hbc with rfl | hbc
    · exact hab
    · exact contains_of_mem_ancestors hab hbc
  antisymm a b hab hba := by
    rcases (contains_iff a b).mp hab with rfl | hab
    · rfl
    · rcases (contains_iff b a).mp hba with rfl | hba
      · rfl
      · exact absurd (mem_ancestors_trans hab hba) (not_mem_ancestors a)

theorem separator_notMem_root (key : Key) : separator ∉ key.root.toList := by
  rw [root, rootOf, String.toList_ofList]
  intro hmem
  simpa using List.mem_takeWhile_imp hmem

theorem contains_append_iff {other : Key} {rest : String} (h : other.text = key.text ++ rest) :
    key.contains other = true ↔ rest = "" ∨ rest.toList.head? = some separator := by
  have hbehind : Text.behind key.text.toList other.text.toList = some rest.toList := by
    rw [Text.behind_eq_some_iff, h, String.toList_append]
  rw [contains, hbehind]
  cases hrest : rest.toList with
  | nil => simp [String.toList_eq_nil_iff.mp hrest]
  | cons c chars =>
      have hne : rest ≠ "" := by
        rintro rfl
        cases hrest
      simp [hne]

end Lineage

-- Three readings of a text give one tree, whether the text is a valid name or not: going up
-- at the last separator, comparing from the front, and cutting at the first separator. Where
-- texts are compared by their bytes, the rest that is looked at begins at a whole character.
theorem hierarchy_coherent :
    (∀ a b : Key, a.contains b = true ↔ a = b ∨ a ∈ b.ancestors) ∧
      (∀ b : Key, b.ancestors.Nodup ∧
        (∀ a, a ∈ b.ancestors ↔ Relation.TransGen IsParent a b) ∧
        (b.ancestors ++ [b]).IsChain IsParent ∧
        (b.ancestors ++ [b]).head? = some ⟨b.root⟩) ∧
      IsPartialOrder Key (fun a b => a.contains b = true) ∧
      (∀ a b : Key, a.contains b = true → a.root = b.root) ∧
      (∀ b : Key, separator ∉ b.root.toList ∧ (⟨b.root⟩ : Key).contains b = true) ∧
      (∀ (text : String) (b : Key), parse text = .ok b →
        ∀ a ∈ b.ancestors, parse a.text = .ok a) ∧
      ∀ a b : Key, a.text.toUTF8.data.toList <+: b.text.toUTF8.data.toList →
        ∃ rest, b.text = a.text ++ rest ∧
          a.text.utf8ByteSize ≤ b.text.utf8ByteSize ∧
          String.Pos.Raw.IsValid b.text ⟨a.text.utf8ByteSize⟩ ∧
          (a.contains b = true ↔ rest = "" ∨ rest.toList.head? = some separator) := by
  refine ⟨contains_iff, fun b => ⟨nodup_ancestors b, fun a => mem_ancestors_iff_transGen a b,
    isChain_ancestors b, head?_ancestors b⟩, contains_isPartialOrder, fun a b => root_of_contains,
    fun b => ⟨separator_notMem_root b, contains_root b⟩, fun text b hparse a hmem => ?_,
    fun a b hbytes => ?_⟩
  · have hvalid := ((parse_eq_ok_iff text b).mp hparse).2
    exact (parse_eq_ok_iff a.text a).mpr ⟨rfl, isValid_of_mem_ancestors hvalid hmem⟩
  · obtain ⟨rest, hrest⟩ := Text.exists_append_of_bytes hbytes
    exact ⟨rest, hrest, hbytes.length_le, Text.isValid_of_bytes hbytes,
      contains_append_iff hrest⟩

-- Empty segments at either end, and a character of two bytes.
theorem hierarchy_coherent_odd :
    (⟨":é:"⟩ : Key).contains ⟨":é::"⟩ = true ∧ (⟨":é:"⟩ : Key).root = (⟨":é::"⟩ : Key).root ∧
      parse "é" = .ok ⟨"é"⟩ ∧ String.Pos.Raw.IsValid "é:b" ⟨2⟩ := by
  obtain ⟨hcontains, -, -, hroot, -, hparse, hslice⟩ := hierarchy_coherent
  have habove : (⟨":é:"⟩ : Key).contains ⟨":é::"⟩ = true :=
    (hcontains _ _).mpr (.inr (by decide))
  have hvalid : parse "é:b" = .ok ⟨"é:b"⟩ := (parse_eq_ok_iff _ _).mpr ⟨rfl, by decide⟩
  obtain ⟨-, -, -, hposition, -⟩ := hslice ⟨"é"⟩ ⟨"é:b"⟩ (by decide +kernel)
  exact ⟨habove, hroot _ _ habove, hparse _ _ hvalid ⟨"é"⟩ (by decide), hposition⟩

end Key

end ShardedLedger
