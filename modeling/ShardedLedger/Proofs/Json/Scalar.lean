import Mathlib.Algebra.Group.Int.Defs
import ShardedLedger.Json.Printer
import ShardedLedger.Json.Scan

namespace ShardedLedger.Json

section Strings

theorem hexValue_digitChar : ∀ digit < 16, hexValue (Nat.digitChar digit) = some digit := by decide

theorem hexValue_hexDigit (n : Nat) : hexValue (hexDigit n) = some (n % 16) :=
  hexValue_digitChar (n % 16) (Nat.mod_lt n (by decide))

theorem readHex_hexDigits (n : Nat) (rest : List Char) (hn : n < 256) :
    readHex ('0' :: '0' :: hexDigit (n / 16) :: hexDigit n :: rest) = .ok (n, rest) := by
  have hzero : hexValue '0' = some 0 := by decide
  have hvalue : ((0 * 16 + 0) * 16 + n / 16 % 16) * 16 + n % 16 = n := by omega
  simp only [readHex, hzero, hexValue_hexDigit, hvalue]

theorem readUnicode_control (c : Char) (rest : List Char) (hc : c.toNat < 0x20) :
    readUnicode ('0' :: '0' :: hexDigit (c.toNat / 16) :: hexDigit c.toNat :: rest) =
      .ok (c, rest) := by
  have hlow : ¬(0xDC00 ≤ c.toNat ∧ c.toNat ≤ 0xDFFF) := by omega
  have hhigh : ¬(0xD800 ≤ c.toNat ∧ c.toNat ≤ 0xDBFF) := by omega
  simp only [readUnicode, readHex_hexDigits c.toNat rest (by omega), bind, Except.bind, hlow, hhigh,
    ite_false, Char.ofNat_toNat]

theorem readChars_cons_of_escape (count : Nat) (c : Char) (code rest : List Char)
    (h : readEscape (code ++ rest) = .ok (c, rest)) :
    readChars (count + 1) ('\\' :: code ++ rest) =
      (readChars count rest).map fun read => (c :: read.1, read.2) := by
  have hq : ('\\' : Char) ≠ '\"' := by decide
  simp only [List.cons_append, readChars, hq, ite_false, ite_true, h, bind, Except.bind, pure,
    Except.pure]
  cases readChars count rest <;> rfl

theorem readChars_escape (count : Nat) (c : Char) (rest : List Char) :
    readChars (count + 1) (escape c ++ rest) =
      (readChars count rest).map fun read => (c :: read.1, read.2) := by
  unfold escape
  split
  next => exact readChars_cons_of_escape count _ ['\"'] rest rfl
  next => exact readChars_cons_of_escape count _ ['\\'] rest rfl
  next => exact readChars_cons_of_escape count _ ['b'] rest rfl
  next => exact readChars_cons_of_escape count _ ['f'] rest rfl
  next => exact readChars_cons_of_escape count _ ['n'] rest rfl
  next => exact readChars_cons_of_escape count _ ['r'] rest rfl
  next => exact readChars_cons_of_escape count _ ['t'] rest rfl
  next hquote hback _ _ _ _ _ =>
    split
    next hc =>
      exact readChars_cons_of_escape count c ['u', '0', '0', hexDigit (c.toNat / 16),
        hexDigit c.toNat] rest (readUnicode_control c rest hc)
    next hc =>
      have hq : c ≠ '\"' := hquote
      have hb : c ≠ '\\' := hback
      simp only [List.cons_append, List.nil_append, readChars, hq, hb, hc, ite_false, bind,
        Except.bind, pure, Except.pure]
      cases readChars count rest <;> rfl

-- Every character takes one off the count, however long its escape is.
theorem readChars_flatMap_escape (chars : List Char) (count : Nat) (rest : List Char)
    (hcount : chars.length < count) :
    readChars count (chars.flatMap escape ++ '\"' :: rest) = .ok (chars, rest) := by
  induction chars generalizing count with
  | nil =>
      obtain ⟨count, rfl⟩ := Nat.exists_eq_add_of_lt hcount
      simp [readChars, pure, Except.pure]
  | cons c chars ih =>
      obtain ⟨count, rfl⟩ : ∃ less, count = less + 1 := ⟨count - 1, by omega⟩
      simp only [List.length_cons] at hcount
      rw [List.flatMap_cons, List.append_assoc, readChars_escape, ih count (by omega)]
      rfl

theorem escape_ne_nil (c : Char) : escape c ≠ [] := by
  unfold escape
  split
  case h_8 => split <;> simp
  all_goals simp

theorem length_le_length_flatMap_escape (chars : List Char) :
    chars.length ≤ (chars.flatMap escape).length := by
  induction chars with
  | nil => simp
  | cons c chars ih =>
      have hpos := List.length_pos_iff.mpr (escape_ne_nil c)
      simp only [List.flatMap_cons, List.length_append, List.length_cons]
      omega

theorem readString_escape (s : String) (rest : List Char) :
    readString (s.toList.flatMap escape ++ '\"' :: rest) = .ok (s, rest) := by
  have hlength := length_le_length_flatMap_escape s.toList
  have hread := readChars_flatMap_escape s.toList
    ((s.toList.flatMap escape ++ '\"' :: rest).length + 1) rest (by
      simp only [List.length_append, List.length_cons]
      omega)
  simp only [readString, hread, bind, Except.bind, pure, Except.pure, String.ofList_toList]

theorem writeString_append (s : String) (rest : List Char) :
    writeString s ++ rest = '\"' :: (s.toList.flatMap escape ++ '\"' :: rest) := by
  simp [writeString]

end Strings

section Numbers

-- What may stand behind a value inside a list or an object, or nothing at all.
def Delimited (rest : List Char) : Prop :=
  ∀ c, rest.head? = some c → c = ',' ∨ c = ']' ∨ c = '\x7d'

theorem delimited_nil : Delimited [] := by simp [Delimited]

theorem delimited_cons (c : Char) (rest : List Char) (hc : c = ',' ∨ c = ']' ∨ c = '\x7d') :
    Delimited (c :: rest) := by
  simp only [Delimited, List.head?_cons, Option.some.injEq]
  rintro _ rfl
  exact hc

theorem Delimited.not_isDigit {rest : List Char} (h : Delimited rest) :
    ∀ c, rest.head? = some c → c.isDigit = false := by
  intro c hc
  rcases h c hc with rfl | rfl | rfl <;> decide

theorem takeWhile_isDigit_append (digits rest : List Char) (hdigits : ∀ c ∈ digits, c.isDigit)
    (hrest : Delimited rest) : (digits ++ rest).takeWhile Char.isDigit = digits := by
  rw [List.takeWhile_append_of_pos hdigits]
  cases rest with
  | nil => simp
  | cons c rest => simp [hrest.not_isDigit c rfl]

theorem dropWhile_isDigit_append (digits rest : List Char) (hdigits : ∀ c ∈ digits, c.isDigit)
    (hrest : Delimited rest) : (digits ++ rest).dropWhile Char.isDigit = rest := by
  rw [List.dropWhile_append_of_pos hdigits]
  cases rest with
  | nil => simp
  | cons c rest => simp [hrest.not_isDigit c rfl]

theorem le_ofDigitChars (digits : List Char) (value : Nat) :
    value ≤ Nat.ofDigitChars 10 digits value := by
  induction digits generalizing value with
  | nil => simp
  | cons digit rest ih =>
      rw [Nat.ofDigitChars_cons]
      exact Nat.le_trans (by omega) (ih _)

-- All digits are taken when the whole number fits, as none of its beginnings is larger.
theorem gather_of_le (digits : List Char) (value : Nat)
    (h : Nat.ofDigitChars 10 digits value ≤ greatestInteger) :
    gather value digits = (Nat.ofDigitChars 10 digits value, digits.length) := by
  induction digits generalizing value with
  | nil => simp [gather]
  | cons digit rest ih =>
      have hnext : value * 10 + digitValue digit = 10 * value + (digit.toNat - '0'.toNat) := by
        rw [digitValue, Nat.mul_comm]
      rw [Nat.ofDigitChars_cons, ← hnext] at h ⊢
      have hfits := Nat.le_trans (le_ofDigitChars rest (value * 10 + digitValue digit)) h
      simp only [gather, Nat.not_lt.mpr hfits, ite_false, ih _ h, List.length_cons]

-- Only zero itself is written with a zero in front.
theorem eq_nil_of_toDigits_eq_zero_cons (n : Nat) {rest : List Char}
    (h : Nat.toDigits 10 n = '0' :: rest) : rest = [] := by
  induction n using Nat.strongRecOn generalizing rest with
  | _ n ih =>
      rw [Nat.toDigits_eq_if (by decide)] at h
      split at h
      · exact (List.cons.inj h).2.symm
      next hn =>
        obtain ⟨digits, hdigits⟩ : ∃ digits, Nat.toDigits 10 (n / 10) = '0' :: digits := by
          cases hfront : Nat.toDigits 10 (n / 10) with
          | nil => exact absurd hfront Nat.toDigits_ne_nil
          | cons first digits =>
              rw [hfront] at h
              exact ⟨digits, by rw [(List.cons.inj h).1]⟩
        have hnil := ih (n / 10) (by omega) hdigits
        have hzero := congrArg (Nat.ofDigitChars 10 · 0) hdigits
        simp only [Nat.ofDigitChars_ten_toDigits, hnil, Nat.ofDigitChars_cons,
          Nat.ofDigitChars_nil] at hzero
        simp at hzero
        omega

theorem head?_ne_exponent {rest : List Char} (h : Delimited rest) :
    rest.head? ≠ some 'e' ∧ rest.head? ≠ some 'E' := by
  constructor <;> intro he <;> rcases h _ he with he | he | he <;> simp at he

theorem readNumber_toDigits (negative : Bool) (n : Nat) (rest : List Char)
    (hn : n ≤ greatestInteger) (hrest : Delimited rest) :
    readNumber negative (Nat.toDigits 10 n ++ rest) =
      (wholeNumber negative n).map fun value => (value, rest) := by
  have hdigits : ∀ c ∈ Nat.toDigits 10 n, c.isDigit := fun c hc =>
    Nat.isDigit_of_mem_toDigits (by decide) (by decide) hc
  have hgather := gather_of_le (Nat.toDigits 10 n) 0 (by simpa using hn)
  rw [Nat.ofDigitChars_ten_toDigits] at hgather
  simp only [readNumber, takeWhile_isDigit_append _ _ hdigits hrest,
    dropWhile_isDigit_append _ _ hdigits hrest]
  split
  next h => exact absurd h Nat.toDigits_ne_nil
  next h => exact absurd (eq_nil_of_toDigits_eq_zero_cons n h) (List.cons_ne_nil _ _)
  next =>
    rw [hgather]
    split
    next hpoint => rcases hrest '.' rfl with h | h | h <;> simp at h
    next =>
      simp only [Nat.sub_self, head?_ne_exponent hrest, ne_eq, not_false_eq_true, and_self,
        ite_true]
      cases wholeNumber negative n <;> rfl

-- The integers that are read back as integers: those of 64 bits with or without a sign.
def FitsWord (value : Int) : Prop := -(2 ^ 63) ≤ value ∧ value < 2 ^ 64

theorem isDigit_cons_of_toDigits (n : Nat) :
    ∃ first digits, Nat.toDigits 10 n = first :: digits ∧ first.isDigit := by
  cases h : Nat.toDigits 10 n with
  | nil => exact absurd h Nat.toDigits_ne_nil
  | cons first digits =>
      have hmem : first ∈ Nat.toDigits 10 n := by rw [h]; simp
      exact ⟨first, digits, rfl, Nat.isDigit_of_mem_toDigits (by decide) (by decide) hmem⟩

theorem readScalar_of_isDigit (c : Char) (rest : List Char) (hc : c.isDigit) :
    readScalar (c :: rest) = readNumber false (c :: rest) := by
  unfold readScalar
  split
  case h_7 first remaining _ _ _ _ _ heq =>
    obtain ⟨rfl, rfl⟩ := List.cons.inj heq
    simp [hc]
  all_goals first
    | contradiction
    | (next heq => obtain ⟨rfl, -⟩ := List.cons.inj heq; exact absurd hc (by decide))

theorem readScalar_int (value : Int) (rest : List Char) (hvalue : FitsWord value)
    (hrest : Delimited rest) :
    readScalar ((toString value).toList ++ rest) = .ok (.int value, rest) := by
  obtain ⟨hlow, hhigh⟩ := hvalue
  cases value with
  | ofNat n =>
      obtain ⟨first, digits, hdigits, hfirst⟩ := isDigit_cons_of_toDigits n
      have hfits : n ≤ greatestInteger := by
        simp only [Int.ofNat_eq_natCast] at hhigh
        simp only [greatestInteger]
        omega
      have hread := readNumber_toDigits false n rest hfits hrest
      have htext : (toString (Int.ofNat n)).toList = Nat.toDigits 10 n := Nat.toList_repr
      rw [htext, hdigits, List.cons_append, readScalar_of_isDigit _ _ hfirst, ← List.cons_append,
        ← hdigits, hread]
      rfl
  | negSucc n =>
      have hread := readNumber_toDigits true (n + 1) rest (by simp [greatestInteger]; omega) hrest
      have htext : (toString (Int.negSucc n)).toList = '-' :: Nat.toDigits 10 (n + 1) := by
        have hminus : toString (Int.negSucc n) = "-" ++ (n + 1).repr := rfl
        rw [hminus, String.toList_append, Nat.toList_repr]
        rfl
      have hwhole : wholeNumber true (n + 1) = .ok (.int (Int.negSucc n)) := by
        have hfits : 0 < n + 1 ∧ n + 1 ≤ 0x8000000000000000 := by omega
        simp only [wholeNumber, Bool.not_true, Bool.false_eq_true, ite_false, hfits, and_self,
          ite_true]
        rfl
      rw [htext, List.cons_append]
      exact hread.trans (by rw [hwhole]; rfl)

end Numbers

end ShardedLedger.Json
