import Mathlib.Algebra.BigOperators.Fin
import ShardedLedger.Relay.ShardTable

namespace ShardedLedger

theorem Utf8.encode_toList (text : String) : encode text.toList = text.toUTF8.data.toList := by
  rw [String.toUTF8, ← String.utf8Encode_toList, List.utf8Encode, List.data_toByteArray, encode]

-- The bytes as the digits of a number, the first one the highest.
def bytePolynomial (bytes : List UInt8) : Nat :=
  ∑ i : Fin bytes.length, bytes[i].toNat * 65599 ^ (bytes.length - (i + 1))

theorem bytePolynomial_cons (byte : UInt8) (bytes : List UInt8) :
    bytePolynomial (byte :: bytes) =
      byte.toNat * 65599 ^ bytes.length + bytePolynomial bytes := by
  simp only [bytePolynomial, List.length_cons, Fin.sum_univ_succ]
  simp

section Wrapping

-- The two shifts add the hash 64 and 65536 times, the subtraction takes it away once. What is
-- lost above 32 bits on the way does not come back.
theorem toNat_hashByte (hash : UInt32) (byte : UInt8) :
    (hashByte hash byte).toNat = (hash.toNat * 65599 + byte.toNat) % 2 ^ 32 := by
  have hbound := hash.toNat_lt
  have hsix : (6 : UInt32).toNat % 32 = 6 := rfl
  have hsixteen : (16 : UInt32).toNat % 32 = 16 := rfl
  simp only [hashByte, UInt32.toNat_sub, UInt32.toNat_add, UInt32.toNat_shiftLeft,
    UInt8.toNat_toUInt32, Nat.shiftLeft_eq, hsix, hsixteen]
  omega

-- By induction on the bytes that follow, from any hash of those before them: every further byte
-- multiplies what is there once more.
theorem toNat_foldl_hashByte (bytes : List UInt8) (hash : UInt32) :
    (bytes.foldl hashByte hash).toNat =
      (hash.toNat * 65599 ^ bytes.length + bytePolynomial bytes) % 2 ^ 32 := by
  induction bytes generalizing hash with
  | nil => simp [bytePolynomial, Nat.mod_eq_of_lt hash.toNat_lt]
  | cons byte bytes ih =>
      have hstep : (hash.toNat * 65599 + byte.toNat) * 65599 ^ bytes.length =
          hash.toNat * 65599 ^ (bytes.length + 1) + byte.toNat * 65599 ^ bytes.length := by
        rw [Nat.add_mul, Nat.mul_assoc, ← Nat.pow_succ']
      rw [List.foldl_cons, ih, toNat_hashByte, Nat.add_mod, Nat.mod_mul_mod, ← Nat.add_mod, hstep,
        List.length_cons, bytePolynomial_cons, Nat.add_assoc]

theorem toNat_sdbmHash (bytes : List UInt8) :
    (sdbmHash bytes).toNat = bytePolynomial bytes % 2 ^ 31 := by
  have hmask (hash : UInt32) : (hash &&& 0x7FFFFFFF).toNat = hash.toNat % 2 ^ 31 := by
    rw [UInt32.toNat_and]
    exact Nat.and_two_pow_sub_one_eq_mod hash.toNat 31
  rw [sdbmHash, hmask, toNat_foldl_hashByte, UInt32.toNat_zero, Nat.zero_mul, Nat.zero_add,
    Nat.mod_mod_of_dvd _ (Nat.pow_dvd_pow 2 (by decide))]

end Wrapping

-- Computed in 32 bits and masked once at the end, the hash is the exact sum over the bytes of
-- the text, less all multiples of 2 ^ 31; and the slot it gives is one that has a shard.
theorem hash_is_polynomial (text : String) :
    (sdbmHash (Utf8.encode text.toList)).toNat =
        bytePolynomial text.toUTF8.data.toList % 2 ^ 31 ∧
      ∀ table : ShardTable,
        (table.slotFor text).val =
            bytePolynomial text.toUTF8.data.toList % 2 ^ 31 % table.entries.length ∧
          ∃ entry, table.get? (table.slotFor text) = some entry := by
  have hhash := toNat_sdbmHash (Utf8.encode text.toList)
  rw [Utf8.encode_toList] at hhash
  refine ⟨Utf8.encode_toList text ▸ hhash, fun table => ⟨?_, ?_⟩⟩
  · have hslot : (table.slotFor text).val =
        (sdbmHash (Utf8.encode text.toList)).toNat % table.size := rfl
    rw [hslot, Utf8.encode_toList, hhash, ShardTable.size]
  · exact ⟨table.entries[table.slotFor text], List.getElem?_eq_getElem (table.slotFor text).isLt⟩

end ShardedLedger
