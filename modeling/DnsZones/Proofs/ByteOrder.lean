import DnsZones.KeyOrder
import Mathlib.Tactic.SplitIfs

/-!
# The Order of Bytes

Names in the order of their code points are in the order of their bytes.

A system compares file names as the bytes that they are written in, while the keys of
a table compare text by its code points. The two agree because of how UTF-8 is made:
a greater code point never has the smaller byte where two of them first differ, and
none of them is the beginning of another.

## Main definitions

* `ByteOrder.bytes`: The bytes of a text.

## Theorems

* `ByteOrder.encode_lt`: The order of two code points is that of their bytes, whatever follows.
* `ByteOrder.cmp_eq_lt_iff`: The order of keys is that of their bytes.
-/

namespace DnsZones

namespace ByteOrder

/-- The bytes of a text. -/
def bytes (text : String) : List UInt8 := text.toUTF8.data.toList

theorem bytes_eq (text : String) : bytes text = text.toList.flatMap String.utf8EncodeChar := by
  rw [bytes, String.toUTF8_eq_toByteArray, ← String.utf8Encode_toList, List.utf8Encode,
    List.data_toByteArray]

/-- The bytes of the smaller code point are smaller where the two first differ, so that nothing
    depends on what comes after them. -/
theorem encode_lt {a b : Char} (h : a < b) (xs ys : List UInt8) :
    String.utf8EncodeChar a ++ xs < String.utf8EncodeChar b ++ ys := by
  have hb : b.val.toNat < 0x110000 := by
    have := b.valid
    simp only [UInt32.isValidChar, Nat.isValidChar] at this
    omega
  rw [Char.lt_def, UInt32.lt_iff_toNat_lt] at h
  simp only [String.utf8EncodeChar]
  generalize a.val.toNat = m at h ⊢
  generalize b.val.toNat = n at h hb ⊢
  -- Every byte after the first has six bits of the code point.
  have hdigits : ∀ n : Nat, n / 4096 = n / 64 / 64 ∧ n / 262144 = n / 64 / 64 / 64 := by omega
  simp only [(hdigits _).1, (hdigits _).2]
  split_ifs <;> simp only [List.cons_append, List.nil_append, List.cons_lt_cons_iff,
    UInt8.lt_iff_toNat_lt, ← UInt8.toNat_inj, UInt8.toNat_ofNat'] <;> omega

theorem flatMap_encode_lt {xs ys : List Char} (h : xs < ys) :
    xs.flatMap String.utf8EncodeChar < ys.flatMap String.utf8EncodeChar := by
  induction h with
  | @nil c cs =>
      have hc : 0 < (String.utf8EncodeChar c).length := by
        rw [String.length_utf8EncodeChar]
        exact c.utf8Size_pos
      rcases List.exists_cons_of_length_pos hc with ⟨byte, bytes, hbytes⟩
      rw [List.flatMap_nil, List.flatMap_cons, hbytes]
      exact List.nil_lt_cons _ _
  | rel h => exact encode_lt h _ _
  | cons _ ih => exact List.append_left_lt ih

theorem lt_iff {a b : String} : a < b ↔ bytes a < bytes b := by
  have hlt : ∀ {a b : String}, a < b → bytes a < bytes b := fun h => by
    rw [bytes_eq, bytes_eq]
    exact flatMap_encode_lt h
  refine ⟨hlt, fun h => Decidable.byContradiction fun hab => ?_⟩
  have hle : b ≤ a := String.not_lt.mp hab
  rcases Decidable.em (a ≤ b) with hge | hlt'
  · rw [String.le_antisymm hge hle] at h
    exact List.lt_irrefl _ h
  · exact List.lt_asymm h (hlt (String.not_le.mp hlt'))

/-- **The order of keys is the order of bytes.** -/
theorem cmp_eq_lt_iff {a b : String} : KeyOrder.cmp a b = .lt ↔ bytes a < bytes b :=
  compareOfLessAndEq_eq_lt.trans lt_iff

end ByteOrder

end DnsZones
