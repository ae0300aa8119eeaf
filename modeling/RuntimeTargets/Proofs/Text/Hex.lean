import Mathlib
import RuntimeTargets.Text.Hex

/-!
# Written bytes

Bytes are compared by their written form.  Every byte is written by as many
digits as any other, so two rows of bytes are written alike only if they are the
same.
-/

namespace RuntimeTargets.Hex

theorem digitChar_inj {m n : ℕ} (hm : m < 16) (hn : n < 16)
    (heq : Nat.digitChar m = Nat.digitChar n) : m = n := by
  have hdigit := congrArg digit? heq
  rw [digit?_digitChar hm, digit?_digitChar hn] at hdigit
  exact Option.some.inj hdigit

theorem digitsOfByte_injective : Function.Injective digitsOfByte := by
  intro byte other heq
  have hbyte := byte.toNat_lt
  have hother := other.toNat_lt
  rw [digitsOfByte, digitsOfByte, List.cons.injEq, List.cons.injEq] at heq
  have hhigh : byte.toNat / 16 = other.toNat / 16 :=
    digitChar_inj (by omega) (by omega) heq.1
  have hlow : byte.toNat % 16 = other.toNat % 16 :=
    digitChar_inj (by omega) (by omega) heq.2.1
  apply UInt8.toNat_inj.1
  omega

/-- Bytes are told apart in a row of them, as all are written equally long. -/
theorem flatMap_digitsOfByte_injective : Function.Injective (List.flatMap digitsOfByte) := by
  intro bytes others heq
  induction bytes generalizing others with
  | nil =>
      cases others with
      | nil => rfl
      | cons other others => cases heq
  | cons byte bytes ih =>
      cases others with
      | nil => cases heq
      | cons other others =>
          rw [List.flatMap_cons, List.flatMap_cons] at heq
          obtain ⟨hfirst, hrest⟩ := List.append_inj heq rfl
          rw [digitsOfByte_injective hfirst, ih hrest]

/-- Bytes are written alike only if they are the same. -/
theorem encode_inj {bytes other : ByteArray} : encode bytes = encode other ↔ bytes = other := by
  rw [encode, encode, String.ofList_inj, flatMap_digitsOfByte_injective.eq_iff,
    Array.toList_inj, ByteArray.ext_iff]

end RuntimeTargets.Hex
