import RuntimeTargets.Alignment
import RuntimeTargets.Proofs.Word

/-!
# Rounding as division

For an alignment that is a power of two, clearing the low bits of a word is
taking its remainder away.  Rounding up is stated in the form in which a walk
over aligned addresses uses it: the multiples not below the value are those not
below the rounded value, and where there is no rounded value no multiple that is
a word is left.
-/

namespace RuntimeTargets.Alignment

open Word (IsPowerOfTwo)

variable {value alignment mask rounded : Word}

/-- Clearing all bits below the `k`-th leaves whole multiples of `2 ^ k`. -/
theorem toNat_clearBits {k : ℕ} (hmask : mask.toNat + 1 = 2 ^ k) :
    (clearBits value mask).toNat = value.toNat / 2 ^ k * 2 ^ k := by
  have hnot : (~~~mask).toNat = 2 ^ 64 - (mask.toNat + 1) := by
    rw [UInt64.toNat_not, UInt64.size]
    omega
  have hpred : mask.toNat = 2 ^ k - 1 := by omega
  apply Nat.eq_of_testBit_eq
  intro i
  rw [clearBits, UInt64.toNat_and, hnot, Nat.testBit_and,
    Nat.testBit_two_pow_sub_succ mask.toNat_lt, hpred, Nat.testBit_two_pow_sub_one,
    Nat.testBit_mul_two_pow, Nat.testBit_div_two_pow]
  by_cases hlow : i < k
  · simp [hlow]
  have hkept : k ≤ i := Nat.le_of_not_lt hlow
  rw [Nat.sub_add_cancel hkept]
  by_cases hword : i < 64
  · simp [hlow, hkept, hword]
  · have hhigh : value.toNat.testBit i = false :=
      Nat.testBit_lt_two_pow
        (value.toNat_lt.trans_le (Nat.pow_le_pow_right (by decide) (by omega)))
    simp [hhigh]

theorem toNat_clearBits_of_isPowerOfTwo (halignment : IsPowerOfTwo alignment)
    (hmask : mask.toNat + 1 = alignment.toNat) (value : Word) :
    (clearBits value mask).toNat = value.toNat / alignment.toNat * alignment.toNat := by
  obtain ⟨k, hk⟩ := halignment
  rw [hk]
  exact toNat_clearBits (hmask.trans hk)

/-- Any two powers of two divide one another in the order of their size. -/
theorem dvd_of_isPowerOfTwo {m n : ℕ} (hm : m.isPowerOfTwo) (hn : n.isPowerOfTwo)
    (hle : m ≤ n) : m ∣ n := by
  obtain ⟨k, rfl⟩ := hm
  obtain ⟨l, rfl⟩ := hn
  exact Nat.pow_dvd_pow 2 ((Nat.pow_le_pow_iff_right (by decide)).1 hle)

/-- The mask of a power of two exists. -/
theorem exists_mask (halignment : IsPowerOfTwo alignment) :
    ∃ mask, Word.sub alignment 1 = .ok mask ∧ mask.toNat + 1 = alignment.toNat := by
  have hpos := Nat.pos_of_isPowerOfTwo halignment
  have hone : (1 : Word).toNat = 1 := rfl
  have hpred : (alignment - 1).toNat + 1 = alignment.toNat := by
    rw [UInt64.toNat_sub_of_le _ _ hpos, hone]
    omega
  exact ⟨alignment - 1, Word.sub_eq_ok_iff.2 (by rw [hone, hpred]), hpred⟩

/-! ## Rounding up -/

/-- `rounded` is the least multiple of `alignment` that is not below `value`. -/
structure RoundsUp (value alignment rounded : Word) : Prop where
  dvd : alignment.toNat ∣ rounded.toNat
  le_iff : ∀ m, alignment.toNat ∣ m → (rounded.toNat ≤ m ↔ value.toNat ≤ m)

theorem RoundsUp.toNat_eq_iff (h : RoundsUp value alignment rounded) :
    rounded.toNat = value.toNat ↔ alignment.toNat ∣ value.toNat := by
  constructor
  · intro heq
    rw [← heq]
    exact h.dvd
  · intro hdvd
    exact le_antisymm ((h.le_iff _ hdvd).2 le_rfl) ((h.le_iff _ h.dvd).1 le_rfl)

theorem roundsUp_clearBits (halignment : IsPowerOfTwo alignment) {raised : Word}
    (hmask : mask.toNat + 1 = alignment.toNat)
    (hraised : raised.toNat = value.toNat + mask.toNat) :
    RoundsUp value alignment (clearBits raised mask) := by
  have hpos := Nat.pos_of_isPowerOfTwo halignment
  have hclear := toNat_clearBits_of_isPowerOfTwo halignment hmask raised
  constructor
  · rw [hclear]
    exact Nat.dvd_mul_left _ _
  · rintro m ⟨q, rfl⟩
    rw [hclear, Nat.mul_comm, Nat.mul_le_mul_left_iff hpos, ← Nat.lt_succ_iff,
      Nat.div_lt_iff_lt_mul hpos, Nat.succ_mul, Nat.mul_comm q]
    omega

theorem dvd_two_pow (halignment : IsPowerOfTwo alignment) : alignment.toNat ∣ 2 ^ 64 :=
  dvd_of_isPowerOfTwo halignment ⟨64, rfl⟩ alignment.toNat_lt.le

/-- The words end at a multiple of every alignment, so a value within one
alignment of their end has no multiple above it that is a word. -/
theorem two_pow_le_of_dvd (halignment : IsPowerOfTwo alignment) {m : ℕ}
    (hdvd : alignment.toNat ∣ m) (hend : 2 ^ 64 < m + alignment.toNat) :
    2 ^ 64 ≤ m := by
  by_contra hlt
  have hgap : alignment.toNat ≤ 2 ^ 64 - m :=
    Nat.le_of_dvd (by omega) (Nat.dvd_sub (dvd_two_pow halignment) hdvd)
  omega

theorem roundUp?_cases (halignment : IsPowerOfTwo alignment) (value : Word) :
    (∃ rounded, roundUp? value alignment = .ok (some rounded) ∧
      RoundsUp value alignment rounded) ∨
    (roundUp? value alignment = .ok none ∧
      ∀ m, alignment.toNat ∣ m → value.toNat ≤ m → 2 ^ 64 ≤ m) := by
  obtain ⟨mask, hmask, hsucc⟩ := exists_mask halignment
  have heq : roundUp? value alignment =
      .ok ((Word.add? value mask).map (clearBits · mask)) := by
    rw [roundUp?, hmask]
    rfl
  cases hsum : Word.add? value mask with
  | some raised =>
      left
      have hraised := Word.add?_eq_some_iff.1 hsum
      exact ⟨clearBits raised mask, by rw [heq, hsum]; rfl,
        roundsUp_clearBits halignment hsucc hraised⟩
  | none =>
      right
      have hlarge := Word.add?_eq_none_iff.1 hsum
      refine ⟨by rw [heq, hsum]; rfl, ?_⟩
      intro m hdvd hle
      exact two_pow_le_of_dvd halignment hdvd (by omega)

end RuntimeTargets.Alignment
