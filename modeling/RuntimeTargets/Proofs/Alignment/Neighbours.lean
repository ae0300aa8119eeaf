import RuntimeTargets.Proofs.Alignment.RoundingUp

/-!
# The multiples on either side of a value

Among the multiples of an alignment a value lies between two neighbours, and rounding gives
both of them.  The lower one is always a word.  The upper one is a natural that may be the
end of the words, and this is the only way in which `roundUp?` comes to have no value.  Each
neighbour stands for the value in every comparison with a multiple, so that whoever holds it
need not look at the value again.
-/

namespace RuntimeTargets.Alignment

open Word (IsPowerOfTwo)

variable {value alignment mask rounded : Word}

/-! ## The lower neighbour -/

/-- `rounded` is the greatest multiple of `alignment` that is not above `value`. -/
structure RoundsDown (value alignment rounded : Word) : Prop where
  dvd : alignment.toNat ∣ rounded.toNat
  le_iff : ∀ m, alignment.toNat ∣ m → (m ≤ rounded.toNat ↔ m ≤ value.toNat)

theorem RoundsDown.isGreatest (h : RoundsDown value alignment rounded) :
    IsGreatest {n | alignment.toNat ∣ n ∧ n ≤ value.toNat} rounded.toNat := by
  constructor
  · exact ⟨h.dvd, (h.le_iff _ h.dvd).1 le_rfl⟩
  · rintro n ⟨hdvd, hle⟩
    exact (h.le_iff n hdvd).2 hle

theorem roundsDown_clearBits (halignment : IsPowerOfTwo alignment)
    (hmask : mask.toNat + 1 = alignment.toNat) :
    RoundsDown value alignment (clearBits value mask) := by
  have hpos := Nat.pos_of_isPowerOfTwo halignment
  have hclear := toNat_clearBits_of_isPowerOfTwo halignment hmask value
  constructor
  · rw [hclear]
    exact Nat.dvd_mul_left _ _
  · rintro m ⟨q, rfl⟩
    rw [hclear, Nat.mul_comm, Nat.mul_le_mul_right_iff hpos, Nat.le_div_iff_mul_le hpos]

theorem exists_roundDown (halignment : IsPowerOfTwo alignment) (value : Word) :
    ∃ rounded, roundDown value alignment = .ok rounded ∧
      RoundsDown value alignment rounded := by
  obtain ⟨mask, hmask, hsucc⟩ := exists_mask halignment
  refine ⟨clearBits value mask, ?_, roundsDown_clearBits halignment hsucc⟩
  rw [roundDown, hmask]
  rfl

/-! ## The upper neighbour -/

/-- Where no multiple above a value is a word, the end of the words is the first of them. -/
theorem isLeast_two_pow (halignment : IsPowerOfTwo alignment)
    (hend : ∀ m, alignment.toNat ∣ m → value.toNat ≤ m → 2 ^ 64 ≤ m) :
    IsLeast {n | alignment.toNat ∣ n ∧ value.toNat ≤ n} (2 ^ 64) := by
  constructor
  · exact ⟨dvd_two_pow halignment, value.toNat_lt.le⟩
  · rintro m ⟨hdvd, hle⟩
    exact hend m hdvd hle

theorem exists_isLeast_roundUp? (halignment : IsPowerOfTwo alignment) (value : Word) :
    ∃ least, IsLeast {n | alignment.toNat ∣ n ∧ value.toNat ≤ n} least ∧
      roundUp? value alignment = .ok (Word.ofNat? least) := by
  rcases roundUp?_cases halignment value with ⟨rounded, hrounded, hup⟩ | ⟨hnone, hend⟩
  · refine ⟨rounded.toNat, hup.isLeast, ?_⟩
    rw [hrounded, Word.ofNat?_eq_some_iff.2 rfl]
  · exact ⟨2 ^ 64, isLeast_two_pow halignment hend, hnone⟩

/-- A multiple is not below a value exactly if there is a rounded value and it is not below
that. -/
theorem le_iff_exists_roundUp? (halignment : IsPowerOfTwo alignment) {m : Word}
    (hm : alignment.toNat ∣ m.toNat) :
    value ≤ m ↔ ∃ rounded, roundUp? value alignment = .ok (some rounded) ∧ rounded ≤ m := by
  simp only [UInt64.le_iff_toNat_le, roundUp?_eq_some_iff halignment]
  constructor
  · intro hle
    rcases roundUp?_cases halignment value with ⟨rounded, -, hup⟩ | ⟨-, hend⟩
    · exact ⟨rounded, hup, (hup.le_iff _ hm).2 hle⟩
    · exact absurd (hend _ hm hle) (Nat.not_le.2 m.toNat_lt)
  · rintro ⟨rounded, hup, hle⟩
    exact (hup.le_iff _ hm).1 hle

/-! ## Both neighbours -/

/-- `down` is the greatest multiple of `alignment` not above `value`, and `up` the least one
not below it, where that is a word.  Multiples compare with the value as they do with its
neighbour on the same side. -/
structure Neighbours (value alignment : Word) (up : Option Word) (down : Word) : Prop where
  up_eq : ∃ least, IsLeast {n | alignment.toNat ∣ n ∧ value.toNat ≤ n} least ∧
    up = Word.ofNat? least
  isGreatest : IsGreatest {n | alignment.toNat ∣ n ∧ n ≤ value.toNat} down.toNat
  value_le_iff : ∀ m : Word, alignment.toNat ∣ m.toNat →
    (value ≤ m ↔ ∃ rounded, up = some rounded ∧ rounded ≤ m)
  le_value_iff : ∀ m : Word, alignment.toNat ∣ m.toNat → (m ≤ value ↔ m ≤ down)

/-- Rounding to a power of two always has an answer, and the answers are the neighbours of
the value among the multiples. -/
theorem roundings_neighbours (halignment : IsPowerOfTwo alignment) (value : Word) :
    ∃ up down, roundUp? value alignment = .ok up ∧ roundDown value alignment = .ok down ∧
      Neighbours value alignment up down := by
  obtain ⟨least, hleast, hup⟩ := exists_isLeast_roundUp? halignment value
  obtain ⟨down, hdown, hrounds⟩ := exists_roundDown halignment value
  refine ⟨Word.ofNat? least, down, hup, hdown, ?_⟩
  constructor
  · exact ⟨least, hleast, rfl⟩
  · exact hrounds.isGreatest
  · intro m hm
    rw [le_iff_exists_roundUp? halignment hm, hup]
    simp only [Except.ok.injEq]
  · intro m hm
    rw [UInt64.le_iff_toNat_le, UInt64.le_iff_toNat_le, hrounds.le_iff _ hm]

/-- The greatest alignment has two multiples among the words, zero and itself.  A value
before the second has both for its neighbours, one after it has only the second. -/
theorem roundings_neighbours_coarsest :
    IsPowerOfTwo 0x8000000000000000 ∧
      Neighbours 0x7fffffffffffffff 0x8000000000000000 (some 0x8000000000000000) 0 ∧
      Neighbours 0x8000000000000001 0x8000000000000000 none 0x8000000000000000 := by
  have hpower : IsPowerOfTwo 0x8000000000000000 := ⟨63, rfl⟩
  obtain ⟨up, down, hup, hdown, hbefore⟩ := roundings_neighbours hpower 0x7fffffffffffffff
  cases hup
  cases hdown
  obtain ⟨up, down, hup, hdown, hafter⟩ := roundings_neighbours hpower 0x8000000000000001
  cases hup
  cases hdown
  exact ⟨hpower, hbefore, hafter⟩

end RuntimeTargets.Alignment
