import RuntimeTargets.Proofs.Alignment

/-!
# Two ways of rounding up

`roundUp` adds the whole alignment to a value before it takes one away, `roundUp?` adds
one less than the alignment from the start.  Whether a value is rounded hangs on whether
that sum is a word, so that the two part on a single value: the last multiple of the
alignment among the words is its own rounding, and `roundUp` comes to a fault there.
-/

namespace RuntimeTargets.Alignment

open Word (IsPowerOfTwo)

variable {value other alignment rounded rounded' : Word}

/-! ## The rounded value -/

theorem RoundsUp.isLeast (h : RoundsUp value alignment rounded) :
    IsLeast {n | alignment.toNat ∣ n ∧ value.toNat ≤ n} rounded.toNat := by
  constructor
  · exact ⟨h.dvd, (h.le_iff _ h.dvd).1 le_rfl⟩
  · rintro n ⟨hdvd, hle⟩
    exact (h.le_iff n hdvd).2 hle

theorem RoundsUp.unique (h : RoundsUp value alignment rounded)
    (h' : RoundsUp value alignment rounded') : rounded = rounded' :=
  UInt64.toNat_inj.1 (h.isLeast.unique h'.isLeast)

theorem RoundsUp.mono (h : RoundsUp value alignment rounded)
    (h' : RoundsUp other alignment rounded') (hle : value.toNat ≤ other.toNat) :
    rounded.toNat ≤ rounded'.toNat :=
  h.isLeast.2 ⟨h'.dvd, hle.trans h'.isLeast.1.2⟩

/-- One multiple less would still not be below the value. -/
theorem RoundsUp.lt_add (h : RoundsUp value alignment rounded)
    (hpos : 0 < alignment.toNat) : rounded.toNat < value.toNat + alignment.toNat := by
  by_contra hfar
  have hprevious : rounded.toNat ≤ rounded.toNat - alignment.toNat :=
    h.isLeast.2 ⟨Nat.dvd_sub h.dvd dvd_rfl, by omega⟩
  omega

/-! ## Where there is one -/

theorem exists_roundUp (halignment : IsPowerOfTwo alignment)
    (hfits : value.toNat + alignment.toNat < 2 ^ 64) :
    ∃ rounded, roundUp value alignment = .ok rounded ∧ RoundsUp value alignment rounded := by
  obtain ⟨mask, hmask, hsucc⟩ := exists_mask halignment
  obtain ⟨sum, hsum⟩ := Word.exists_toNat_eq hfits
  obtain ⟨raised, hraised⟩ :=
    Word.exists_toNat_eq (n := value.toNat + mask.toNat) (by omega)
  have hpred : Word.sub sum 1 = .ok raised := by
    rw [Word.sub_eq_ok_iff, hraised, hsum, ← hsucc]
    rfl
  refine ⟨clearBits raised mask, ?_, roundsUp_clearBits halignment hsucc hraised⟩
  rw [roundUp, Word.add_eq_ok_iff.2 hsum]
  change (Word.sub sum 1 >>= fun raised => Word.sub alignment 1 >>= fun mask =>
    pure (clearBits raised mask)) = _
  rw [hpred, hmask]
  rfl

theorem roundUp_of_le (hlarge : 2 ^ 64 ≤ value.toNat + alignment.toNat) :
    roundUp value alignment = .error .addition := by
  rw [roundUp, Word.add_eq_error_of_le hlarge]
  rfl

theorem roundUp_eq_ok_iff (halignment : IsPowerOfTwo alignment) :
    roundUp value alignment = .ok rounded ↔
      value.toNat + alignment.toNat < 2 ^ 64 ∧ RoundsUp value alignment rounded := by
  rcases Nat.lt_or_ge (value.toNat + alignment.toNat) (2 ^ 64) with hfits | hlarge
  · obtain ⟨least, hleast, hup⟩ := exists_roundUp halignment hfits
    rw [hleast, Except.ok.injEq, and_iff_right hfits]
    constructor
    · rintro rfl
      exact hup
    · exact hup.unique
  · rw [roundUp_of_le hlarge]
    exact iff_of_false (fun h => by cases h) (fun h => absurd h.1 (Nat.not_lt.2 hlarge))

theorem roundUp?_eq_some_iff (halignment : IsPowerOfTwo alignment) :
    roundUp? value alignment = .ok (some rounded) ↔ RoundsUp value alignment rounded := by
  rcases roundUp?_cases halignment value with ⟨least, hleast, hup⟩ | ⟨hnone, hend⟩
  · rw [hleast, Except.ok.injEq, Option.some.injEq]
    constructor
    · rintro rfl
      exact hup
    · exact hup.unique
  · rw [hnone]
    refine iff_of_false (fun h => by cases h) ?_
    intro hup
    exact absurd (hend _ hup.dvd hup.isLeast.1.2) (Nat.not_le.2 rounded.toNat_lt)

/-- The least multiple not below a value is a word exactly if the value is at least one
alignment away from the end of the words. -/
theorem exists_roundsUp_iff (halignment : IsPowerOfTwo alignment) :
    (∃ rounded, RoundsUp value alignment rounded) ↔
      value.toNat + alignment.toNat ≤ 2 ^ 64 := by
  have hpos := Nat.pos_of_isPowerOfTwo halignment
  constructor
  · rintro ⟨rounded, hup⟩
    by_contra hlarge
    have hle := hup.isLeast.1.2
    have hend := two_pow_le_of_dvd halignment hup.dvd (by omega)
    exact absurd hend (Nat.not_le.2 rounded.toNat_lt)
  · intro hfits
    rcases roundUp?_cases halignment value with ⟨least, -, hup⟩ | ⟨-, hend⟩
    · exact ⟨least, hup⟩
    -- the last multiple of the alignment that is a word would be one too many
    · have hlast := hend (2 ^ 64 - alignment.toNat)
        (Nat.dvd_sub (dvd_two_pow halignment) dvd_rfl) (by omega)
      omega

/-! ## Agreement -/

/-- One way of rounding up has a value exactly if the other has, and then both have the
least multiple of the alignment that is not below the value. -/
structure RoundsAlike (value alignment : Word) : Prop where
  exists_iff : (∃ rounded, roundUp value alignment = .ok rounded) ↔
    ∃ rounded, roundUp? value alignment = .ok (some rounded)
  isLeast : ∀ rounded, roundUp value alignment = .ok rounded →
    roundUp? value alignment = .ok (some rounded) ∧
      IsLeast {n | alignment.toNat ∣ n ∧ value.toNat ≤ n} rounded.toNat

theorem exists_roundUp_iff (halignment : IsPowerOfTwo alignment) :
    (∃ rounded, roundUp value alignment = .ok rounded) ↔
      value.toNat + alignment.toNat < 2 ^ 64 := by
  simp only [roundUp_eq_ok_iff halignment, exists_and_left]
  rw [exists_roundsUp_iff halignment, and_iff_left_iff_imp]
  exact Nat.le_of_lt

theorem exists_roundUp?_iff (halignment : IsPowerOfTwo alignment) :
    (∃ rounded, roundUp? value alignment = .ok (some rounded)) ↔
      value.toNat + alignment.toNat ≤ 2 ^ 64 := by
  simp only [roundUp?_eq_some_iff halignment]
  exact exists_roundsUp_iff halignment

/-- A value that ends the words together with its alignment is a multiple of it. -/
theorem roundsUp_self (halignment : IsPowerOfTwo alignment)
    (hends : value.toNat + alignment.toNat = 2 ^ 64) : RoundsUp value alignment value := by
  have hdvd : alignment.toNat ∣ value.toNat := by
    rw [← Nat.dvd_add_left dvd_rfl, hends]
    exact dvd_two_pow halignment
  exact ⟨hdvd, fun _ _ => Iff.rfl⟩

/-- The two ways of rounding up agree on every value but one, which is a multiple of the
alignment and is rounded to itself in one of them only. -/
theorem roundsAlike_iff (halignment : IsPowerOfTwo alignment) (value : Word) :
    (RoundsAlike value alignment ↔ value.toNat + alignment.toNat ≠ 2 ^ 64) ∧
    (value.toNat + alignment.toNat = 2 ^ 64 →
      roundUp value alignment = .error .addition ∧
        roundUp? value alignment = .ok (some value)) := by
  refine ⟨⟨?_, ?_⟩, ?_⟩
  · intro halike hends
    have hfits := halike.exists_iff.2 ((exists_roundUp?_iff halignment).2 hends.le)
    exact absurd hends ((exists_roundUp_iff halignment).1 hfits).ne
  · intro hends
    constructor
    · rw [exists_roundUp_iff halignment, exists_roundUp?_iff halignment]
      omega
    · intro rounded hrounded
      have hup := ((roundUp_eq_ok_iff halignment).1 hrounded).2
      exact ⟨(roundUp?_eq_some_iff halignment).2 hup, hup.isLeast⟩
  · intro hends
    exact ⟨roundUp_of_le hends.ge,
      (roundUp?_eq_some_iff halignment).2 (roundsUp_self halignment hends)⟩

/-- Four KiB before the end of the words, the last value on which the two agree and the
one after it, on which they do not. -/
theorem roundsAlike_iff_last :
    IsPowerOfTwo 0x1000 ∧ RoundsAlike 0xffffffffffffefff 0x1000 ∧
      roundUp 0xfffffffffffff000 0x1000 = .error .addition ∧
      roundUp? 0xfffffffffffff000 0x1000 = .ok (some 0xfffffffffffff000) := by
  have hpower : IsPowerOfTwo 0x1000 := ⟨12, rfl⟩
  obtain ⟨halike, -⟩ := roundsAlike_iff hpower 0xffffffffffffefff
  obtain ⟨-, hparts⟩ := roundsAlike_iff hpower 0xfffffffffffff000
  exact ⟨hpower, halike.2 (by decide), hparts (by decide)⟩

/-- Rounding up is not possible in both ways wherever it is in one. -/
theorem exists_not_roundsAlike :
    ¬ ∀ value alignment : Word, IsPowerOfTwo alignment → RoundsAlike value alignment := by
  intro hall
  have halike := hall 0xfffffffffffffff0 16 ⟨4, rfl⟩
  obtain ⟨rounded, hrounded⟩ := halike.exists_iff.2 ⟨0xfffffffffffffff0, rfl⟩
  cases hrounded

end RuntimeTargets.Alignment
