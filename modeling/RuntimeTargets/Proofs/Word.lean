import Mathlib
import RuntimeTargets.Word

/-!
# Words as naturals

Every operation on words is given by one equation between naturals, in which the
bound of a word is implicit: an operation has the value `c` exactly when `c`, read
as a natural, is the exact result.  Overflow is then never a case of its own, and
the rest of a proof is arithmetic that `omega` does.
-/

namespace RuntimeTargets

/-- A sequence succeeds exactly if each of its parts does. -/
theorem bind_eq_ok_iff {ε α β : Type} {x : Except ε α} {f : α → Except ε β} {b : β} :
    x >>= f = .ok b ↔ ∃ a, x = .ok a ∧ f a = .ok b := by
  cases x with
  | error reason => simp [bind, Except.bind]
  | ok a => simp [bind, Except.bind]

/-- A sequence fails where the first of its parts does. -/
theorem bind_eq_error_iff {ε α β : Type} {x : Except ε α} {f : α → Except ε β} {reason : ε} :
    x >>= f = .error reason ↔
      x = .error reason ∨ ∃ a, x = .ok a ∧ f a = .error reason := by
  cases x with
  | error cause => simp [bind, Except.bind]
  | ok a => simp [bind, Except.bind]

theorem refuse_inj {ε α : Type} {reason reason' : ε} :
    (refuse reason : Outcome ε α) = refuse reason' ↔ reason = reason' := by
  rw [refuse, refuse, Except.error.injEq, Failure.refusal.injEq]

/-! ## Arithmetic among other reasons to fail -/

@[simp]
theorem lift_ok_bind {ε α β : Type} (a : α) (f : α → Outcome ε β) :
    ((liftM (.ok a : Checked α) : Outcome ε α) >>= f) = f a := rfl

@[simp]
theorem lift_error_bind {ε α β : Type} (cause : ArithmeticFault) (f : α → Outcome ε β) :
    ((liftM (.error cause : Checked α) : Outcome ε α) >>= f) = .error (.fault cause) := rfl

/-- A computation comes to a value or to a reason why there is none. -/
def Settled {ε α : Type} (x : Outcome ε α) : Prop :=
  (∃ a, x = .ok a) ∨ ∃ reason, x = refuse reason

theorem settled_iff_forall_ne_fault {ε α : Type} {x : Outcome ε α} :
    Settled x ↔ ∀ cause, x ≠ .error (.fault cause) := by
  rcases x with (cause | reason) | a
  · refine iff_of_false ?_ fun h => h cause rfl
    rintro (⟨a, h⟩ | ⟨reason, h⟩) <;> cases h
  · exact iff_of_true (Or.inr ⟨reason, rfl⟩) fun cause h => by cases h
  · exact iff_of_true (Or.inl ⟨a, rfl⟩) fun cause h => by cases h

namespace Word

variable {a b c : Word}

/-! ## The words among the naturals -/

/-- The word that a natural is, where it is one. -/
def ofNat? (n : ℕ) : Option Word := if n < 2 ^ 64 then some (.ofNat n) else none

theorem exists_toNat_eq {n : ℕ} (h : n < 2 ^ 64) : ∃ a : Word, a.toNat = n :=
  ⟨.ofNat n, UInt64.toNat_ofNat_of_lt' h⟩

theorem ofNat?_eq_some_iff {n : ℕ} : ofNat? n = some a ↔ a.toNat = n := by
  have ha := a.toNat_lt
  unfold ofNat?
  split
  · rename_i hfits
    rw [Option.some.injEq, ← UInt64.toNat_inj, UInt64.toNat_ofNat_of_lt' hfits]
    exact eq_comm
  · rename_i hlarge
    constructor
    · intro h
      cases h
    · intro h
      omega

/-- A power of two among the words is at most the half of them. -/
theorem toNat_le_of_isPowerOfTwo (ha : IsPowerOfTwo a) : a.toNat ≤ 2 ^ 63 := by
  have hword := a.toNat_lt
  obtain ⟨k, hk⟩ := ha
  rw [hk] at hword ⊢
  have hlt : k < 64 := (Nat.pow_lt_pow_iff_right (by decide)).1 hword
  exact Nat.pow_le_pow_right (by decide) (Nat.le_of_lt_succ hlt)

/-! ## Sums and differences -/

theorem add?_eq_some_iff : add? a b = some c ↔ c.toNat = a.toNat + b.toNat := by
  have hc := c.toNat_lt
  unfold add?
  split
  · rename_i hfits
    rw [Option.some.injEq, ← UInt64.toNat_inj, UInt64.toNat_add,
      Nat.mod_eq_of_lt hfits]
    exact eq_comm
  · rename_i hlarge
    simp only [UInt64.size] at hlarge
    constructor
    · intro h
      cases h
    · intro h
      omega

theorem add?_eq_none_iff : add? a b = none ↔ 2 ^ 64 ≤ a.toNat + b.toNat := by
  simp [add?]

theorem add_eq_ok_iff : add a b = .ok c ↔ c.toNat = a.toNat + b.toNat := by
  rw [← add?_eq_some_iff]
  unfold add add?
  split <;> simp

theorem add_eq_error_of_le (h : 2 ^ 64 ≤ a.toNat + b.toNat) :
    add a b = .error .addition := by
  rw [add, if_neg]
  exact Nat.not_lt.2 h

theorem sub_eq_ok_iff : sub a b = .ok c ↔ c.toNat + b.toNat = a.toNat := by
  have ha := a.toNat_lt
  unfold sub
  split
  · rename_i hle
    rw [Except.ok.injEq, ← UInt64.toNat_inj, UInt64.toNat_sub_of_le _ _ hle]
    omega
  · constructor
    · intro h
      cases h
    · intro h
      omega

theorem toNat_addSaturating (a b : Word) :
    (addSaturating a b).toNat = min (a.toNat + b.toNat) (2 ^ 64 - 1) := by
  unfold addSaturating
  cases hsum : add? a b with
  | none =>
      have hlarge := add?_eq_none_iff.1 hsum
      have hgreatest : greatest.toNat = 2 ^ 64 - 1 := rfl
      rw [Option.getD_none, hgreatest]
      omega
  | some sum =>
      have hexact := add?_eq_some_iff.1 hsum
      have hbound := sum.toNat_lt
      rw [Option.getD_some]
      omega

/-! ## Products and remainders -/

theorem mul?_eq_ofNat? (a b : Word) : mul? a b = ofNat? (a.toNat * b.toNat) := by
  rw [mul?, ofNat?, UInt64.ofNat_mul, UInt64.ofNat_toNat, UInt64.ofNat_toNat]
  rfl

theorem mul_eq_ok_iff : mul a b = .ok c ↔ c.toNat = a.toNat * b.toNat := by
  rw [← ofNat?_eq_some_iff, ← mul?_eq_ofNat?]
  unfold mul mul?
  split <;> simp

theorem rem_eq_ok_of_pos (h : 0 < b.toNat) : rem a b = .ok (a % b) :=
  if_neg h.ne'

theorem mod_eq_zero_iff : a % b = 0 ↔ b.toNat ∣ a.toNat := by
  rw [← UInt64.toNat_inj, UInt64.toNat_mod, UInt64.toNat_zero, Nat.dvd_iff_mod_eq_zero]

/-! ## Shifts and masks -/

theorem toNat_shiftRight_of_lt (a : Word) {k : Word} (hk : k.toNat < 64) :
    (a >>> k).toNat = a.toNat / 2 ^ k.toNat := by
  rw [UInt64.toNat_shiftRight, Nat.mod_eq_of_lt hk, Nat.shiftRight_eq_div_pow]

theorem toNat_shiftLeft_of_lt {k : Word} (hk : k.toNat < 64)
    (hfits : a.toNat * 2 ^ k.toNat < 2 ^ 64) :
    (a <<< k).toNat = a.toNat * 2 ^ k.toNat := by
  rw [UInt64.toNat_shiftLeft, Nat.mod_eq_of_lt hk, Nat.shiftLeft_eq,
    Nat.mod_eq_of_lt hfits]

/-- The word before a power of two masks the remainder by that power. -/
theorem toNat_and_of_mask (a : Word) {mask : Word} {k : ℕ}
    (hmask : mask.toNat + 1 = 2 ^ k) : (a &&& mask).toNat = a.toNat % 2 ^ k := by
  have hpred : mask.toNat = 2 ^ k - 1 := by omega
  rw [UInt64.toNat_and, hpred, Nat.and_two_pow_sub_one_eq_mod]

end Word

end RuntimeTargets
