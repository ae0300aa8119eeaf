import RuntimeTargets.Target.Catalog
import RuntimeTargets.Proofs.Stack.Layout
import RuntimeTargets.Proofs.Stack.Resolution

/-!
# Targets that cannot reserve a part of the stack

On a target without support for it, a reserved zone can be asked for but never comes
about: the count is dropped when the guard is resolved, so that no zone is laid out for
it and no address is classified into one.  Asking for it has no effect but a warning.
-/

namespace RuntimeTargets

namespace StackRequest

variable {t : Target} {request : StackRequest}

theorem effective_eq (ht : t.reservesStack = false) (request : StackRequest) :
    request.effective t =
      { yellow := request.yellow.getD t.defaults.stackPages.yellow
        red := request.red.getD t.defaults.stackPages.red
        reserved := 0
        shadow := request.shadow.getD t.defaults.stackPages.shadow } := by
  have hreserved :
      (if request.DropsReserved t then 0 else request.wantedReserved t) = 0 := by
    split
    · rfl
    · rename_i hkept
      by_contra hwanted
      exact hkept ⟨by simp [ht], hwanted⟩
  rw [effective, hreserved]

theorem dropsReserved_iff (ht : t.reservesStack = false) (hsound : t.Sound) :
    request.DropsReserved t ↔ ∃ count, request.reserved = some count ∧ count ≠ 0 := by
  have hdefault := (hsound.laws.reserved.resolve_left (by simp [ht])).1
  unfold DropsReserved wantedReserved
  rw [hdefault]
  cases request.reserved <;> simp [ht]

end StackRequest

/-- The usable part follows the yellow zone, and no address is in a reserved one. -/
structure StackZones.Unreserved (z : StackZones) : Prop where
  reserved_eq : z.reserved = none
  usable_start : z.usable.start = z.yellow.stop
  classify_ne : ∀ address, z.classify address ≠ .reserved

theorem StackZones.unreserved_of_eq_none (z : StackZones) (h : z.reserved = none) :
    z.Unreserved where
  reserved_eq := h
  usable_start := by
    rw [usable, h]
    rfl
  classify_ne address := by
    rw [classify, h, Option.any_none, if_neg Bool.false_ne_true]
    split_ifs <;> exact StackRegion.noConfusion

namespace StackGuard

variable {t : Target} {request : StackRequest} {guard : StackGuard}
variable {failure : Failure StackError}

/-- No reserved zone comes from the guard, on any stack. -/
structure NeverReserves (guard : StackGuard) : Prop where
  not_hasReserved : ¬ guard.HasReserved
  unreserved : ∀ base size pageSize z, guard.zones base size pageSize = .ok z → z.Unreserved

theorem neverReserves_of_not_hasReserved (h : ¬ guard.HasReserved) : guard.NeverReserves := by
  refine ⟨h, ?_⟩
  intro base size pageSize z hz
  exact z.unreserved_of_eq_none ((admits_and_laysOut_of_zones hz).2.unreserved h)

theorem not_hasReserved_of_resolve (ht : t.reservesStack = false)
    (hguard : (resolve t request).value = .ok guard) : ¬ guard.HasReserved := by
  obtain ⟨rfl, -⟩ := ofPages_eq_ok_iff.1 hguard
  rw [StackRequest.effective_eq ht]
  exact not_not.2 rfl

theorem grants_reserved (ht : t.reservesStack = false) (hsound : t.Sound)
    (hfit : t.RangesFit) : Grants t (request.effective t) .reserved := by
  have hleast := (hsound.laws.reserved.resolve_left (by simp [ht])).2
  rw [StackRequest.effective_eq ht]
  refine ⟨hfit _, ?_, Nat.zero_le _⟩
  change t.defaults.minStackPages.reserved.toNat ≤ 0
  rw [hleast]
  rfl

/-- What fails is another zone, and what is wrong with it is its count. -/
theorem exists_pagesOutOfRange (ht : t.reservesStack = false) (hsound : t.Sound)
    (hfit : t.RangesFit) (hfailure : (resolve t request).value = .error failure) :
    ∃ zone value least most, zone ≠ .reserved ∧
      failure = .refusal (.pagesOutOfRange zone value least most) := by
  obtain ⟨zone, -, hcount⟩ := ofPages_eq_error_iff.1 hfailure
  obtain ⟨hgrants, most, -, rfl⟩ := (countFor_eq_error_iff (hfit zone)).1 hcount
  refine ⟨zone, _, _, most, ?_, rfl⟩
  rintro rfl
  exact hgrants (grants_reserved ht hsound hfit)

/-- On a target that cannot reserve a part of the stack, no guard has a reserved zone.
If it is sound, the count asked for is only ever ignored, with a warning where it is
not zero. -/
theorem resolve_of_not_reservesStack (ht : t.reservesStack = false) (request : StackRequest) :
    (∀ guard, (resolve t request).value = .ok guard → guard.NeverReserves) ∧
    (t.Sound → t.RangesFit →
      (∀ count, (resolve t { request with reserved := count }).value =
        (resolve t request).value) ∧
      (∀ failure, (resolve t request).value = .error failure →
        ∃ zone value least most, zone ≠ .reserved ∧
          failure = .refusal (.pagesOutOfRange zone value least most)) ∧
      ((∃ entry ∈ (resolve t request).journal, entry.severity = .warning) ↔
        ∃ count, request.reserved = some count ∧ count ≠ 0)) := by
  constructor
  · intro guard hguard
    exact neverReserves_of_not_hasReserved (not_hasReserved_of_resolve ht hguard)
  · intro hsound hfit
    refine ⟨?_, ?_, ?_⟩
    · intro count
      change ofPages t _ = ofPages t _
      rw [StackRequest.effective_eq ht, StackRequest.effective_eq ht]
    · intro failure hfailure
      exact exists_pagesOutOfRange ht hsound hfit hfailure
    · rw [exists_warning_iff, StackRequest.dropsReserved_iff ht hsound]

/-- What `mips64` would be without support for a reserved zone. -/
def unreservingTarget : Target :=
  { Target.mips64 with
    reservesStack := false
    defaults := { Target.mips64.defaults with stackPages := ⟨2, 1, 0, 20⟩ } }

/-- Three reserved pages are asked for, and then a yellow page too few besides. -/
theorem resolve_of_not_reservesStack_mips64 :
    unreservingTarget.reservesStack = false ∧ unreservingTarget.Sound ∧
      unreservingTarget.RangesFit ∧
      (resolve unreservingTarget { reserved := some 3 }).value = .ok ⟨⟨2, 1, 0, 20⟩⟩ ∧
      NeverReserves ⟨⟨2, 1, 0, 20⟩⟩ ∧
      (∃ entry ∈ (resolve unreservingTarget { reserved := some 3 }).journal,
        entry.severity = .warning) ∧
      (resolve unreservingTarget { yellow := some 1, reserved := some 3 }).value =
        (resolve unreservingTarget { yellow := some 1 }).value := by
  have hsound : unreservingTarget.Sound := by decide +kernel
  have hfit : unreservingTarget.RangesFit := by
    intro zone
    cases zone <;> decide
  have hguard : (resolve unreservingTarget { reserved := some 3 }).value =
      .ok ⟨⟨2, 1, 0, 20⟩⟩ := by decide
  obtain ⟨hnever, hignored⟩ :=
    resolve_of_not_reservesStack (t := unreservingTarget) rfl { reserved := some 3 }
  obtain ⟨-, -, hwarning⟩ := hignored hsound hfit
  obtain ⟨-, hignored'⟩ :=
    resolve_of_not_reservesStack (t := unreservingTarget) rfl { yellow := some 1 }
  exact ⟨rfl, hsound, hfit, hguard, hnever _ hguard, hwarning.2 ⟨3, rfl, by decide⟩,
    (hignored' hsound hfit).1 (some 3)⟩

end StackGuard

end RuntimeTargets
