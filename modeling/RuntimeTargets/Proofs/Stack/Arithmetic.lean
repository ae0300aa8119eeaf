import RuntimeTargets.Target.Catalog
import RuntimeTargets.Proofs.Stack.Layout
import RuntimeTargets.Proofs.Stack.Resolution

/-!
# Page counts that leave the words

The sizes of the zones are calculated with care for their bounds, but two sums of page
counts are not: the end of a range, when a guard is resolved, and the pages of the guard
zones together, whenever a size is asked for.  The laws of a target put no bound on its
counts, so a sound target can be out of reach of both.  The supported targets are not.
-/

namespace RuntimeTargets.StackGuard

variable {t : Target} {request : StackRequest} {guard : StackGuard}

/-- Every size is exact, or none where it is no word, and every stack gets its zones or
a reason why not. -/
structure Calculable (guard : StackGuard) : Prop where
  guardBytes : ∀ pageSize, guard.guardBytes? pageSize = .ok (Word.ofNat?
    ((guard.pages.red.toNat + guard.pages.yellow.toNat + guard.pages.reserved.toNat) *
      pageSize.toNat))
  shadowBytes : ∀ pageSize, guard.shadowBytes? pageSize =
    Word.ofNat? (guard.pages.shadow.toNat * pageSize.toNat)
  zones : ∀ base size pageSize, Settled (guard.zones base size pageSize)

theorem calculable_iff : guard.Calculable ↔ guard.guardedPages < 2 ^ 64 := by
  constructor
  · intro hcalculable
    by_contra hlarge
    have hfault := guardBytes?_of_le (Nat.le_of_not_lt hlarge) 0
    cases hfault.symm.trans (hcalculable.guardBytes 0)
  · intro hpages
    refine ⟨guardBytes?_of_lt hpages, guard.shadowBytes?_eq, ?_⟩
    intro base size pageSize
    apply settled_iff_forall_ne_fault.2
    intro cause hcause
    exact absurd hpages (Nat.not_lt.2 (zones_fault_iff.1 ⟨cause, hcause⟩).2)

/-- A request is resolved or refused, and what it resolves to can be calculated with. -/
structure Answers (t : Target) (request : StackRequest) : Prop where
  settled : Settled (resolve t request).value
  calculable : ∀ guard, (resolve t request).value = .ok guard → guard.Calculable

theorem settled_resolve_iff : Settled (resolve t request).value ↔
    ∀ zone, (∀ other ∈ zone.earlier, Grants t (request.effective t) other) →
      t.mostPages zone < 2 ^ 64 := by
  rw [settled_iff_forall_ne_fault]
  constructor
  · intro hsettled zone hearlier
    by_contra hlarge
    have hfault := countFor_of_mostPages_le (request.effective t) (Nat.le_of_not_lt hlarge)
    exact hsettled _ (ofPages_eq_error_iff.2 ⟨zone, hearlier, hfault⟩)
  · intro hbounded cause hcause
    obtain ⟨zone, hearlier, hfault⟩ := ofPages_eq_error_iff.1 hcause
    have hlarge := countFor_fault_iff.1 ⟨cause, hfault⟩
    exact absurd (hbounded zone hearlier) (Nat.not_lt.2 hlarge)

/-- A request is answered without a fault exactly if no range is reached that leaves the
words, and the counts, should all of them be granted, have a sum. -/
theorem answers_iff (t : Target) (request : StackRequest) : Answers t request ↔
    (∀ zone, (∀ other ∈ zone.earlier, Grants t (request.effective t) other) →
      t.mostPages zone < 2 ^ 64) ∧
    ((∀ zone, Grants t (request.effective t) zone) →
      guardedPages ⟨request.effective t⟩ < 2 ^ 64) := by
  rw [← settled_resolve_iff]
  constructor
  · rintro ⟨hsettled, hcalculable⟩
    refine ⟨hsettled, ?_⟩
    intro hgrants
    exact calculable_iff.1 (hcalculable _ (ofPages_eq_ok_iff.2 ⟨rfl, hgrants⟩))
  · rintro ⟨hsettled, hpages⟩
    refine ⟨hsettled, ?_⟩
    intro guard hguard
    obtain ⟨rfl, hgrants⟩ := ofPages_eq_ok_iff.1 hguard
    exact calculable_iff.2 (hpages hgrants)

/-- What `mips64` would be with half of all words as its yellow and as its red count. -/
def crowdedTarget : Target :=
  { Target.mips64 with
    defaults := { Target.mips64.defaults with
      stackPages := ⟨0x8000000000000000, 0x8000000000000000, 1, 20⟩ } }

/-- Its default guard is granted and has no number of bytes.  With the greatest word as
its yellow count it would not even be resolved. -/
theorem exists_sound_target_not_answering :
    ¬ ∀ t : Target, t.Sound → ∀ request, Answers t request := by
  intro hall
  have hanswers := hall crowdedTarget (by decide +kernel) {}
  have hcalculable := hanswers.calculable
    ⟨⟨0x8000000000000000, 0x8000000000000000, 1, 20⟩⟩ (by decide)
  have hfault : guardBytes? ⟨⟨0x8000000000000000, 0x8000000000000000, 1, 20⟩⟩ 1 =
      .error .addition := by decide
  cases hfault.symm.trans (hcalculable.guardBytes 1)

/-! ## The supported targets -/

theorem guardedPages_le_of_resolve (hguard : (resolve t request).value = .ok guard) :
    guard.guardedPages ≤ t.mostPages .red + t.mostPages .yellow + t.mostPages .reserved := by
  obtain ⟨rfl, hgrants⟩ := ofPages_eq_ok_iff.1 hguard
  have hred := (hgrants .red).le_mostPages
  have hyellow := (hgrants .yellow).le_mostPages
  have hreserved := (hgrants .reserved).le_mostPages
  exact Nat.add_le_add (Nat.add_le_add hred hyellow) hreserved

theorem guardedPages_lt_of_mem_all (ht : t ∈ Target.all)
    (hguard : (resolve t request).value = .ok guard) : guard.guardedPages < 2 ^ 64 := by
  have hmost : ∀ t ∈ Target.all,
      t.mostPages .red + t.mostPages .yellow + t.mostPages .reserved < 2 ^ 64 := by
    decide
  exact (guardedPages_le_of_resolve hguard).trans_lt (hmost t ht)

end RuntimeTargets.StackGuard
