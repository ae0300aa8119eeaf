import RuntimeTargets.Target.Catalog
import RuntimeTargets.Proofs.Journal
import RuntimeTargets.Proofs.Layout.Resolution

/-!
# What a layout warns about

Resolution never refuses a request.  It gives up flags instead, in four places, and
some of them warn.  Seen from outside the warnings follow one rule: there is one
exactly if a flag that was asked for ended up off, or class pointers that nobody asked
about are off for no other reason than the size of the class space.  So a request that
is resolved without a warning has every flag as it was given.
-/

namespace RuntimeTargets

/-- The flags that a layout settles. -/
inductive LayoutFlag where
  | oops
  | classPointers
  deriving DecidableEq, Repr

theorem LayoutFlag.exists_iff {p : LayoutFlag → Prop} :
    (∃ flag, p flag) ↔ p .oops ∨ p .classPointers := by
  constructor
  · rintro ⟨_ | _, h⟩
    · exact Or.inl h
    · exact Or.inr h
  · rintro (h | h) <;> exact ⟨_, h⟩

/-- How a flag was given, if it was. -/
def LayoutRequest.setting (request : LayoutRequest) : LayoutFlag → Option Bool
  | .oops => request.compressedOops
  | .classPointers => request.compressedClassPointers

def Layout.isOn (layout : Layout) : LayoutFlag → Bool
  | .oops => layout.compressedOops
  | .classPointers => layout.compressedClassPointers

/-- The layout has every flag as it was given. -/
def LayoutRequest.HonouredBy (request : LayoutRequest) (layout : Layout) : Prop :=
  ∀ flag given, request.setting flag = some given → layout.isOn flag = given

namespace Layout

open Journal

variable {t : Target} {request : LayoutRequest}

/-- Class pointers are off although another size of the class space would have them
on. -/
def BlockedBySize (t : Target) (request : LayoutRequest) : Prop :=
  (resolve t request).value.compressedClassPointers = false ∧
    ∃ size, (resolve t { request with classSpaceSize := size }).value.compressedClassPointers =
      true

/-! ## Each flag -/

theorem warns_settleOops : (settleOops t request).journal.Warns ↔
    request.compressedOops = some true ∧ (settleOops t request).value = false := by
  unfold settleOops
  split
  -- where the heap fits, a flag that was asked for is on
  · refine iff_of_false not_warns_nil ?_
    rintro ⟨hasked, hoff⟩
    simp [hasked] at hoff
  · rw [warns_ite rfl, and_iff_left rfl]

theorem warns_settleClassPointers (oops : Bool) :
    (settleClassPointers t request oops).journal.Warns ↔
      request.compressedClassPointers = some true ∧
          (settleClassPointers t request oops).value = false ∨
        request.compressedClassPointers = none ∧
          (t.classPointersNeedOops = true → oops = true) ∧
            ClassSpace.zeroBasedLimit < request.classSpaceSize := by
  unfold settleClassPointers
  split
  · rename_i hlost
    have hneeds : ¬ (t.classPointersNeedOops = true → oops = true) :=
      fun hneeds => hlost.2 (hneeds hlost.1)
    rw [warns_ite rfl]
    simp only [hneeds, false_and, and_false, or_false, and_true]
  -- the dependency is met, so there is a warning for any flag that is wanted in vain
  · rename_i hfree
    have hneeds : t.classPointersNeedOops = true → oops = true := by
      intro hneeds
      by_contra hoff
      exact hfree ⟨hneeds, hoff⟩
    dsimp only
    split
    · rename_i hlarge
      have hgiven := (getD_true_iff _).1 hlarge.1
      refine iff_of_true (warns_singleton.2 rfl) ?_
      rcases hflag : request.compressedClassPointers with _ | _ | _
      · exact Or.inr ⟨rfl, hneeds, hlarge.2⟩
      · exact absurd hflag hgiven
      · exact Or.inl ⟨rfl, rfl⟩
    · rename_i hfits
      refine iff_of_false not_warns_nil ?_
      rintro (⟨hasked, hoff⟩ | ⟨hopen, -, hlarge⟩)
      · simp [hasked] at hoff
      · exact hfits ⟨by rw [hopen]; rfl, hlarge⟩

/-! ## All flags -/

theorem isOn_resolve_of_isNarrow (hnarrow : IsNarrow t) (flag : LayoutFlag) :
    (resolve t request).value.isOn flag = false := by
  rw [resolve, if_pos hnarrow]
  cases flag <;> rfl

theorem warns_resolve_of_isNarrow (hnarrow : IsNarrow t) :
    (resolve t request).journal.Warns ↔ ∃ flag, request.setting flag = some true := by
  rw [resolve, if_pos hnarrow, LayoutFlag.exists_iff]
  exact warns_ite rfl

/-- The last entry only says what was settled. -/
theorem warns_resolve_of_not_isNarrow (hwide : ¬ IsNarrow t) :
    (resolve t request).journal.Warns ↔ (settleOops t request).journal.Warns ∨
      (settleClassPointers t request (settleOops t request).value).journal.Warns := by
  have hresolved : ∀ layout, ¬ Warns [resolvedEntry t layout] := by
    intro layout hwarns
    cases warns_singleton.1 hwarns
  rw [resolve, if_neg hwide]
  simp only [warns_append, hresolved, or_false]

/-- The size is to blame exactly where nothing else keeps class pointers off. -/
theorem blockedBySize_iff : BlockedBySize t request ↔
    ¬ IsNarrow t ∧
      (t.classPointersNeedOops = true → (resolve t request).value.compressedOops = true) ∧
        ClassSpace.zeroBasedLimit < request.classSpaceSize ∧
          request.compressedClassPointers ≠ some false := by
  have hoops : ∀ size, (resolve t { request with classSpaceSize := size }).value.compressedOops =
      (resolve t request).value.compressedOops := by
    intro size
    rw [Bool.eq_iff_iff, compressedOops_resolve, compressedOops_resolve]
  rw [BlockedBySize, ← Bool.not_eq_true, compressedClassPointers_resolve, ← UInt64.not_le]
  simp only [compressedClassPointers_resolve, hoops]
  constructor
  · rintro ⟨hoff, size, hwide, hneeds, -, hgiven⟩
    exact ⟨hwide, hneeds, fun hfits => hoff ⟨hwide, hneeds, hfits, hgiven⟩, hgiven⟩
  · rintro ⟨hwide, hneeds, hlarge, hgiven⟩
    exact ⟨fun hon => hlarge hon.2.2.1, 0, hwide, hneeds, UInt64.zero_le, hgiven⟩

theorem warns_resolve_iff : (resolve t request).journal.Warns ↔
    (∃ flag, request.setting flag = some true ∧
        (resolve t request).value.isOn flag = false) ∨
      request.setting .classPointers = none ∧ BlockedBySize t request := by
  by_cases hnarrow : IsNarrow t
  · simp only [warns_resolve_of_isNarrow hnarrow, isOn_resolve_of_isNarrow hnarrow,
      blockedBySize_iff, hnarrow, not_true_eq_false, false_and, and_false, and_true, or_false]
  · have hoops : (resolve t request).value.compressedOops = (settleOops t request).value := by
      rw [resolve, if_neg hnarrow]
    have hclass : (resolve t request).value.compressedClassPointers =
        (settleClassPointers t request (settleOops t request).value).value := by
      rw [resolve, if_neg hnarrow]
    rw [warns_resolve_of_not_isNarrow hnarrow, warns_settleOops, warns_settleClassPointers,
      LayoutFlag.exists_iff, blockedBySize_iff, or_assoc]
    simp only [LayoutRequest.setting, isOn, hoops, hclass, hnarrow, not_false_eq_true, true_and]
    refine or_congr_right (or_congr_right (and_congr_right fun hopen => ?_))
    simp only [hopen, ne_eq, reduceCtorEq, not_false_eq_true, and_true]

/-- A flag that is to be off is off. -/
theorem isOn_resolve_of_off {flag : LayoutFlag} (hoff : request.setting flag = some false) :
    (resolve t request).value.isOn flag = false := by
  cases flag with
  | oops => exact allows_resolve.oops_off hoff
  | classPointers => exact allows_resolve.classPointers_off hoff

/-- Nothing is given up in silence, and nothing is warned about but what was given up: a
request that is resolved without a warning has its flags, and there is a warning exactly
if a flag that was asked for is off, or class pointers that nobody gave are off because
of the size of the class space alone. -/
theorem resolve_honours_or_warns (t : Target) (request : LayoutRequest) :
    (¬ (resolve t request).journal.Warns → request.HonouredBy (resolve t request).value) ∧
    ((resolve t request).journal.Warns ↔
      (∃ flag, request.setting flag = some true ∧
          (resolve t request).value.isOn flag = false) ∨
        request.setting .classPointers = none ∧ BlockedBySize t request) := by
  refine ⟨?_, warns_resolve_iff⟩
  intro hsilent flag given hgiven
  cases given with
  | false => exact isOn_resolve_of_off hgiven
  | true =>
      rw [← Bool.not_eq_false]
      intro hoff
      exact hsilent (warns_resolve_iff.2 (Or.inl ⟨flag, hgiven, hoff⟩))

/-- A flag given as off is kept in silence, a class space of 33 GiB blocks class pointers
that nobody gave, and references asked for are given up for a heap of that size. -/
theorem resolve_honours_or_warns_mips64 :
    (¬ (resolve Target.mips64 { compressedOops := some false }).journal.Warns ∧
      (resolve Target.mips64 { compressedOops := some false }).value.isOn .oops = false) ∧
    (BlockedBySize Target.mips64 { classSpaceSize := 33 * gibibyte } ∧
      (resolve Target.mips64 { classSpaceSize := 33 * gibibyte }).journal.Warns) ∧
    (resolve Target.mips64
      { compressedOops := some true, maxHeapSize := 33 * gibibyte }).journal.Warns := by
  have hsilent : ¬ (resolve Target.mips64 { compressedOops := some false }).journal.Warns := by
    unfold Warns
    decide
  have hblocked : BlockedBySize Target.mips64 { classSpaceSize := 33 * gibibyte } :=
    ⟨by decide, gibibyte, by decide⟩
  refine ⟨⟨hsilent, ?_⟩, ⟨hblocked, ?_⟩, ?_⟩
  · exact (resolve_honours_or_warns _ _).1 hsilent .oops false rfl
  · exact (resolve_honours_or_warns _ _).2.2 (Or.inr ⟨rfl, hblocked⟩)
  · exact (resolve_honours_or_warns _ _).2.2 (Or.inl ⟨.oops, rfl, by decide⟩)

end Layout

end RuntimeTargets
