import Mathlib
import RuntimeTargets.Layout

/-!
# The greatest layout that can be had

Validation refuses a layout flag by flag, resolution gives up flags one after the
other, and neither refers to the other.  Both come down to what a target must offer
for each flag that is on.  In the order by flags, resolution is then the greatest
layout that validates and keeps to the request, and the layouts that validate are
those that resolution leaves alone.
-/

namespace RuntimeTargets

/-- A guarded result is an answer exactly if the guard lets it pass. -/
theorem ite_error_eq_ok_iff {ε α : Type} {p : Prop} [Decidable p] {reason : ε}
    {x : Except ε α} {a : α} :
    (if p then .error reason else x) = .ok a ↔ ¬ p ∧ x = .ok a := by
  by_cases hp : p <;> simp [hp]

theorem getD_true_iff (flag : Option Bool) : flag.getD true = true ↔ flag ≠ some false := by
  rcases flag with _ | _ | _ <;> simp

namespace Layout

/-! ## The order by flags -/

/-- All that a layout says besides its flags. -/
def sizes (layout : Layout) : Word × Word × Word :=
  (layout.maxHeapSize, layout.classSpaceSize, layout.pageSize)

/-- A layout is below another of the same sizes that has on whatever it has on. -/
instance : PartialOrder Layout where
  le lower upper := lower.compressedOops ≤ upper.compressedOops ∧
    lower.compressedClassPointers ≤ upper.compressedClassPointers ∧
    lower.sizes = upper.sizes
  le_refl layout := ⟨le_rfl, le_rfl, rfl⟩
  le_trans _ _ _ hlower hupper :=
    ⟨hlower.1.trans hupper.1, hlower.2.1.trans hupper.2.1,
      hlower.2.2.trans hupper.2.2⟩
  le_antisymm lower upper hle hge := by
    have hoops := le_antisymm hle.1 hge.1
    have hclass := le_antisymm hle.2.1 hge.2.1
    have hsizes := hle.2.2
    cases lower
    cases upper
    simp_all [sizes]

end Layout

namespace LayoutRequest

def sizes (request : LayoutRequest) : Word × Word × Word :=
  (request.maxHeapSize, request.classSpaceSize, request.pageSize)

/-- The layout has the sizes of the request and leaves off what the request does. -/
structure Allows (request : LayoutRequest) (layout : Layout) : Prop where
  sizes_eq : layout.sizes = request.sizes
  oops_off : request.compressedOops = some false → layout.compressedOops = false
  classPointers_off : request.compressedClassPointers = some false →
    layout.compressedClassPointers = false

/-- The layouts among which a request leaves the choice on a target. -/
def choices (request : LayoutRequest) (t : Target) : Set Layout :=
  {layout | request.Allows layout ∧ layout.validate t = .ok ()}

/-- The request with each flag turned on that was not given. -/
def insisting (request : LayoutRequest) : LayoutRequest :=
  { request with
    compressedOops := some (request.compressedOops.getD true)
    compressedClassPointers := some (request.compressedClassPointers.getD true) }

variable {request : LayoutRequest} {layout other : Layout}

theorem sizes_eq_iff : layout.sizes = request.sizes ↔
    layout.maxHeapSize = request.maxHeapSize ∧
      layout.classSpaceSize = request.classSpaceSize ∧
      layout.pageSize = request.pageSize := by
  simp only [sizes, Layout.sizes, Prod.mk.injEq]

theorem allows_insisting_iff : request.insisting.Allows layout ↔ request.Allows layout := by
  have hoff : ∀ flag : Option Bool, some (flag.getD true) = some false ↔
      flag = some false := by
    decide
  constructor
  · rintro ⟨hsizes, hoops, hclass⟩
    exact ⟨hsizes, fun h => hoops ((hoff _).2 h), fun h => hclass ((hoff _).2 h)⟩
  · rintro ⟨hsizes, hoops, hclass⟩
    exact ⟨hsizes, fun h => hoops ((hoff _).1 h), fun h => hclass ((hoff _).1 h)⟩

theorem allows_ofLayout_iff : (ofLayout layout).Allows other ↔ other ≤ layout := by
  have hflag : ∀ upper lower : Bool,
      (some upper = some false → lower = false) ↔ lower ≤ upper := by
    decide
  constructor
  · rintro ⟨hsizes, hoops, hclass⟩
    exact ⟨(hflag _ _).1 hoops, (hflag _ _).1 hclass, hsizes⟩
  · rintro ⟨hoops, hclass, hsizes⟩
    exact ⟨hsizes, (hflag _ _).2 hoops, (hflag _ _).2 hclass⟩

end LayoutRequest

namespace Layout

variable {t : Target} {request : LayoutRequest} {layout : Layout}

/-! ## What a flag needs -/

/-- Each flag that is on has what it needs on the target. -/
structure Supported (layout : Layout) (t : Target) : Prop where
  oops : layout.compressedOops = true →
    ¬ IsNarrow t ∧ layout.maxHeapSize ≤ maxHeap layout.pageSize
  classPointers : layout.compressedClassPointers = true →
    ¬ IsNarrow t ∧ (t.classPointersNeedOops = true → layout.compressedOops = true) ∧
      layout.classSpaceSize ≤ ClassSpace.zeroBasedLimit

theorem validate_eq_ok_iff : layout.validate t = .ok () ↔ layout.Supported t := by
  simp only [validate, ite_error_eq_ok_iff]
  constructor
  · rintro ⟨hnarrow, hheap, hneeds, hspace, -⟩
    constructor
    · intro hoops
      refine ⟨fun h => hnarrow ⟨h, Or.inl hoops⟩, ?_⟩
      exact UInt64.not_lt.1 fun h => hheap ⟨hoops, h⟩
    · intro hclass
      refine ⟨fun h => hnarrow ⟨h, Or.inr hclass⟩, ?_, ?_⟩
      · intro h
        by_contra hoops
        exact hneeds ⟨hclass, h, hoops⟩
      · exact UInt64.not_lt.1 fun h => hspace ⟨hclass, h⟩
  · rintro ⟨hoops, hclass⟩
    refine ⟨?_, ?_, ?_, ?_, trivial⟩
    · rintro ⟨hnarrow, h | h⟩
      · exact (hoops h).1 hnarrow
      · exact (hclass h).1 hnarrow
    · rintro ⟨h, hheap⟩
      exact UInt64.not_lt.2 (hoops h).2 hheap
    · rintro ⟨h, hneeds, hoff⟩
      exact hoff ((hclass h).2.1 hneeds)
    · rintro ⟨h, hspace⟩
      exact UInt64.not_lt.2 (hclass h).2.2 hspace

/-! ## What resolution decides -/

theorem value_settleOops : (settleOops t request).value = true ↔
    request.maxHeapSize ≤ maxHeap request.pageSize ∧
      request.compressedOops ≠ some false := by
  unfold settleOops
  split
  · rename_i hheap
    simp only [getD_true_iff, hheap, true_and]
  · rename_i hheap
    simp only [hheap, Bool.false_eq_true, false_and]

theorem value_settleClassPointers (oops : Bool) :
    (settleClassPointers t request oops).value = true ↔
      (t.classPointersNeedOops = true → oops = true) ∧
        request.classSpaceSize ≤ ClassSpace.zeroBasedLimit ∧
        request.compressedClassPointers ≠ some false := by
  unfold settleClassPointers
  split
  · rename_i hlost
    simp [hlost.1, hlost.2]
  -- the dependency is met, so the request and the size decide
  · rename_i hfree
    have hneeds : t.classPointersNeedOops = true → oops = true := by
      intro hneeds
      by_contra hoff
      exact hfree ⟨hneeds, hoff⟩
    rw [← getD_true_iff, ← UInt64.not_lt]
    dsimp only
    split
    · rename_i hlarge
      simp [hlarge.2]
    · rename_i hfits
      constructor
      · intro hwanted
        exact ⟨hneeds, fun hlarge => hfits ⟨hwanted, hlarge⟩, hwanted⟩
      · rintro ⟨-, -, hwanted⟩
        exact hwanted

theorem sizes_resolve : (resolve t request).value.sizes = request.sizes := by
  unfold resolve
  split <;> rfl

theorem compressedOops_resolve : (resolve t request).value.compressedOops = true ↔
    ¬ IsNarrow t ∧ request.maxHeapSize ≤ maxHeap request.pageSize ∧
      request.compressedOops ≠ some false := by
  unfold resolve
  split
  · rename_i hnarrow
    simp [hnarrow]
  · rename_i hwide
    simp only [value_settleOops, hwide, not_false_eq_true, true_and]

theorem compressedClassPointers_resolve :
    (resolve t request).value.compressedClassPointers = true ↔
      ¬ IsNarrow t ∧
        (t.classPointersNeedOops = true →
          (resolve t request).value.compressedOops = true) ∧
        request.classSpaceSize ≤ ClassSpace.zeroBasedLimit ∧
        request.compressedClassPointers ≠ some false := by
  unfold resolve
  split
  · rename_i hnarrow
    simp [hnarrow]
  · rename_i hwide
    simp only [value_settleClassPointers, hwide, not_false_eq_true, true_and]

theorem supported_resolve : (resolve t request).value.Supported t := by
  obtain ⟨hheap, hspace, hpage⟩ :=
    LayoutRequest.sizes_eq_iff.1 (sizes_resolve : _ = request.sizes)
  constructor
  · intro hoops
    rw [hheap, hpage]
    obtain ⟨hwide, hfits, -⟩ := compressedOops_resolve.1 hoops
    exact ⟨hwide, hfits⟩
  · intro hclass
    rw [hspace]
    obtain ⟨hwide, hneeds, hfits, -⟩ := compressedClassPointers_resolve.1 hclass
    exact ⟨hwide, hneeds, hfits⟩

theorem allows_resolve : request.Allows (resolve t request).value where
  sizes_eq := sizes_resolve
  oops_off hoff := by
    apply Bool.eq_false_of_not_eq_true
    intro hoops
    exact (compressedOops_resolve.1 hoops).2.2 hoff
  classPointers_off hoff := by
    apply Bool.eq_false_of_not_eq_true
    intro hclass
    exact (compressedClassPointers_resolve.1 hclass).2.2.2 hoff

/-- A flag that some supported layout has on, and that was not ruled out, is on in
the result: the one for class pointers because the one it may need already is. -/
theorem le_resolve (hallows : request.Allows layout) (hsupported : layout.Supported t) :
    layout ≤ (resolve t request).value := by
  obtain ⟨hheap, hspace, hpage⟩ := LayoutRequest.sizes_eq_iff.1 hallows.sizes_eq
  have hoops : layout.compressedOops = true →
      (resolve t request).value.compressedOops = true := by
    intro hon
    obtain ⟨hwide, hfits⟩ := hsupported.oops hon
    rw [hheap, hpage] at hfits
    apply compressedOops_resolve.2
    refine ⟨hwide, hfits, ?_⟩
    intro hoff
    simp [hallows.oops_off hoff] at hon
  have hclass : layout.compressedClassPointers = true →
      (resolve t request).value.compressedClassPointers = true := by
    intro hon
    obtain ⟨hwide, hneeds, hfits⟩ := hsupported.classPointers hon
    rw [hspace] at hfits
    apply compressedClassPointers_resolve.2
    refine ⟨hwide, fun h => hoops (hneeds h), hfits, ?_⟩
    intro hoff
    simp [hallows.classPointers_off hoff] at hon
  exact ⟨Bool.le_iff_imp.2 hoops, Bool.le_iff_imp.2 hclass,
    hallows.sizes_eq.trans sizes_resolve.symm⟩

/-! ## Both together -/

theorem isGreatest_resolve (t : Target) (request : LayoutRequest) :
    IsGreatest (request.choices t) (resolve t request).value := by
  constructor
  · exact ⟨allows_resolve, validate_eq_ok_iff.2 supported_resolve⟩
  · rintro layout ⟨hallows, hvalid⟩
    exact le_resolve hallows (validate_eq_ok_iff.1 hvalid)

/-- A request that leaves the same choices comes to the same layout. -/
theorem value_resolve_congr {left right : LayoutRequest}
    (hsame : ∀ layout, left.Allows layout ↔ right.Allows layout) :
    (resolve t left).value = (resolve t right).value := by
  have hchoices : left.choices t = right.choices t := by
    ext layout
    exact and_congr_left' (hsame layout)
  exact (isGreatest_resolve t left).unique (hchoices ▸ isGreatest_resolve t right)

theorem resolve_ofLayout_iff :
    (resolve t (.ofLayout layout)).value = layout ↔ layout.validate t = .ok () := by
  constructor
  · intro hfixed
    rw [← hfixed]
    exact validate_eq_ok_iff.2 supported_resolve
  · intro hvalid
    apply le_antisymm
    · exact LayoutRequest.allows_ofLayout_iff.1 allows_resolve
    · exact le_resolve (LayoutRequest.allows_ofLayout_iff.2 le_rfl)
        (validate_eq_ok_iff.1 hvalid)

/-- Resolution takes the greatest layout that validates and keeps to the request, so
that a flag left open and a flag asked for come to the same, and the layouts that
validate are exactly those that it returns when asked for them. -/
theorem resolve_isGreatest_and_fixes_valid (t : Target) :
    (∀ request : LayoutRequest,
      IsGreatest (request.choices t) (resolve t request).value ∧
      (resolve t request.insisting).value = (resolve t request).value) ∧
    ∀ layout : Layout, layout.validate t = .ok () ↔
      (resolve t (.ofLayout layout)).value = layout := by
  constructor
  · intro request
    exact ⟨isGreatest_resolve t request,
      value_resolve_congr fun _ => LayoutRequest.allows_insisting_iff⟩
  · intro layout
    exact resolve_ofLayout_iff.symm

end Layout

end RuntimeTargets
