import RuntimeTargets.Proofs.ClassSpace.Placement
import RuntimeTargets.Proofs.Layout.Resolution

/-!
# Layouts whose class space can be placed

A layout with compressed class pointers needs a class space, and how large that may
be is said twice: a layout is validated against the largest size only, while an
encoding also refuses the empty space.  So of the layouts that validate, those with
an empty class space, and no others, have one that can never be placed.
-/

namespace RuntimeTargets.ClassSpace

variable {t : Target} {size : Word}

/-- A space of this size has an encoding wherever it ends inside the address space,
and is offered to every routine. -/
structure Placeable (t : Target) (size : Word) : Prop where
  encoded : ∀ address : Word, address.toNat + size.toNat < 2 ^ 64 →
    HasEncoding size address
  offered : ∀ {σ : Type} (reserve : Reserve σ) (state : σ),
    ∃ p, place t 0 size reserve state = .ok p ∧
      reserve.Answers state p.offers p.state ∧ p.offers ≠ []

/-- The start of the address space is a candidate, and any encodable space fits
there. -/
theorem exists_offer {σ : Type} (ht : t.Sound) (hsize : Encodable size)
    (reserve : Reserve σ) (state : σ) :
    ∃ p, place t 0 size reserve state = .ok p ∧
      reserve.Answers state p.offers p.state ∧ p.offers ≠ [] := by
  obtain ⟨c, p, hc, hp, hanswers, hconcludes⟩ := exists_place ht 0 hsize reserve state
  refine ⟨p, hp, hanswers, hconcludes.offers_ne_nil ?_⟩
  have hstart : HasEncoding size 0 :=
    hasEncoding_iff.2 ⟨hsize, by simpa using size.toNat_lt⟩
  apply List.ne_nil_of_mem
  exact List.mem_filter.2 ⟨Candidates.zero_mem_toList ht hc, decide_eq_true hstart⟩

theorem placeable_iff_encodable (ht : t.Sound) : Placeable t size ↔ Encodable size := by
  constructor
  · intro hplaceable
    have hstart : HasEncoding size 0 := hplaceable.encoded 0 (by simpa using size.toNat_lt)
    exact (hasEncoding_iff.1 hstart).1
  · intro hsize
    constructor
    · intro address hstop
      exact hasEncoding_iff.2 ⟨hsize, hstop⟩
    · intro σ reserve state
      exact exists_offer ht hsize reserve state

end RuntimeTargets.ClassSpace

namespace RuntimeTargets.Layout

open ClassSpace

variable {t : Target} {layout : Layout}

theorem encodable_iff_of_supported (hsupported : layout.Supported t)
    (hon : layout.compressedClassPointers = true) :
    Encodable layout.classSpaceSize ↔ layout.classSpaceSize ≠ 0 :=
  and_iff_left (hsupported.classPointers hon).2.2

/-- The class space of a layout that validates can be placed exactly if it is not
empty.  An empty one has no encoding anywhere and is offered to no routine. -/
theorem placeable_iff_of_validate (ht : t.Sound) (hvalid : layout.validate t = .ok ())
    (hon : layout.compressedClassPointers = true) :
    (Placeable t layout.classSpaceSize ↔ layout.classSpaceSize ≠ 0) ∧
    (layout.classSpaceSize = 0 →
      (∀ address, ¬ HasEncoding layout.classSpaceSize address) ∧
      ∀ {σ : Type} (reserve : Reserve σ) (state : σ),
        ∃ p, place t 0 layout.classSpaceSize reserve state = .ok p ∧
          p.offers = [] ∧ p.encoding = none) := by
  have hsize := encodable_iff_of_supported (validate_eq_ok_iff.1 hvalid) hon
  constructor
  · rw [placeable_iff_encodable ht, hsize]
  · intro hempty
    have hrefused : ¬ Encodable layout.classSpaceSize := fun h => hsize.1 h hempty
    constructor
    · intro address hencoding
      exact hrefused (hasEncoding_iff.1 hencoding).1
    · intro σ reserve state
      exact ⟨_, place_of_not_encodable hrefused, rfl, rfl⟩

/-- The layout that nobody asked for anything in, and the same with an empty class
space. -/
theorem placeable_iff_of_validate_default :
    (resolve Target.mips64 {}).value.validate Target.mips64 = .ok () ∧
      Placeable Target.mips64 gibibyte ∧
      (resolve Target.mips64 { classSpaceSize := 0 }).value.validate Target.mips64 = .ok () ∧
      ¬ Placeable Target.mips64 0 := by
  have hsound : Target.mips64.Sound := Target.sound_of_mem_all _ (by simp [Target.all])
  have hdefault : (resolve Target.mips64 {}).value.validate Target.mips64 = .ok () := by
    decide
  have hempty : (resolve Target.mips64 { classSpaceSize := 0 }).value.validate
      Target.mips64 = .ok () := by
    decide
  refine ⟨hdefault, ?_, hempty, ?_⟩
  · exact (placeable_iff_of_validate hsound hdefault (by decide)).1.2 (by decide)
  · intro hplaceable
    exact (placeable_iff_of_validate hsound hempty (by decide)).1.1 hplaceable rfl

/-- Resolution leaves class pointers compressed where the class space is empty. -/
theorem exists_valid_layout_not_placeable :
    ¬ ∀ (t : Target) (layout : Layout), t.Sound → layout.validate t = .ok () →
      layout.compressedClassPointers = true → Placeable t layout.classSpaceSize := by
  intro hall
  have hplaceable := hall Target.mips64
    (resolve Target.mips64 { classSpaceSize := 0 }).value
    (Target.sound_of_mem_all _ (by simp [Target.all])) (by decide) (by decide)
  obtain ⟨e, he⟩ := hplaceable.encoded 0 (by decide)
  have hnone : ClassEncoding.ofSpace 0 0 = .ok none := by decide
  exact absurd (hnone.symm.trans he) (by simp)

end RuntimeTargets.Layout
