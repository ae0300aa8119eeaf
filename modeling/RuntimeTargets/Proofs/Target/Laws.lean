import RuntimeTargets.Target.Laws
import RuntimeTargets.Proofs.Word

/-!
# What soundness gives

`Target.check` is a sequence of guards, one for each kind of defect, so a target is sound
exactly if the law of each defect holds, and a target that is not sound is refused for the
first law that it breaks.  Two of the guards take a remainder first; the divisor is not
zero there because of a guard before them.
-/

namespace RuntimeTargets

open Word (IsPowerOfTwo)

variable {t : Target}

theorem GuardPages.eq_of_count {pages other : GuardPages}
    (h : ∀ zone, pages.count zone = other.count zone) : pages = other := by
  obtain ⟨yellow, red, reserved, shadow⟩ := pages
  obtain ⟨yellow', red', reserved', shadow'⟩ := other
  rw [GuardPages.mk.injEq]
  exact ⟨h .yellow, h .red, h .reserved, h .shadow⟩

theorem GuardPages.not_below_iff {pages least : GuardPages} :
    ¬ pages.Below least ↔ ∀ zone, (least.count zone).toNat ≤ (pages.count zone).toNat := by
  simp only [Below, not_or, UInt64.not_lt, UInt64.le_iff_toNat_le]
  constructor
  · rintro ⟨hyellow, hred, hreserved, hshadow⟩ zone
    cases zone <;> assumption
  · intro hall
    exact ⟨hall .yellow, hall .red, hall .reserved, hall .shadow⟩

/-! ## The law of each defect -/

namespace TargetDefect

/-- What the message of a defect asks of a target. -/
def Law (t : Target) : TargetDefect → Prop
  | .wordSize => t.wordSize.toNat = 4 ∨ t.wordSize.toNat = 8
  | .instructionSize => IsPowerOfTwo t.instructionSize ∧ t.instructionSize.toNat ≤ 8
  | .stackAlignmentTooSmall =>
    IsPowerOfTwo t.stackAlignment ∧ t.wordSize.toNat ≤ t.stackAlignment.toNat
  | .stackAlignmentNotWordMultiple => t.wordSize.toNat ∣ t.stackAlignment.toNat
  | .classSpaceAlignment => ∀ alignment, t.classSpaceAlignment = some alignment →
    IsPowerOfTwo alignment
  | .codeAlignment => IsPowerOfTwo t.defaults.entryAlignment ∧
    IsPowerOfTwo t.defaults.loopAlignment ∧ IsPowerOfTwo t.defaults.segmentSize
  | .loopAlignmentExceedsEntry =>
    t.defaults.loopAlignment.toNat ≤ t.defaults.entryAlignment.toNat
  | .entryAlignmentNotInstructionMultiple =>
    t.instructionSize.toNat ∣ t.defaults.entryAlignment.toNat
  | .stackPagesBelowMinimum => ∀ zone,
    (t.defaults.minStackPages.count zone).toNat ≤ (t.defaults.stackPages.count zone).toNat
  | .reservedPagesWithoutSupport => t.reservesStack = false →
    t.defaults.stackPages.reserved.toNat = 0 ∧ t.defaults.minStackPages.reserved.toNat = 0

/-- All defects, in the order in which a target is tested for them. -/
def inOrder : List TargetDefect :=
  [.wordSize, .instructionSize, .stackAlignmentNotWordMultiple, .stackAlignmentTooSmall,
    .classSpaceAlignment, .codeAlignment, .loopAlignmentExceedsEntry,
    .entryAlignmentNotInstructionMultiple, .stackPagesBelowMinimum,
    .reservedPagesWithoutSupport]

/-- The defects that are tested for before a defect. -/
def earlier (defect : TargetDefect) : List TargetDefect := inOrder.takeWhile (· ≠ defect)

theorem mem_inOrder (defect : TargetDefect) : defect ∈ inOrder := by
  cases defect <;> decide

theorem all_isPowerOfTwo_iff {alignment : Option Word} :
    (alignment.all fun a => IsPowerOfTwo a) ↔ ∀ a, alignment = some a → IsPowerOfTwo a := by
  cases alignment with
  | none => exact iff_of_true rfl fun a h => by cases h
  | some a => simp

instance (t : Target) : DecidablePred (Law t)
  | .wordSize => inferInstanceAs (Decidable (_ ∨ _))
  | .instructionSize => inferInstanceAs (Decidable (_ ∧ _))
  | .stackAlignmentTooSmall => inferInstanceAs (Decidable (_ ∧ _))
  | .stackAlignmentNotWordMultiple => inferInstanceAs (Decidable (_ ∣ _))
  | .classSpaceAlignment => decidable_of_iff _ all_isPowerOfTwo_iff
  | .codeAlignment => inferInstanceAs (Decidable (_ ∧ _ ∧ _))
  | .loopAlignmentExceedsEntry => inferInstanceAs (Decidable (_ ≤ _))
  | .entryAlignmentNotInstructionMultiple => inferInstanceAs (Decidable (_ ∣ _))
  | .stackPagesBelowMinimum => decidable_of_iff _ GuardPages.not_below_iff
  | .reservedPagesWithoutSupport => inferInstanceAs (Decidable (_ → _ ∧ _))

/-! ## The first broken law -/

variable {laws : TargetDefect → Prop} {defect first : TargetDefect}
variable {defects : List TargetDefect}

/-- A defect is one of some, its law is broken, and the laws of those before it hold. -/
structure FirstBroken (laws : TargetDefect → Prop) (defects : List TargetDefect)
    (defect : TargetDefect) : Prop where
  mem : defect ∈ defects
  not_law : ¬ laws defect
  earlier : ∀ other ∈ defects.takeWhile (· ≠ defect), laws other

theorem takeWhile_ne_cons (hne : first ≠ defect) :
    (first :: defects).takeWhile (· ≠ defect) = first :: defects.takeWhile (· ≠ defect) :=
  List.takeWhile_cons_of_pos (decide_eq_true hne)

theorem firstBroken_cons_of_law (hlaw : laws first) :
    FirstBroken laws (first :: defects) defect ↔ FirstBroken laws defects defect := by
  constructor
  · intro h
    have hne : first ≠ defect := fun heq => h.not_law (heq ▸ hlaw)
    have hothers := h.earlier
    rw [takeWhile_ne_cons hne, List.forall_mem_cons] at hothers
    exact ⟨(List.mem_cons.1 h.mem).resolve_left hne.symm, h.not_law, hothers.2⟩
  · intro h
    have hne : first ≠ defect := fun heq => h.not_law (heq ▸ hlaw)
    refine ⟨List.mem_cons_of_mem _ h.mem, h.not_law, ?_⟩
    rw [takeWhile_ne_cons hne, List.forall_mem_cons]
    exact ⟨hlaw, h.earlier⟩

theorem firstBroken_cons_of_not_law (hlaw : ¬ laws first) :
    FirstBroken laws (first :: defects) defect ↔ defect = first := by
  constructor
  · intro h
    by_contra hne
    have hothers := h.earlier
    rw [takeWhile_ne_cons (Ne.symm hne)] at hothers
    exact hlaw (hothers first List.mem_cons_self)
  · rintro rfl
    refine ⟨List.mem_cons_self, hlaw, ?_⟩
    rw [List.takeWhile_cons_of_neg (by simp)]
    exact List.forall_mem_nil _

end TargetDefect

namespace Target

/-! ## Guards in sequence -/

section Guards

variable {law law' : Prop} [Decidable law] [Decidable law']
variable {laws : TargetDefect → Prop} [DecidablePred laws]
variable {defect : TargetDefect} {defects : List TargetDefect}
variable {failure : Failure TargetDefect}

theorem require_of_law (hlaw : law) : require law defect = .ok () := if_pos hlaw

theorem require_of_not_law (hlaw : ¬ law) : require law defect = refuse defect := if_neg hlaw

/-- What comes after a guard may rely on its law. -/
theorem require_bind_congr {rest rest' : Unit → Outcome TargetDefect Unit}
    (hiff : law ↔ law') (hrest : law' → rest () = rest' ()) :
    (require law defect >>= rest) = (require law' defect >>= rest') := by
  by_cases hlaw : law'
  · rw [require_of_law hlaw, require_of_law (hiff.2 hlaw)]
    exact hrest hlaw
  · rw [require_of_not_law hlaw, require_of_not_law (mt hiff.1 hlaw)]
    rfl

/-- A guard on the remainder by a word other than zero is one on divisibility. -/
theorem rem_bind_require_congr {a b : Word} {rest rest' : Unit → Outcome TargetDefect Unit}
    (hpos : 0 < b.toNat) (hiff : b.toNat ∣ a.toNat ↔ law)
    (hrest : law → rest () = rest' ()) :
    ((liftM (Word.rem a b) : Outcome TargetDefect Word) >>= fun overhang =>
        require (overhang = 0) defect >>= rest) =
      (require law defect >>= rest') := by
  rw [Word.rem_eq_ok_of_pos hpos, lift_ok_bind]
  exact require_bind_congr (Word.mod_eq_zero_iff.trans hiff) hrest

theorem forM_require_eq_ok_iff :
    defects.forM (fun defect => require (laws defect) defect) = .ok () ↔
      ∀ defect ∈ defects, laws defect := by
  induction defects with
  | nil => exact iff_of_true rfl fun _ hmem => by cases hmem
  | cons first others ih =>
      rw [List.forall_mem_cons, ← ih]
      change (require (laws first) first >>= fun _ => _) = _ ↔ _
      by_cases hlaw : laws first
      · rw [require_of_law hlaw, and_iff_right hlaw]
        rfl
      · rw [require_of_not_law hlaw]
        exact iff_of_false (fun h => by cases h) fun h => hlaw h.1

/-- A sequence of guards fails with the first of its laws that is broken. -/
theorem forM_require_eq_error_iff :
    defects.forM (fun defect => require (laws defect) defect) = .error failure ↔
      ∃ defect, failure = .refusal defect ∧
        TargetDefect.FirstBroken laws defects defect := by
  induction defects with
  | nil => exact iff_of_false (fun h => by cases h) fun ⟨_, _, h⟩ => by cases h.mem
  | cons first others ih =>
      change (require (laws first) first >>= fun _ => _) = _ ↔ _
      by_cases hlaw : laws first
      · rw [require_of_law hlaw]
        simp only [TargetDefect.firstBroken_cons_of_law hlaw]
        exact ih
      · rw [require_of_not_law hlaw]
        simp only [TargetDefect.firstBroken_cons_of_not_law hlaw, exists_eq_right]
        constructor
        · intro h
          cases h
          rfl
        · rintro rfl
          rfl

end Guards

/-! ## The check -/

theorem law_wordSize_iff : t.wordSize = 4 ∨ t.wordSize = 8 ↔ TargetDefect.wordSize.Law t := by
  rw [← UInt64.toNat_inj, ← UInt64.toNat_inj]
  rfl

theorem law_reserved_iff : (t.reservesStack ∨
      t.defaults.stackPages.reserved = 0 ∧ t.defaults.minStackPages.reserved = 0) ↔
    TargetDefect.reservedPagesWithoutSupport.Law t := by
  rw [← UInt64.toNat_inj, ← UInt64.toNat_inj, or_iff_not_imp_left, Bool.not_eq_true]
  rfl

/-- A target is tested for one defect after the other. -/
theorem check_eq_forM (t : Target) :
    t.check = TargetDefect.inOrder.forM fun defect => require (defect.Law t) defect := by
  unfold check TargetDefect.inOrder
  refine require_bind_congr law_wordSize_iff fun hword => ?_
  refine require_bind_congr Iff.rfl fun hinstruction => ?_
  have hword_pos : 0 < t.wordSize.toNat := by
    rcases hword with hword | hword <;> omega
  refine rem_bind_require_congr hword_pos Iff.rfl fun _ => ?_
  refine require_bind_congr Iff.rfl fun _ => ?_
  refine require_bind_congr TargetDefect.all_isPowerOfTwo_iff fun _ => ?_
  refine require_bind_congr Iff.rfl fun _ => ?_
  refine require_bind_congr Iff.rfl fun _ => ?_
  have hinstruction_pos := Nat.pos_of_isPowerOfTwo hinstruction.1
  refine rem_bind_require_congr hinstruction_pos Iff.rfl fun _ => ?_
  refine require_bind_congr GuardPages.not_below_iff fun _ => ?_
  exact bind_pure_unit.symm.trans (require_bind_congr law_reserved_iff fun _ => rfl)

theorem check_eq_ok_iff : t.check = .ok () ↔ ∀ defect, TargetDefect.Law t defect := by
  rw [check_eq_forM, forM_require_eq_ok_iff]
  exact ⟨fun hall defect => hall defect defect.mem_inOrder, fun hall defect _ => hall defect⟩

theorem check_eq_error_iff {failure : Failure TargetDefect} :
    t.check = .error failure ↔ ∃ defect : TargetDefect, failure = .refusal defect ∧
      ¬ defect.Law t ∧ ∀ other ∈ defect.earlier, other.Law t := by
  rw [check_eq_forM, forM_require_eq_error_iff]
  refine exists_congr fun defect => and_congr_right fun _ => ?_
  constructor
  · intro h
    exact ⟨h.not_law, h.earlier⟩
  · intro h
    exact ⟨defect.mem_inOrder, h.1, h.2⟩

/-! ## Soundness -/

/-- The laws that `check` tests, on naturals where they speak of multiples. -/
structure Laws (t : Target) : Prop where
  wordSize : t.wordSize = 4 ∨ t.wordSize = 8
  instructionSize : IsPowerOfTwo t.instructionSize ∧ t.instructionSize ≤ 8
  wordSize_dvd : t.wordSize.toNat ∣ t.stackAlignment.toNat
  stackAlignment : IsPowerOfTwo t.stackAlignment ∧ t.wordSize ≤ t.stackAlignment
  classSpaceAlignment : ∀ a, t.classSpaceAlignment = some a → IsPowerOfTwo a
  codeAlignment : IsPowerOfTwo t.defaults.entryAlignment ∧
    IsPowerOfTwo t.defaults.loopAlignment ∧ IsPowerOfTwo t.defaults.segmentSize
  loopAlignment_le : t.defaults.loopAlignment ≤ t.defaults.entryAlignment
  instructionSize_dvd : t.instructionSize.toNat ∣ t.defaults.entryAlignment.toNat
  stackPages : ¬ t.defaults.stackPages.Below t.defaults.minStackPages
  reserved : t.reservesStack = true ∨
    (t.defaults.stackPages.reserved = 0 ∧ t.defaults.minStackPages.reserved = 0)

theorem Sound.laws (ht : t.Sound) : t.Laws := by
  have hlaw := check_eq_ok_iff.1 ht
  exact
    { wordSize := law_wordSize_iff.2 (hlaw .wordSize)
      instructionSize := hlaw .instructionSize
      wordSize_dvd := hlaw .stackAlignmentNotWordMultiple
      stackAlignment := hlaw .stackAlignmentTooSmall
      classSpaceAlignment := hlaw .classSpaceAlignment
      codeAlignment := hlaw .codeAlignment
      loopAlignment_le := hlaw .loopAlignmentExceedsEntry
      instructionSize_dvd := hlaw .entryAlignmentNotInstructionMultiple
      stackPages := GuardPages.not_below_iff.2 (hlaw .stackPagesBelowMinimum)
      reserved := law_reserved_iff.2 (hlaw .reservedPagesWithoutSupport) }

theorem Sound.isPowerOfTwo_classSpaceAlignment (ht : t.Sound) {alignment : Word}
    (halignment : t.classSpaceAlignment = some alignment) : IsPowerOfTwo alignment :=
  ht.laws.classSpaceAlignment alignment halignment

end Target

end RuntimeTargets
