import RuntimeTargets.Target.Catalog
import RuntimeTargets.Proofs.Isolation.Agreement

/-!
# Which fields of a target its consumers need

Sound targets that differ in a field calls read are called differently, as some method
shows.  The same holds of the fields that layouts read, except that narrow targets
compress nothing, so that it makes no difference to them whether class pointers need
references compressed.
-/

namespace RuntimeTargets

variable {t u : Target}

/-! ## Calls -/

namespace NativeSignature

variable {kinds : List ValueKind} {isStatic : Bool} {s s' : NativeSignature}

theorem wordSize_div_eq_iff (ht : t.Sound) (hu : u.Sound) :
    t.wordSize / NativeArgument.slotSize = u.wordSize / NativeArgument.slotSize ↔
      t.wordSize = u.wordSize := by
  rcases ht.laws.wordSize with hword | hword <;>
    rcases hu.laws.wordSize with hword' | hword' <;>
      rw [hword, hword'] <;> decide

/-- Two sound targets pass a value alike unless it shows a difference between them. -/
theorem ofKind_eq_iff (ht : t.Sound) (hu : u.Sound) (kind : ValueKind) :
    NativeArgument.ofKind t kind = NativeArgument.ofKind u kind ↔
      (kind.isReference → t.wordSize = u.wordSize) ∧
        (kind.isSubwordInt → t.widensInts = u.widensInts) := by
  have hword := wordSize_div_eq_iff ht hu
  cases kind with
  | long | double | float | void =>
      simp [NativeArgument.ofKind, ValueKind.isReference, ValueKind.isSubwordInt]
  | object | array | address =>
      simp [NativeArgument.ofKind, ValueKind.isReference, ValueKind.isSubwordInt, hword]
  | boolean | char | byte | short | int =>
      cases hwidens : t.widensInts <;> cases hwidens' : u.widensInts <;>
        simp [NativeArgument.ofKind, ValueKind.isReference, ValueKind.isSubwordInt, hwidens,
          hwidens']

theorem Tallied.ext (hs : s.Tallied) (hs' : s'.Tallied)
    (harguments : s.arguments = s'.arguments) : s = s' := by
  have hslots : s.slots = s'.slots := by
    rw [← UInt64.toNat_inj, hs.slots_eq, hs'.slots_eq, harguments]
  cases s
  cases s'
  exact congrArg₂ NativeSignature.mk harguments hslots

/-- Whether a method is refused does not depend on the target. -/
theorem exists_ofMethod_of_ok (ht : t.Sound) (hu : u.Sound)
    (hs : ofMethod t kinds isStatic = .ok s) :
    s.Tallied ∧ s.arguments = (hiddenKinds isStatic ++ kinds).map (NativeArgument.ofKind t) ∧
      ∃ s', ofMethod u kinds isStatic = .ok s' ∧ s'.Tallied ∧
        s'.arguments = (hiddenKinds isStatic ++ kinds).map (NativeArgument.ofKind u) := by
  obtain ⟨hvoid, hfew⟩ := admits_of_ofMethod hs
  obtain ⟨s₀, hs₀, htallied, -, harguments⟩ := exists_ofMethod ht hvoid hfew isStatic
  obtain ⟨s', hs', htallied', -, harguments'⟩ := exists_ofMethod hu hvoid hfew isStatic
  rw [hs] at hs₀
  cases hs₀
  exact ⟨htallied, harguments, s', hs', htallied', harguments'⟩

/-- Every method shows a difference between word sizes, as it is passed a reference. -/
theorem forall_ofKind_eq_iff (ht : t.Sound) (hu : u.Sound) :
    (∀ kind ∈ hiddenKinds isStatic ++ kinds,
        NativeArgument.ofKind t kind = NativeArgument.ofKind u kind) ↔
      t.wordSize = u.wordSize ∧
        ((∃ kind ∈ kinds, kind.isSubwordInt) → t.widensInts = u.widensInts) := by
  simp only [ofKind_eq_iff ht hu, List.mem_append]
  constructor
  · intro hall
    have haddress : .address ∈ hiddenKinds isStatic := by
      rw [hiddenKinds_eq]
      exact List.mem_cons_self
    refine ⟨(hall .address (Or.inl haddress)).1 rfl, ?_⟩
    rintro ⟨kind, hmem, hsubword⟩
    exact (hall kind (Or.inr hmem)).2 hsubword
  · rintro ⟨hword, hwidens⟩ kind hmem
    refine ⟨fun _ => hword, ?_⟩
    intro hsubword
    rcases hmem with hhidden | hmem
    · exact absurd hsubword (not_isSubwordInt_of_mem_hiddenKinds kind hhidden)
    · exact hwidens ⟨kind, hmem, hsubword⟩

theorem ofMethod_eq_iff (ht : t.Sound) (hu : u.Sound)
    (hs : ofMethod t kinds isStatic = .ok s) :
    ofMethod u kinds isStatic = .ok s ↔
      t.wordSize = u.wordSize ∧
        ((∃ kind ∈ kinds, kind.isSubwordInt) → t.widensInts = u.widensInts) := by
  obtain ⟨htallied, harguments, s', hs', htallied', harguments'⟩ :=
    exists_ofMethod_of_ok ht hu hs
  rw [← forall_ofKind_eq_iff ht hu, ← List.map_inj_left, ← harguments, ← harguments', hs',
    Except.ok.injEq]
  constructor
  · intro heq
    rw [heq]
  · intro heq
    exact (htallied.ext htallied' heq).symm

theorem callsAlike_iff (ht : t.Sound) (hu : u.Sound) :
    CallsAlike t u ↔ t.wordSize = u.wordSize ∧ t.widensInts = u.widensInts := by
  constructor
  · intro halike
    obtain ⟨s, hs, -⟩ : ∃ s, ofMethod t [.int] false = .ok s ∧ _ :=
      exists_ofMethod ht (by decide) (by decide) false
    have hs' : ofMethod u [.int] false = .ok s := (halike [.int] false).value_eq.symm.trans hs
    obtain ⟨hword, hwidens⟩ := (ofMethod_eq_iff ht hu hs).1 hs'
    exact ⟨hword, hwidens ⟨.int, List.mem_singleton_self _, rfl⟩⟩
  · rintro ⟨hword, hwidens⟩
    exact callsAlike hword hwidens

end NativeSignature

/-! ## Layouts -/

namespace Layout

theorem isNarrow_iff_iff (ht : t.Sound) (hu : u.Sound) :
    (IsNarrow t ↔ IsNarrow u) ↔ t.wordSize = u.wordSize := by
  unfold IsNarrow
  rcases ht.laws.wordSize with hword | hword <;>
    rcases hu.laws.wordSize with hword' | hword' <;>
      rw [hword, hword'] <;> decide

/-- References are compressed by default wherever words are wide. -/
theorem compressedOops_resolve_default :
    (resolve t {}).value.compressedOops = true ↔ ¬ IsNarrow t := by
  rw [compressedOops_resolve]
  exact and_iff_left ⟨by decide, by decide⟩

/-- Without compressed references, class pointers show whether they need them. -/
theorem compressedClassPointers_resolve_oops_off :
    (resolve t { compressedOops := some false }).value.compressedClassPointers = true ↔
      ¬ IsNarrow t ∧ t.classPointersNeedOops = false := by
  have hoops : (resolve t { compressedOops := some false }).value.compressedOops = false :=
    allows_resolve.oops_off rfl
  have hfree : (t.classPointersNeedOops = true → false = true) ↔
      t.classPointersNeedOops = false := by
    cases t.classPointersNeedOops <;> decide
  rw [compressedClassPointers_resolve, hoops, hfree]
  apply and_congr_right
  intro _
  exact and_iff_left ⟨by decide, by decide⟩

theorem laysOutAlike_iff (ht : t.Sound) (hu : u.Sound) :
    LaysOutAlike t u ↔ t.wordSize = u.wordSize ∧
      (t.wordSize = 8 → t.classPointersNeedOops = u.classPointersNeedOops) := by
  constructor
  · intro halike
    have hwide : ¬ IsNarrow t ↔ ¬ IsNarrow u := by
      rw [← compressedOops_resolve_default, ← compressedOops_resolve_default,
        (halike.resolve {}).value_eq]
    have hfree : (¬ IsNarrow t ∧ t.classPointersNeedOops = false) ↔
        (¬ IsNarrow u ∧ u.classPointersNeedOops = false) := by
      rw [← compressedClassPointers_resolve_oops_off,
        ← compressedClassPointers_resolve_oops_off,
        (halike.resolve { compressedOops := some false }).value_eq]
    refine ⟨(isNarrow_iff_iff ht hu).1 (not_iff_not.1 hwide), ?_⟩
    intro hword
    have hnarrow : ¬ IsNarrow t := by
      rw [IsNarrow, hword]
      decide
    have hneeds := (and_iff_right hnarrow).symm.trans
      (hfree.trans (and_iff_right (hwide.1 hnarrow)))
    rw [← Bool.not_inj_iff, Bool.eq_iff_iff]
    simpa using hneeds
  · rintro ⟨hword, hneeds⟩
    rcases ht.laws.wordSize with hnarrow | hwide
    · have htn : IsNarrow t := by
        rw [IsNarrow, hnarrow]
        decide
      exact laysOutAlike_of_isNarrow htn ((isNarrow_congr hword).1 htn)
    · exact laysOutAlike hword (hneeds hwide)

end Layout

/-! ## All consumers -/

/-- Targets that agree in the fields of a consumer get the same from it, so a name and
values for code generation make no difference to any.  Sound targets that differ in the
fields of calls are called differently: in their word size for every method that is not
refused, and in the widening of integers for each of those that take a narrow one. -/
theorem consumers_isolated (t u : Target) :
    (t.wordSize = u.wordSize → t.widensInts = u.widensInts → CallsAlike t u) ∧
    (t.wordSize = u.wordSize → t.classPointersNeedOops = u.classPointersNeedOops →
      LaysOutAlike t u) ∧
    (t.reservesStack = u.reservesStack → t.defaults.stackPages = u.defaults.stackPages →
      t.defaults.minStackPages = u.defaults.minStackPages → GuardsAlike t u) ∧
    (t.classSpaceAlignment = u.classSpaceAlignment → PlacesAlike t u) ∧
    (∀ name entryAlignment loopAlignment segmentSize inlineLimit, Indistinguishable t
      (t.retuned name entryAlignment loopAlignment segmentSize inlineLimit)) ∧
    (t.Sound → u.Sound →
      (∀ kinds isStatic s, (NativeSignature.resolve t kinds isStatic).value = .ok s →
        ((NativeSignature.resolve u kinds isStatic).value = .ok s ↔
          t.wordSize = u.wordSize ∧
            ((∃ kind ∈ kinds, kind.isSubwordInt) → t.widensInts = u.widensInts))) ∧
      (CallsAlike t u ↔ t.wordSize = u.wordSize ∧ t.widensInts = u.widensInts) ∧
      (LaysOutAlike t u ↔ t.wordSize = u.wordSize ∧
        (t.wordSize = 8 → t.classPointersNeedOops = u.classPointersNeedOops))) := by
  refine ⟨NativeSignature.callsAlike, Layout.laysOutAlike, StackGuard.guardsAlike,
    ClassSpace.placesAlike, indistinguishable_retuned t, ?_⟩
  intro ht hu
  refine ⟨?_, NativeSignature.callsAlike_iff ht hu, Layout.laysOutAlike_iff ht hu⟩
  intro kinds isStatic s hs
  exact NativeSignature.ofMethod_eq_iff ht hu hs

/-- Two families that are one target to all consumers, and some that only a few of them
tell apart. -/
theorem consumers_isolated_loongarch64 :
    Indistinguishable .mips64 .loongarch64 ∧
      CallsAlike { Target.mips64 with widensInts := true } .ppc64 ∧
      LaysOutAlike .mips64 .ppc64 ∧ GuardsAlike .mips64 .riscv64 ∧
      PlacesAlike .riscv64 .ppc64 ∧ ¬ CallsAlike .mips64 .ppc64 := by
  obtain ⟨-, hlayouts, -, -, -, hneeded⟩ := consumers_isolated .mips64 .ppc64
  obtain ⟨-, -, hguards, -, htuned, -⟩ := consumers_isolated .mips64 .riscv64
  obtain ⟨hcalls, -⟩ := consumers_isolated { Target.mips64 with widensInts := true } .ppc64
  obtain ⟨-, -, -, hplaces, -⟩ := consumers_isolated .riscv64 .ppc64
  have hsound := Target.sound_of_mem_all
  refine ⟨htuned "loongarch64" 64 16 64 2000, hcalls rfl rfl, hlayouts rfl rfl,
    hguards rfl rfl rfl, hplaces rfl, ?_⟩
  intro halike
  have hneeds := hneeded (hsound _ (by simp [Target.all])) (hsound _ (by simp [Target.all]))
  exact Bool.false_ne_true (hneeds.2.1.1 halike).2

end RuntimeTargets
