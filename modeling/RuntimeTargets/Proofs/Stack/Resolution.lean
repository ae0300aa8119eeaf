import RuntimeTargets.Stack.Guard
import RuntimeTargets.Proofs.Journal
import RuntimeTargets.Proofs.Target.Laws
import RuntimeTargets.Proofs.Word

/-!
# Which page counts are granted

A guard is resolved zone by zone, and the first zone that is not granted its count
decides the outcome.  A zone can be refused because its count is out of range, or fail
because the end of its range is not a word.
-/

namespace RuntimeTargets

namespace GuardZone

/-- The zones that are settled before a zone. -/
def earlier : GuardZone → List GuardZone
  | .yellow => []
  | .red => [.yellow]
  | .reserved => [.yellow, .red]
  | .shadow => [.yellow, .red, .reserved]

theorem exists_iff {p : GuardZone → Prop} :
    (∃ zone, p zone) ↔ p .yellow ∨ p .red ∨ p .reserved ∨ p .shadow := by
  constructor
  · rintro ⟨zone, h⟩
    cases zone <;> simp [h]
  · rintro (h | h | h | h) <;> exact ⟨_, h⟩

end GuardZone

/-- The greatest count that a zone may have. -/
def Target.mostPages (t : Target) (zone : GuardZone) : ℕ :=
  (t.defaults.stackPages.count zone).toNat + zone.headroom.toNat

/-- The range of every zone ends among the words. -/
def Target.RangesFit (t : Target) : Prop := ∀ zone, t.mostPages zone < 2 ^ 64

namespace StackGuard

/-- A zone may have the count that is wanted of it. -/
structure Grants (t : Target) (wanted : GuardPages) (zone : GuardZone) : Prop where
  mostPages_lt : t.mostPages zone < 2 ^ 64
  least_le : (t.defaults.minStackPages.count zone).toNat ≤ (wanted.count zone).toNat
  le_mostPages : (wanted.count zone).toNat ≤ t.mostPages zone

variable {t : Target} {wanted : GuardPages} {zone : GuardZone} {guard : StackGuard}
variable {request : StackRequest} {failure : Failure StackError}

/-! ## One zone -/

theorem countFor_of_mostPages_le (wanted : GuardPages) (hmost : 2 ^ 64 ≤ t.mostPages zone) :
    countFor t wanted zone = .error (.fault .addition) := by
  rw [countFor, Word.add_eq_error_of_le hmost]
  rfl

theorem countFor_of_mostPages_lt (wanted : GuardPages) (hmost : t.mostPages zone < 2 ^ 64) :
    ∃ most : Word, most.toNat = t.mostPages zone ∧ countFor t wanted zone =
      if wanted.count zone < t.defaults.minStackPages.count zone ∨
          most < wanted.count zone then
        refuse (.pagesOutOfRange zone (wanted.count zone)
          (t.defaults.minStackPages.count zone) most)
      else .ok (wanted.count zone) := by
  obtain ⟨most, hexact⟩ := Word.exists_toNat_eq hmost
  refine ⟨most, hexact, ?_⟩
  rw [countFor, Word.add_eq_ok_iff.2 hexact]
  rfl

theorem countFor_of_grants (hgrants : Grants t wanted zone) :
    countFor t wanted zone = .ok (wanted.count zone) := by
  obtain ⟨most, hexact, hcount⟩ := countFor_of_mostPages_lt wanted hgrants.mostPages_lt
  have hleast := hgrants.least_le
  have hmost := hgrants.le_mostPages
  rw [hcount, if_neg]
  simp only [UInt64.lt_iff_toNat_lt]
  omega

/-- A count out of range is reported with the range. -/
theorem countFor_of_not_grants (hmost : t.mostPages zone < 2 ^ 64)
    (hgrants : ¬ Grants t wanted zone) :
    ∃ most : Word, most.toNat = t.mostPages zone ∧ countFor t wanted zone =
      refuse (.pagesOutOfRange zone (wanted.count zone)
        (t.defaults.minStackPages.count zone) most) := by
  obtain ⟨most, hexact, hcount⟩ := countFor_of_mostPages_lt wanted hmost
  refine ⟨most, hexact, ?_⟩
  rw [hcount, if_pos]
  simp only [UInt64.lt_iff_toNat_lt]
  by_contra hrange
  exact hgrants ⟨hmost, by omega, by omega⟩

theorem countFor_eq_ok_iff {count : Word} :
    countFor t wanted zone = .ok count ↔ count = wanted.count zone ∧ Grants t wanted zone := by
  by_cases hgrants : Grants t wanted zone
  · rw [countFor_of_grants hgrants, Except.ok.injEq, and_iff_left hgrants]
    exact eq_comm
  · rcases Nat.lt_or_ge (t.mostPages zone) (2 ^ 64) with hmost | hlarge
    · obtain ⟨most, -, hrefused⟩ := countFor_of_not_grants hmost hgrants
      rw [hrefused]
      exact iff_of_false (fun h => by cases h) (fun h => hgrants h.2)
    · rw [countFor_of_mostPages_le wanted hlarge]
      exact iff_of_false (fun h => by cases h) (fun h => hgrants h.2)

theorem countFor_eq_error_iff (hmost : t.mostPages zone < 2 ^ 64) :
    countFor t wanted zone = .error failure ↔ ¬ Grants t wanted zone ∧
      ∃ most : Word, most.toNat = t.mostPages zone ∧
        failure = .refusal (.pagesOutOfRange zone (wanted.count zone)
          (t.defaults.minStackPages.count zone) most) := by
  by_cases hgrants : Grants t wanted zone
  · rw [countFor_of_grants hgrants]
    exact iff_of_false (fun h => by cases h) (fun h => h.1 hgrants)
  · obtain ⟨most, hexact, hrefused⟩ := countFor_of_not_grants hmost hgrants
    rw [hrefused, and_iff_right hgrants]
    constructor
    · rintro ⟨⟩
      exact ⟨most, hexact, rfl⟩
    · rintro ⟨most', hexact', rfl⟩
      rw [UInt64.toNat_inj.1 (hexact.trans hexact'.symm)]
      rfl

theorem countFor_fault_iff :
    (∃ cause, countFor t wanted zone = .error (.fault cause)) ↔ 2 ^ 64 ≤ t.mostPages zone := by
  constructor
  · rintro ⟨cause, hcause⟩
    by_contra hmost
    obtain ⟨most, -, hcount⟩ := countFor_of_mostPages_lt wanted (Nat.lt_of_not_le hmost)
    rw [hcount] at hcause
    split at hcause <;> cases hcause
  · intro hmost
    exact ⟨_, countFor_of_mostPages_le wanted hmost⟩

/-! ## All zones -/

theorem ofPages_eq_ok_iff : ofPages t wanted = .ok guard ↔
    guard = ⟨wanted⟩ ∧ ∀ zone, Grants t wanted zone := by
  simp only [ofPages, bind_eq_ok_iff, countFor_eq_ok_iff]
  constructor
  · rintro ⟨_, ⟨rfl, hyellow⟩, _, ⟨rfl, hred⟩, _, ⟨rfl, hreserved⟩, _, ⟨rfl, hshadow⟩, hguard⟩
    cases hguard
    refine ⟨rfl, ?_⟩
    intro zone
    cases zone <;> assumption
  · rintro ⟨rfl, hall⟩
    exact ⟨_, ⟨rfl, hall .yellow⟩, _, ⟨rfl, hall .red⟩, _, ⟨rfl, hall .reserved⟩, _,
      ⟨rfl, hall .shadow⟩, rfl⟩

/-- The first zone that is not granted its count fails as it would alone. -/
theorem ofPages_eq_error_iff : ofPages t wanted = .error failure ↔
    ∃ zone, (∀ other ∈ zone.earlier, Grants t wanted other) ∧
      countFor t wanted zone = .error failure := by
  have hdone : ∀ guard : StackGuard, (pure guard : Outcome StackError StackGuard) ≠
      .error failure := by
    intro guard h
    cases h
  simp only [ofPages, bind_eq_error_iff, countFor_eq_ok_iff, and_assoc, exists_eq_left, hdone,
    and_false, GuardZone.exists_iff, GuardZone.earlier, List.forall_mem_cons,
    List.not_mem_nil, false_imp_iff, implies_true, and_true, true_and]
  simp only [and_or_left, exists_const, or_false]

/-! ## The journal -/

theorem exists_warning_iff :
    (∃ entry ∈ (resolve t request).journal, entry.severity = .warning) ↔
      request.DropsReserved t := by
  change Journal.Warns (_ ++ _) ↔ _
  rw [Journal.warns_append, Journal.warns_ite rfl]
  -- what a guard comes to is only noted, so a dropped zone is all there is to warn about
  refine or_iff_left ?_
  split
  · intro hwarns
    cases Journal.warns_singleton.1 hwarns
  · exact Journal.not_warns_nil

end StackGuard

end RuntimeTargets
