import RuntimeTargets.Target.Catalog
import RuntimeTargets.Proofs.Stack.Resolution

/-!
# What becomes of a request

A request comes to one count for each zone: what it asks for there or the default, and
nothing for a reserved zone that the target cannot have.  Either all counts are in the
ranges of their zones, and the guard has exactly these, or the first one out of range is
reported.  Defaults are in range on a sound target, and a guard asks for itself.
-/

namespace RuntimeTargets

/-- A zone may have between the least and the most pages of its range. -/
def Target.Allows (t : Target) (zone : GuardZone) (count : Word) : Prop :=
  (t.defaults.minStackPages.count zone).toNat ≤ count.toNat ∧ count.toNat ≤ t.mostPages zone

theorem Target.Sound.allows_default {t : Target} (ht : t.Sound) (zone : GuardZone) :
    t.Allows zone (t.defaults.stackPages.count zone) := by
  have hleast := GuardPages.not_below_iff.1 ht.laws.stackPages
  exact ⟨hleast zone, Nat.le_add_right _ _⟩

namespace StackRequest

variable {t : Target} {request : StackRequest} {pages : GuardPages}

/-- The count asked for in a zone, if any is. -/
def asked (request : StackRequest) : GuardZone → Option Word
  | .yellow => request.yellow
  | .red => request.red
  | .reserved => request.reserved
  | .shadow => request.shadow

/-- The count that a request comes to in a zone. -/
def countOn (request : StackRequest) (t : Target) (zone : GuardZone) : Word :=
  if zone = .reserved ∧ ¬ t.reservesStack then 0
  else (request.asked zone).getD (t.defaults.stackPages.count zone)

/-- The zone is the first whose count is out of its range. -/
def FirstOutOfRange (request : StackRequest) (t : Target) (zone : GuardZone) : Prop :=
  (∀ other ∈ zone.earlier, t.Allows other (request.countOn t other)) ∧
    ¬ t.Allows zone (request.countOn t zone)

theorem countOn_of_not_reservesStack (request : StackRequest) (ht : ¬ t.reservesStack) :
    request.countOn t .reserved = 0 :=
  if_pos ⟨rfl, ht⟩

theorem count_effective (request : StackRequest) (t : Target) (zone : GuardZone) :
    (request.effective t).count zone = request.countOn t zone := by
  cases zone with
  | yellow => rfl
  | red => rfl
  | shadow => rfl
  | reserved =>
      change (if request.DropsReserved t then 0 else request.wantedReserved t) = _
      by_cases hreserves : t.reservesStack
      · rw [if_neg fun hdrops => hdrops.1 hreserves, countOn,
          if_neg fun hnone => hnone.2 hreserves]
        rfl
      -- a count of zero is dropped or kept with the same result
      · rw [countOn_of_not_reservesStack request hreserves]
        by_cases hzero : request.wantedReserved t = 0
        · rw [hzero, ite_self]
        · exact if_pos ⟨hreserves, hzero⟩

theorem countOn_default (ht : t.Sound) (zone : GuardZone) :
    countOn {} t zone = t.defaults.stackPages.count zone := by
  unfold countOn
  split
  · rename_i hnone
    obtain ⟨rfl, hreserves⟩ := hnone
    exact (ht.laws.reserved.resolve_left hreserves).1.symm
  · cases zone <;> rfl

/-- Counts that a request came to are what asking for them comes to. -/
theorem countOn_ofPages (hpages : ∀ zone, pages.count zone = request.countOn t zone)
    (zone : GuardZone) : (ofPages pages).countOn t zone = pages.count zone := by
  by_cases hnone : zone = .reserved ∧ ¬ t.reservesStack
  · obtain ⟨rfl, hreserves⟩ := hnone
    rw [hpages, countOn_of_not_reservesStack _ hreserves,
      countOn_of_not_reservesStack _ hreserves]
  · rw [countOn, if_neg hnone]
    cases zone <;> rfl

theorem not_dropsReserved_ofPages
    (hpages : ∀ zone, pages.count zone = request.countOn t zone) :
    ¬ (ofPages pages).DropsReserved t := by
  rintro ⟨hreserves, hwanted⟩
  have hzero := hpages .reserved
  rw [countOn_of_not_reservesStack request hreserves] at hzero
  exact hwanted hzero

end StackRequest

namespace StackGuard

variable {t : Target} {request : StackRequest} {zone : GuardZone} {guard : StackGuard}
variable {failure : Failure StackError}

theorem grants_effective_iff (hfit : t.RangesFit) :
    Grants t (request.effective t) zone ↔ t.Allows zone (request.countOn t zone) := by
  rw [← StackRequest.count_effective]
  constructor
  · rintro ⟨-, hleast, hmost⟩
    exact ⟨hleast, hmost⟩
  · rintro ⟨hleast, hmost⟩
    exact ⟨hfit zone, hleast, hmost⟩

theorem value_resolve_eq_ok_iff (hfit : t.RangesFit) :
    (resolve t request).value = .ok guard ↔ ∀ zone,
      guard.pages.count zone = request.countOn t zone ∧
        t.Allows zone (request.countOn t zone) := by
  change ofPages t (request.effective t) = .ok guard ↔ _
  simp only [ofPages_eq_ok_iff, grants_effective_iff hfit]
  constructor
  · rintro ⟨rfl, hallows⟩ zone
    exact ⟨request.count_effective t zone, hallows zone⟩
  · intro hcounts
    refine ⟨?_, fun zone => (hcounts zone).2⟩
    rw [StackGuard.mk.injEq]
    exact GuardPages.eq_of_count fun zone =>
      (hcounts zone).1.trans (request.count_effective t zone).symm

theorem value_resolve_eq_error_iff (hfit : t.RangesFit) :
    (resolve t request).value = .error failure ↔
      ∃ zone, request.FirstOutOfRange t zone ∧
        ∃ most : Word, most.toNat = t.mostPages zone ∧
          failure = .refusal (.pagesOutOfRange zone (request.countOn t zone)
            (t.defaults.minStackPages.count zone) most) := by
  change ofPages t (request.effective t) = .error failure ↔ _
  simp only [ofPages_eq_error_iff, countFor_eq_error_iff (hfit _), grants_effective_iff hfit,
    StackRequest.count_effective, StackRequest.FirstOutOfRange, and_assoc]

theorem value_resolve_default (ht : t.Sound) (hfit : t.RangesFit) :
    (resolve t {}).value = .ok ⟨t.defaults.stackPages⟩ := by
  rw [value_resolve_eq_ok_iff hfit]
  intro zone
  rw [StackRequest.countOn_default ht]
  exact ⟨rfl, ht.allows_default zone⟩

/-- The counts of a guard are in range, and none of them is dropped. -/
theorem resolve_ofPages (hfit : t.RangesFit) (hguard : (resolve t request).value = .ok guard) :
    (resolve t (.ofPages guard.pages)).value = .ok guard ∧
      ∀ entry ∈ (resolve t (.ofPages guard.pages)).journal, entry.severity ≠ .warning := by
  have hcounts := (value_resolve_eq_ok_iff hfit).1 hguard
  have hsame := StackRequest.countOn_ofPages fun zone => (hcounts zone).1
  constructor
  · rw [value_resolve_eq_ok_iff hfit]
    intro zone
    rw [hsame]
    exact ⟨rfl, (hcounts zone).1 ▸ (hcounts zone).2⟩
  · intro entry hentry hwarning
    exact StackRequest.not_dropsReserved_ofPages (fun zone => (hcounts zone).1)
      (exists_warning_iff.1 ⟨entry, hentry, hwarning⟩)

/-- On a sound target whose ranges end among the words, a guard is resolved with exactly
the counts that a request comes to, or the first of them out of range is reported.  A
request for nothing gets the defaults, and asking for what a guard has gets that guard. -/
theorem resolve_decides (ht : t.Sound) (hfit : t.RangesFit) (request : StackRequest) :
    (∀ guard, (resolve t request).value = .ok guard ↔ ∀ zone,
      guard.pages.count zone = request.countOn t zone ∧
        t.Allows zone (request.countOn t zone)) ∧
    (∀ failure, (resolve t request).value = .error failure ↔
      ∃ zone, request.FirstOutOfRange t zone ∧
        ∃ most : Word, most.toNat = t.mostPages zone ∧
          failure = .refusal (.pagesOutOfRange zone (request.countOn t zone)
            (t.defaults.minStackPages.count zone) most)) ∧
    (resolve t {}).value = .ok ⟨t.defaults.stackPages⟩ ∧
    ∀ guard, (resolve t request).value = .ok guard →
      (resolve t (.ofPages guard.pages)).value = .ok guard ∧
        ∀ entry ∈ (resolve t (.ofPages guard.pages)).journal, entry.severity ≠ .warning := by
  refine ⟨?_, ?_, value_resolve_default ht hfit, ?_⟩
  · intro guard
    exact value_resolve_eq_ok_iff hfit
  · intro failure
    exact value_resolve_eq_error_iff hfit
  · intro guard hguard
    exact resolve_ofPages hfit hguard

/-- The most shadow pages there can be, and a red and a shadow count out of range, of
which the red one is reported. -/
theorem resolve_decides_mips64 :
    Target.mips64.Sound ∧ Target.mips64.RangesFit ∧
      (resolve Target.mips64 { shadow := some 50 }).value = .ok ⟨⟨2, 1, 1, 50⟩⟩ ∧
      (resolve Target.mips64 (.ofPages ⟨2, 1, 1, 50⟩)).value = .ok ⟨⟨2, 1, 1, 50⟩⟩ ∧
      (resolve Target.mips64 { red := some 12, shadow := some 51 }).value =
        refuse (.pagesOutOfRange .red 12 1 11) := by
  have hsound : Target.mips64.Sound := by decide +kernel
  have hfit : Target.mips64.RangesFit := by
    intro zone
    cases zone <;> decide
  obtain ⟨hgranted, -, -, hagain⟩ := resolve_decides hsound hfit { shadow := some 50 }
  obtain ⟨-, hrefused, -, -⟩ := resolve_decides hsound hfit { red := some 12, shadow := some 51 }
  have hguard : (resolve Target.mips64 { shadow := some 50 }).value =
      .ok ⟨⟨2, 1, 1, 50⟩⟩ := by
    rw [hgranted]
    intro zone
    cases zone <;> exact ⟨by decide, by decide, by decide⟩
  refine ⟨hsound, hfit, hguard, (hagain _ hguard).1, ?_⟩
  refine (hrefused _).2 ⟨.red, ⟨?_, ?_⟩, 11, by decide, rfl⟩
  · intro other hother
    cases List.mem_singleton.1 hother
    exact ⟨by decide, by decide⟩
  · rintro ⟨-, hmost⟩
    exact absurd hmost (by decide)

end StackGuard

end RuntimeTargets
