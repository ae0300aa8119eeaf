import RuntimeTargets.Stack.Zones
import RuntimeTargets.Proofs.Span
import RuntimeTargets.Proofs.Word

/-!
# Where the zones of a stack lie

Each bound of a zone is computed on words by a formula of its own.  On naturals there
is one condition: all zones, the shadow pages included, fit into the stack.  It keeps
every product and sum among the words, so that the only arithmetic left that can leave
them is the sum of the page counts, which is taken before anything is compared.
-/

namespace RuntimeTargets

namespace StackGuard

open Word (IsPowerOfTwo)

variable {guard : StackGuard} {base size pageSize guarded needed : Word} {z : StackZones}
variable {reason : StackError}

/-! ## Bytes of the zones -/

/-- Pages of the red, yellow and reserved zones together. -/
def guardedPages (guard : StackGuard) : ℕ :=
  guard.pages.red.toNat + guard.pages.yellow.toNat + guard.pages.reserved.toNat

/-- Bytes of the red, yellow and reserved zones together. -/
def guardedBytes (guard : StackGuard) (pageSize : Word) : ℕ :=
  guard.guardedPages * pageSize.toNat

/-- Bytes of all zones, the shadow zone included. -/
def neededBytes (guard : StackGuard) (pageSize : Word) : ℕ :=
  guard.guardedBytes pageSize + guard.pages.shadow.toNat * pageSize.toNat

theorem guardedBytes_eq_add (guard : StackGuard) (pageSize : Word) :
    guard.guardedBytes pageSize =
      guard.pages.red.toNat * pageSize.toNat + guard.pages.yellow.toNat * pageSize.toNat +
        guard.pages.reserved.toNat * pageSize.toNat := by
  rw [guardedBytes, guardedPages, Nat.add_mul, Nat.add_mul]

theorem neededBytes_eq_mul (guard : StackGuard) (pageSize : Word) :
    guard.neededBytes pageSize =
      (guard.guardedPages + guard.pages.shadow.toNat) * pageSize.toNat := by
  rw [neededBytes, guardedBytes, Nat.add_mul]

theorem guardBytes?_of_lt (hpages : guard.guardedPages < 2 ^ 64) (pageSize : Word) :
    guard.guardBytes? pageSize = .ok (Word.ofNat? (guard.guardedBytes pageSize)) := by
  unfold guardedPages at hpages
  obtain ⟨lower, hlower⟩ := Word.exists_toNat_eq
    (n := guard.pages.red.toNat + guard.pages.yellow.toNat) (by omega)
  obtain ⟨pages, hall⟩ := Word.exists_toNat_eq hpages
  have hpages : Word.add lower guard.pages.reserved = .ok pages :=
    Word.add_eq_ok_iff.2 (by rw [hall, hlower])
  rw [guardBytes?, Word.add_eq_ok_iff.2 hlower]
  change (Word.add lower guard.pages.reserved >>= _) = _
  rw [hpages]
  change Except.ok (Word.mul? pages pageSize) = _
  rw [Word.mul?_eq_ofNat?, hall]
  rfl

theorem guardBytes?_of_le (hpages : 2 ^ 64 ≤ guard.guardedPages) (pageSize : Word) :
    guard.guardBytes? pageSize = .error .addition := by
  unfold guardedPages at hpages
  by_cases hlower : guard.pages.red.toNat + guard.pages.yellow.toNat < 2 ^ 64
  · obtain ⟨lower, hexact⟩ := Word.exists_toNat_eq hlower
    rw [guardBytes?, Word.add_eq_ok_iff.2 hexact]
    change (Word.add lower guard.pages.reserved >>= _) = _
    rw [Word.add_eq_error_of_le (by rwa [hexact])]
    rfl
  · rw [guardBytes?, Word.add_eq_error_of_le (Nat.le_of_not_lt hlower)]
    rfl

theorem zoneBytes?_of_le (hpages : 2 ^ 64 ≤ guard.guardedPages) (pageSize : Word) :
    guard.zoneBytes? pageSize = .error .addition := by
  rw [zoneBytes?, guardBytes?_of_le hpages]
  rfl

theorem shadowBytes?_eq (guard : StackGuard) (pageSize : Word) :
    guard.shadowBytes? pageSize =
      Word.ofNat? (guard.pages.shadow.toNat * pageSize.toNat) :=
  Word.mul?_eq_ofNat? _ _

/-- The two sums that a layout is tested against are words together or not at all. -/
theorem zoneBytes?_of_lt (hpages : guard.guardedPages < 2 ^ 64) (pageSize : Word) :
    ∃ sizes, guard.zoneBytes? pageSize = .ok sizes ∧
      ∀ guarded needed, sizes = some (guarded, needed) ↔
        guarded.toNat = guard.guardedBytes pageSize ∧
          needed.toNat = guard.neededBytes pageSize := by
  refine ⟨_, by rw [zoneBytes?, guardBytes?_of_lt hpages]; rfl, ?_⟩
  intro guarded needed
  rw [shadowBytes?_eq]
  constructor
  · intro hsizes
    obtain ⟨guarded', hguarded, hsizes⟩ := Option.bind_eq_some_iff.1 hsizes
    obtain ⟨shadow, hshadow, hsizes⟩ := Option.bind_eq_some_iff.1 hsizes
    obtain ⟨needed', hneeded, hsizes⟩ := Option.bind_eq_some_iff.1 hsizes
    cases hsizes
    rw [Word.ofNat?_eq_some_iff] at hguarded hshadow
    rw [Word.add?_eq_some_iff, hguarded, hshadow] at hneeded
    exact ⟨hguarded, hneeded⟩
  · rintro ⟨hguarded, hneeded⟩
    have hshadow : guard.pages.shadow.toNat * pageSize.toNat < 2 ^ 64 := by
      have hbound := needed.toNat_lt
      unfold neededBytes at hneeded
      omega
    obtain ⟨shadow, hshadow⟩ := Word.exists_toNat_eq hshadow
    have hsum : Word.add? guarded shadow = some needed := by
      rw [Word.add?_eq_some_iff, hneeded, hguarded, hshadow]
      rfl
    rw [Word.ofNat?_eq_some_iff.2 hguarded, Word.ofNat?_eq_some_iff.2 hshadow]
    change (Word.add? guarded shadow >>= _) = _
    rw [hsum]
    rfl

/-! ## The zones one above the other -/

/-- The base of a stack is a bound of a page. -/
def Paged (base pageSize : Word) : Prop :=
  IsPowerOfTwo pageSize ∧ pageSize.toNat ∣ base.toNat

/-- The zones have room on the `size` bytes below `base`. -/
structure Admits (guard : StackGuard) (base size pageSize : Word) : Prop where
  paged : Paged base pageSize
  needed_le : guard.neededBytes pageSize ≤ size.toNat
  size_le : size.toNat ≤ base.toNat

/-- Each zone starts where the one below it stops and has its pages. -/
structure LaysOut (guard : StackGuard) (base size pageSize : Word) (z : StackZones) :
    Prop where
  base_eq : z.base = base
  bottom_eq : z.bottom.toNat + size.toNat = base.toNat
  red : z.red.RunsFrom z.bottom (guard.pages.red.toNat * pageSize.toNat)
  yellow : z.yellow.RunsFrom z.red.stop (guard.pages.yellow.toNat * pageSize.toNat)
  reserved : guard.HasReserved → ∃ zone, z.reserved = some zone ∧
    zone.RunsFrom z.yellow.stop (guard.pages.reserved.toNat * pageSize.toNat)
  unreserved : ¬ guard.HasReserved → z.reserved = none
  safe_eq : z.shadowSafeLimit.toNat = z.bottom.toNat + guard.neededBytes pageSize

theorem exists_layOut (hguarded : guarded.toNat = guard.guardedBytes pageSize)
    (hneeded : needed.toNat = guard.neededBytes pageSize)
    (hsize : needed.toNat ≤ size.toNat) (hbase : size.toNat ≤ base.toNat) :
    ∃ z, guard.layOut base size pageSize guarded needed = .ok z ∧
      guard.LaysOut base size pageSize z := by
  have hbound := base.toNat_lt
  have hparts := guard.guardedBytes_eq_add pageSize
  have hall : guard.guardedBytes pageSize ≤ guard.neededBytes pageSize :=
    Nat.le_add_right _ _
  -- every bound lies between the bottom of the stack and its base
  obtain ⟨bottom, hbottom⟩ := Word.exists_toNat_eq (n := base.toNat - size.toNat) (by omega)
  obtain ⟨red, hred⟩ := Word.exists_toNat_eq
    (n := guard.pages.red.toNat * pageSize.toNat) (by omega)
  obtain ⟨redTop, hredTop⟩ := Word.exists_toNat_eq (n := bottom.toNat + red.toNat) (by omega)
  obtain ⟨yellow, hyellow⟩ := Word.exists_toNat_eq
    (n := guard.pages.yellow.toNat * pageSize.toNat) (by omega)
  obtain ⟨yellowTop, hyellowTop⟩ := Word.exists_toNat_eq
    (n := redTop.toNat + yellow.toNat) (by omega)
  obtain ⟨reservedTop, hreservedTop⟩ := Word.exists_toNat_eq
    (n := bottom.toNat + guarded.toNat) (by omega)
  obtain ⟨limit, hlimit⟩ := Word.exists_toNat_eq (n := bottom.toNat + needed.toNat) (by omega)
  have hdifference : bottom.toNat + size.toNat = base.toNat := by omega
  simp only [layOut, bind_eq_ok_iff, Word.sub_eq_ok_iff, Word.mul_eq_ok_iff,
    Word.add_eq_ok_iff]
  refine ⟨_, ⟨bottom, hdifference, red, hred, redTop, hredTop, yellow, hyellow, yellowTop,
    hyellowTop, reservedTop, hreservedTop, limit, hlimit, rfl⟩, ?_⟩
  constructor
  · rfl
  · exact hdifference
  · exact ⟨rfl, by rw [hredTop, hred]⟩
  · exact ⟨rfl, by rw [hyellowTop, hyellow]⟩
  · intro hreserved
    refine ⟨_, if_pos hreserved, rfl, ?_⟩
    dsimp only
    omega
  · intro hunreserved
    exact if_neg hunreserved
  · rw [hlimit, hneeded]

/-! ## The tests in their order -/

theorem zones_of_not_isPowerOfTwo (hpower : ¬ IsPowerOfTwo pageSize) :
    guard.zones base size pageSize = refuse (.pageSize pageSize) :=
  if_pos hpower

theorem zones_of_not_dvd (hpower : IsPowerOfTwo pageSize)
    (hdvd : ¬ pageSize.toNat ∣ base.toNat) :
    guard.zones base size pageSize = refuse (.unalignedBase base) := by
  rw [zones, if_neg (not_not.2 hpower),
    Word.rem_eq_ok_of_pos (Nat.pos_of_isPowerOfTwo hpower), lift_ok_bind,
    if_pos (mt Word.mod_eq_zero_iff.1 hdvd)]

/-- What is left once the page size and the base are in order. -/
theorem zones_of_paged (hpaged : Paged base pageSize) :
    guard.zones base size pageSize =
      ((liftM (guard.zoneBytes? pageSize) : Outcome StackError _) >>=
        guard.zonesOfBytes base size pageSize) := by
  obtain ⟨hpower, hdvd⟩ := hpaged
  rw [zones, if_neg (not_not.2 hpower),
    Word.rem_eq_ok_of_pos (Nat.pos_of_isPowerOfTwo hpower), lift_ok_bind,
    if_neg (not_not.2 (Word.mod_eq_zero_iff.2 hdvd))]

theorem zones_of_guardedPages_le (hpaged : Paged base pageSize)
    (hpages : 2 ^ 64 ≤ guard.guardedPages) :
    guard.zones base size pageSize = .error (.fault .addition) := by
  rw [zones_of_paged hpaged, zoneBytes?_of_le hpages, lift_error_bind]

theorem zones_of_neededBytes_le (hpaged : Paged base pageSize)
    (hpages : guard.guardedPages < 2 ^ 64)
    (hneeded : 2 ^ 64 ≤ guard.neededBytes pageSize) :
    guard.zones base size pageSize = refuse (.pageSize pageSize) := by
  obtain ⟨sizes, hsizes, hexact⟩ := zoneBytes?_of_lt hpages pageSize
  rw [zones_of_paged hpaged, hsizes, lift_ok_bind]
  rcases sizes with _ | ⟨guarded, needed⟩
  · rfl
  · have hsum := ((hexact guarded needed).1 rfl).2
    exact absurd needed.toNat_lt (by omega)

/-- Where the sizes are words, only the room decides. -/
theorem zones_of_neededBytes_lt (hpaged : Paged base pageSize)
    (hpages : guard.guardedPages < 2 ^ 64)
    (hneeded : needed.toNat = guard.neededBytes pageSize) :
    ∃ guarded : Word, guarded.toNat = guard.guardedBytes pageSize ∧
      guard.zones base size pageSize =
        if size < needed ∨ base < size then refuse (.stackTooSmall size needed)
        else liftM (guard.layOut base size pageSize guarded needed) := by
  have hbound := needed.toNat_lt
  obtain ⟨sizes, hsizes, hexact⟩ := zoneBytes?_of_lt hpages pageSize
  obtain ⟨guarded, hguarded⟩ := Word.exists_toNat_eq (n := guard.guardedBytes pageSize)
    (by unfold neededBytes at hneeded; omega)
  have hboth : sizes = some (guarded, needed) :=
    (hexact guarded needed).2 ⟨hguarded, hneeded⟩
  exact ⟨guarded, hguarded, by
    rw [zones_of_paged hpaged, hsizes, hboth, lift_ok_bind, zonesOfBytes]⟩

theorem zones_of_not_room (hpaged : Paged base pageSize)
    (hpages : guard.guardedPages < 2 ^ 64)
    (hneeded : needed.toNat = guard.neededBytes pageSize)
    (hroom : size.toNat < needed.toNat ∨ base.toNat < size.toNat) :
    guard.zones base size pageSize = refuse (.stackTooSmall size needed) := by
  obtain ⟨guarded, -, hzones⟩ := zones_of_neededBytes_lt hpaged hpages hneeded
  rw [hzones, if_pos (by simpa only [UInt64.lt_iff_toNat_lt] using hroom)]

/-! ## Reasons for a refusal -/

/-- Why a stack gets no zones.  A reason is given only where those before it do not
apply. -/
inductive Refuses (guard : StackGuard) (base size pageSize : Word) : StackError → Prop
  | notPowerOfTwo (hpower : ¬ IsPowerOfTwo pageSize) :
      Refuses guard base size pageSize (.pageSize pageSize)
  | unalignedBase (hpower : IsPowerOfTwo pageSize) (hdvd : ¬ pageSize.toNat ∣ base.toNat) :
      Refuses guard base size pageSize (.unalignedBase base)
  | tooManyBytes (hpaged : Paged base pageSize)
      (hneeded : 2 ^ 64 ≤ guard.neededBytes pageSize) :
      Refuses guard base size pageSize (.pageSize pageSize)
  | stackTooSmall (hpaged : Paged base pageSize) {needed : Word}
      (hneeded : needed.toNat = guard.neededBytes pageSize)
      (hroom : size.toNat < needed.toNat ∨ base.toNat < size.toNat) :
      Refuses guard base size pageSize (.stackTooSmall size needed)

/-- The pages have to have a sum only where the sum is taken. -/
theorem Refuses.zones_eq (h : guard.Refuses base size pageSize reason)
    (hpages : Paged base pageSize → guard.guardedPages < 2 ^ 64) :
    guard.zones base size pageSize = refuse reason := by
  cases h with
  | notPowerOfTwo hpower => exact zones_of_not_isPowerOfTwo hpower
  | unalignedBase hpower hdvd => exact zones_of_not_dvd hpower hdvd
  | tooManyBytes hpaged hneeded => exact zones_of_neededBytes_le hpaged (hpages hpaged) hneeded
  | stackTooSmall hpaged hneeded hroom =>
      exact zones_of_not_room hpaged (hpages hpaged) hneeded hroom

theorem exists_refuses_of_not_admits (hadmits : ¬ guard.Admits base size pageSize) :
    ∃ reason, guard.Refuses base size pageSize reason := by
  by_cases hpower : IsPowerOfTwo pageSize
  · by_cases hdvd : pageSize.toNat ∣ base.toNat
    · rcases Nat.lt_or_ge (guard.neededBytes pageSize) (2 ^ 64) with hsmall | hlarge
      · obtain ⟨needed, hneeded⟩ := Word.exists_toNat_eq hsmall
        refine ⟨_, .stackTooSmall ⟨hpower, hdvd⟩ hneeded ?_⟩
        by_contra hroom
        exact hadmits ⟨⟨hpower, hdvd⟩, by omega, by omega⟩
      · exact ⟨_, .tooManyBytes ⟨hpower, hdvd⟩ hlarge⟩
    · exact ⟨_, .unalignedBase hpower hdvd⟩
  · exact ⟨_, .notPowerOfTwo hpower⟩

/-! ## The outcomes -/

theorem exists_zones (hpages : guard.guardedPages < 2 ^ 64)
    (hadmits : guard.Admits base size pageSize) :
    ∃ z, guard.zones base size pageSize = .ok z ∧ guard.LaysOut base size pageSize z := by
  obtain ⟨hpaged, hsize, hbase⟩ := hadmits
  obtain ⟨needed, hneeded⟩ := Word.exists_toNat_eq (hsize.trans_lt size.toNat_lt)
  obtain ⟨guarded, hguarded, hzones⟩ := zones_of_neededBytes_lt hpaged hpages hneeded
  obtain ⟨z, hz, hlays⟩ := exists_layOut hguarded hneeded (by omega) hbase
  refine ⟨z, ?_, hlays⟩
  rw [hzones, if_neg (by simp only [UInt64.lt_iff_toNat_lt]; omega), hz]
  rfl

/-- The zones of a guard are laid out where they have room and refused where they have
not, unless their pages have no sum to compare. -/
theorem zones_cases (guard : StackGuard) (base size pageSize : Word) :
    (guard.Admits base size pageSize ∧ guard.guardedPages < 2 ^ 64 ∧
      ∃ z, guard.zones base size pageSize = .ok z ∧ guard.LaysOut base size pageSize z) ∨
    ((¬ Paged base pageSize ∨ guard.guardedPages < 2 ^ 64) ∧
      ∃ reason, guard.zones base size pageSize = refuse reason) ∨
    (Paged base pageSize ∧ 2 ^ 64 ≤ guard.guardedPages ∧
      guard.zones base size pageSize = .error (.fault .addition)) := by
  by_cases hfault : Paged base pageSize ∧ 2 ^ 64 ≤ guard.guardedPages
  · obtain ⟨hpaged, hlarge⟩ := hfault
    exact Or.inr (Or.inr ⟨hpaged, hlarge, zones_of_guardedPages_le hpaged hlarge⟩)
  have hpages : Paged base pageSize → guard.guardedPages < 2 ^ 64 := by
    intro hpaged
    exact Nat.lt_of_not_le fun hlarge => hfault ⟨hpaged, hlarge⟩
  by_cases hadmits : guard.Admits base size pageSize
  · have hsum := hpages hadmits.paged
    exact Or.inl ⟨hadmits, hsum, exists_zones hsum hadmits⟩
  · obtain ⟨reason, hrefuses⟩ := exists_refuses_of_not_admits hadmits
    exact Or.inr (Or.inl ⟨not_or_of_imp hpages, reason, hrefuses.zones_eq hpages⟩)

theorem admits_and_laysOut_of_zones (hz : guard.zones base size pageSize = .ok z) :
    guard.Admits base size pageSize ∧ guard.LaysOut base size pageSize z := by
  obtain ⟨hadmits, -, z', hz', hlays⟩ | ⟨-, reason, hrefused⟩ | ⟨-, -, hfault⟩ :=
    guard.zones_cases base size pageSize
  · rw [hz'] at hz
    cases hz
    exact ⟨hadmits, hlays⟩
  · rw [hrefused] at hz
    cases hz
  · rw [hfault] at hz
    cases hz

/-- Only the sum of the page counts can leave the words. -/
theorem zones_fault_iff : (∃ cause, guard.zones base size pageSize = .error (.fault cause)) ↔
    Paged base pageSize ∧ 2 ^ 64 ≤ guard.guardedPages := by
  constructor
  · rintro ⟨cause, hcause⟩
    obtain ⟨-, -, z, hz, -⟩ | ⟨-, reason, hrefused⟩ | ⟨hpaged, hlarge, -⟩ :=
      guard.zones_cases base size pageSize
    · rw [hz] at hcause
      cases hcause
    · rw [hrefused] at hcause
      cases hcause
    · exact ⟨hpaged, hlarge⟩
  · rintro ⟨hpaged, hlarge⟩
    exact ⟨_, zones_of_guardedPages_le hpaged hlarge⟩

/-! ## The verdict -/

theorem exists_zones_iff (hpages : guard.guardedPages < 2 ^ 64) :
    (∃ z, guard.zones base size pageSize = .ok z) ↔ guard.Admits base size pageSize := by
  constructor
  · rintro ⟨z, hz⟩
    exact (admits_and_laysOut_of_zones hz).1
  · intro hadmits
    obtain ⟨z, hz, -⟩ := exists_zones hpages hadmits
    exact ⟨z, hz⟩

theorem zones_eq_refuse_iff (hpages : guard.guardedPages < 2 ^ 64) :
    guard.zones base size pageSize = refuse reason ↔
      guard.Refuses base size pageSize reason := by
  constructor
  · intro hrefused
    have hadmits : ¬ guard.Admits base size pageSize := by
      intro hadmits
      obtain ⟨z, hz, -⟩ := exists_zones hpages hadmits
      cases hz.symm.trans hrefused
    -- a stack is refused for one reason only, so that any reason is the one given
    obtain ⟨other, hother⟩ := exists_refuses_of_not_admits hadmits
    have heq := hother.zones_eq fun _ => hpages
    rwa [refuse_inj.1 (hrefused.symm.trans heq)]
  · intro hrefuses
    exact hrefuses.zones_eq fun _ => hpages

/-- A guard whose counts have a sum gets its zones on every stack with room for them, and
on every other stack the first thing that is wrong is reported. -/
theorem zones_verdict (hpages : guard.guardedPages < 2 ^ 64) (base size pageSize : Word) :
    (∀ cause, guard.zones base size pageSize ≠ .error (.fault cause)) ∧
    ((∃ z, guard.zones base size pageSize = .ok z) ↔
      IsPowerOfTwo pageSize ∧ pageSize.toNat ∣ base.toNat ∧
        guard.neededBytes pageSize < 2 ^ 64 ∧ guard.neededBytes pageSize ≤ size.toNat ∧
          size.toNat ≤ base.toNat) ∧
    ∀ reason, guard.zones base size pageSize = refuse reason ↔
      guard.Refuses base size pageSize reason := by
  refine ⟨?_, ?_, ?_⟩
  · intro cause hcause
    exact absurd hpages (Nat.not_lt.2 (zones_fault_iff.1 ⟨cause, hcause⟩).2)
  · rw [exists_zones_iff hpages]
    constructor
    · rintro ⟨⟨hpower, hdvd⟩, hneeded, hsize⟩
      exact ⟨hpower, hdvd, hneeded.trans_lt size.toNat_lt, hneeded, hsize⟩
    · rintro ⟨hpower, hdvd, -, hneeded, hsize⟩
      exact ⟨⟨hpower, hdvd⟩, hneeded, hsize⟩
  · intro reason
    exact zones_eq_refuse_iff hpages

/-- Pages of 2 EiB, too large for twenty-four of them to have a size, and a stack of
eight pages for zones of twenty-four. -/
theorem zones_verdict_mips64 :
    guardedPages ⟨⟨2, 1, 1, 20⟩⟩ < 2 ^ 64 ∧
      zones ⟨⟨2, 1, 1, 20⟩⟩ 0x8000000000000000 0x4000000000000000 0x2000000000000000 =
        refuse (.pageSize 0x2000000000000000) ∧
      zones ⟨⟨2, 1, 1, 20⟩⟩ 0x7fff00000000 0x8000 0x1000 =
        refuse (.stackTooSmall 0x8000 0x18000) := by
  have hpages : guardedPages ⟨⟨2, 1, 1, 20⟩⟩ < 2 ^ 64 := by decide
  obtain ⟨-, -, hlarge⟩ :=
    zones_verdict hpages 0x8000000000000000 0x4000000000000000 0x2000000000000000
  obtain ⟨-, -, hsmall⟩ := zones_verdict hpages 0x7fff00000000 0x8000 0x1000
  exact ⟨hpages, (hlarge _).2 (.tooManyBytes ⟨by decide, by decide⟩ (by decide)),
    (hsmall _).2 (.stackTooSmall ⟨by decide, by decide⟩ rfl (by decide))⟩

end StackGuard

end RuntimeTargets
