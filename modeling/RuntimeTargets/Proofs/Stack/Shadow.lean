import RuntimeTargets.Proofs.Stack.Regions

/-!
# Touching the shadow pages

The shadow pages below the stack pointer are touched ahead of a call into native code,
so that an overflow is found before the call and not inside it.  The touch itself has to
stay in the usable part of the stack.  How far a stack pointer is above the start of that
part decides whether it does, so that there is a lowest stack pointer from which the
touch is safe, and every higher one is safe as well.
-/

namespace RuntimeTargets

/-- The `bytes` bytes that end at an address, where so many lie below it. -/
def Span.below (address bytes : Word) : Span := ⟨address - bytes, address⟩

theorem Span.mem_below_iff {address bytes stop : Word} (hroom : bytes ≤ stop) :
    address ∈ below stop bytes ↔
      stop.toNat ≤ address.toNat + bytes.toNat ∧ address.toNat < stop.toNat := by
  have hbytes := UInt64.le_iff_toNat_le.1 hroom
  change (stop - bytes ≤ address ∧ address < stop) ↔ _
  rw [UInt64.le_iff_toNat_le, UInt64.lt_iff_toNat_lt, UInt64.toNat_sub_of_le _ _ hroom]
  omega

namespace StackZones

variable {z : StackZones} {address bytes sp : Word}

/-- There are `bytes` bytes below a stack pointer, all of them usable. -/
structure Clears (z : StackZones) (bytes sp : Word) : Prop where
  bytes_le : bytes ≤ sp
  classify_eq : ∀ address ∈ Span.below sp bytes, z.classify address = .usable

/-- A usable address is in the stack and in no guard zone. -/
theorem Gapless.of_classify_eq_usable (h : z.Gapless) (hclass : z.classify address = .usable) :
    (z.bottom ≤ address ∧ address < z.base) ∧ ∀ zone ∈ z.guardZones, address ∉ zone := by
  have husable := h.classify_eq_usable_iff.1 hclass
  refine ⟨(h.mem_iff address).1 (Or.inr (Or.inr (Or.inr husable))), ?_⟩
  intro zone hzone hmem
  obtain ⟨region, hregion, hpart⟩ := exists_mem_parts_of_mem_guardZones hzone
  have hother := (h.classify_eq_iff (ne_outside_of_mem_parts hpart)).2 ⟨zone, hpart, hmem⟩
  exact hregion (hother.symm.trans hclass)

/-- Only the distance from the start of the usable part counts. -/
theorem Gapless.clears_iff (h : z.Gapless) (hstart : z.usable.start ≤ sp)
    (hbase : sp ≤ z.base) :
    z.Clears bytes sp ↔ z.usable.start.toNat + bytes.toNat ≤ sp.toNat := by
  rw [UInt64.le_iff_toNat_le] at hstart hbase
  constructor
  · rintro ⟨hroom, husable⟩
    have hbytes := UInt64.le_iff_toNat_le.1 hroom
    rcases Nat.eq_zero_or_pos bytes.toNat with hnone | hsome
    · rwa [hnone]
    -- the lowest byte is the one that could leave the usable part
    · have hlowest : (sp - bytes).toNat = sp.toNat - bytes.toNat :=
        UInt64.toNat_sub_of_le _ _ hroom
      have hmem : sp - bytes ∈ Span.below sp bytes := by
        rw [Span.mem_below_iff hroom]
        omega
      have hle := (h.classify_eq_usable_iff.1 (husable _ hmem)).1
      rw [UInt64.le_iff_toNat_le] at hle
      omega
  · intro hdistance
    have hroom : bytes ≤ sp := by
      rw [UInt64.le_iff_toNat_le]
      omega
    refine ⟨hroom, ?_⟩
    intro address hmem
    rw [Span.mem_below_iff hroom] at hmem
    rw [h.classify_eq_usable_iff, Span.mem_iff, UInt64.le_iff_toNat_le,
      UInt64.lt_iff_toNat_lt]
    change z.usable.start.toNat ≤ address.toNat ∧ address.toNat < z.base.toNat
    omega

end StackZones

namespace StackGuard

variable {guard : StackGuard} {base size pageSize shadow sp : Word} {z : StackZones}

theorem Admits.exists_shadow (h : guard.Admits base size pageSize) :
    ∃ shadow, guard.shadowBytes? pageSize = some shadow ∧
      shadow.toNat = guard.pages.shadow.toNat * pageSize.toNat := by
  have hfits : guard.pages.shadow.toNat * pageSize.toNat < 2 ^ 64 :=
    calc
      guard.pages.shadow.toNat * pageSize.toNat ≤ guard.neededBytes pageSize :=
        Nat.le_add_left _ _
      _ ≤ size.toNat := h.needed_le
      _ < 2 ^ 64 := size.toNat_lt
  obtain ⟨shadow, hshadow⟩ := Word.exists_toNat_eq hfits
  refine ⟨shadow, ?_, hshadow⟩
  rw [shadowBytes?_eq, Word.ofNat?_eq_some_iff, hshadow]

namespace LaysOut

/-- The limit leaves room for the shadow pages above the guard zones. -/
theorem safeLimit_eq (h : guard.LaysOut base size pageSize z) :
    z.shadowSafeLimit.toNat =
      z.usable.start.toNat + guard.pages.shadow.toNat * pageSize.toNat := by
  rw [h.safe_eq, h.usable_start, neededBytes, Nat.add_assoc]

theorem usable_start_le_safeLimit (h : guard.LaysOut base size pageSize z) :
    z.usable.start ≤ z.shadowSafeLimit := by
  rw [UInt64.le_iff_toNat_le, h.safeLimit_eq]
  exact Nat.le_add_right _ _

theorem safeLimit_le (h : guard.LaysOut base size pageSize z)
    (hadmits : guard.Admits base size pageSize) : z.shadowSafeLimit ≤ base := by
  rw [UInt64.le_iff_toNat_le]
  calc
    z.shadowSafeLimit.toNat = z.bottom.toNat + guard.neededBytes pageSize := h.safe_eq
    _ ≤ z.bottom.toNat + size.toNat := Nat.add_le_add_left hadmits.needed_le _
    _ = base.toNat := h.bottom_eq

/-- The shadow pages can be touched from the limit on. -/
theorem clears_iff (h : guard.LaysOut base size pageSize z)
    (hadmits : guard.Admits base size pageSize)
    (hshadow : shadow.toNat = guard.pages.shadow.toNat * pageSize.toNat)
    (hlow : z.usable.start ≤ sp) (hhigh : sp ≤ base) :
    z.Clears shadow sp ↔ z.shadowSafeLimit ≤ sp := by
  rw [(h.gapless hadmits).clears_iff hlow (h.base_eq ▸ hhigh), UInt64.le_iff_toNat_le,
    h.safeLimit_eq, hshadow]

end LaysOut

/-- The limit is the lowest stack pointer from which the shadow pages can be touched, and
from there up to the base no touch reaches a guard zone or leaves the stack. -/
theorem shadowSafeLimit_isLeast (hz : guard.zones base size pageSize = .ok z) :
    ∃ shadow, guard.shadowBytes? pageSize = some shadow ∧
      IsLeast {sp | z.usable.start ≤ sp ∧ sp ≤ base ∧ z.Clears shadow sp}
        z.shadowSafeLimit ∧
      ∀ sp, z.shadowSafeLimit ≤ sp → sp ≤ base →
        z.Clears shadow sp ∧ ∀ address ∈ Span.below sp shadow,
          (z.bottom ≤ address ∧ address < base) ∧ ∀ zone ∈ z.guardZones, address ∉ zone := by
  obtain ⟨hadmits, hlays⟩ := admits_and_laysOut_of_zones hz
  obtain ⟨shadow, hshadow, hexact⟩ := hadmits.exists_shadow
  have hstart := hlays.usable_start_le_safeLimit
  have hbase := hlays.safeLimit_le hadmits
  refine ⟨shadow, hshadow, ⟨?_, ?_⟩, ?_⟩
  · have hclears := (hlays.clears_iff hadmits hexact hstart hbase).2 (UInt64.le_refl _)
    exact ⟨hstart, hbase, hclears⟩
  · rintro sp ⟨hlow, hhigh, hclears⟩
    exact (hlays.clears_iff hadmits hexact hlow hhigh).1 hclears
  · intro sp hlow hhigh
    have hclears :=
      (hlays.clears_iff hadmits hexact (UInt64.le_trans hstart hlow) hhigh).2 hlow
    refine ⟨hclears, ?_⟩
    intro address hmem
    rw [← hlays.base_eq]
    exact (hlays.gapless hadmits).of_classify_eq_usable (hclears.classify_eq address hmem)

/-- A stack with no byte to spare: only its base is high enough. -/
theorem shadowSafeLimit_isLeast_tight :
    ∃ z, zones ⟨⟨2, 1, 1, 20⟩⟩ 0x7fff00000000 0x18000 0x1000 = .ok z ∧
      z.usable.start = 0x7ffefffec000 ∧ z.shadowSafeLimit = 0x7fff00000000 ∧
      IsLeast {sp | z.usable.start ≤ sp ∧ sp ≤ 0x7fff00000000 ∧ z.Clears 0x14000 sp}
        z.shadowSafeLimit := by
  refine ⟨_, rfl, by decide, by decide, ?_⟩
  obtain ⟨shadow, hshadow, hleast, -⟩ :=
    @shadowSafeLimit_isLeast ⟨⟨2, 1, 1, 20⟩⟩ 0x7fff00000000 0x18000 0x1000 _ rfl
  cases hshadow
  exact hleast

end StackGuard

end RuntimeTargets
