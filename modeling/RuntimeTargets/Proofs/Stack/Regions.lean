import RuntimeTargets.Proofs.Stack.Arithmetic

/-!
# Every address of a stack is in one zone

The zones of a stack leave no gap between its bottom and its base.  An address is
classified by tests in a fixed order; because the zones are laid end to end, the order
does not matter, and the region of an address is that of the one zone that holds it.
-/

namespace RuntimeTargets

namespace StackZones

variable {z : StackZones} {address : Word} {region : StackRegion}

/-- The zones of a stack from the bottom up, each with its region. -/
def parts (z : StackZones) : List (StackRegion × Span) :=
  [(.red, z.red), (.yellow, z.yellow)] ++ z.reserved.toList.map (Prod.mk .reserved) ++
    [(.usable, z.usable)]

/-- The zones that no frame may use, from the bottom up. -/
def guardZones (z : StackZones) : List Span := [z.red, z.yellow] ++ z.reserved.toList

theorem mem_guardZones_iff {zone : Span} :
    zone ∈ z.guardZones ↔ zone = z.red ∨ zone = z.yellow ∨ z.reserved = some zone := by
  simp [guardZones]

theorem exists_mem_parts_of_mem_guardZones {zone : Span} (h : zone ∈ z.guardZones) :
    ∃ region, region ≠ .usable ∧ (region, zone) ∈ z.parts := by
  rcases mem_guardZones_iff.1 h with rfl | rfl | hreserved
  · exact ⟨.red, StackRegion.noConfusion, by simp [parts]⟩
  · exact ⟨.yellow, StackRegion.noConfusion, by simp [parts]⟩
  · exact ⟨.reserved, StackRegion.noConfusion, by simp [parts, hreserved]⟩

/-- The zones leave no gap between the bottom of the stack and its base. -/
def Gapless (z : StackZones) : Prop :=
  Span.Tile (z.parts.map Prod.snd) z.bottom z.base

theorem Gapless.mem_iff (h : z.Gapless) (address : Word) :
    (address ∈ z.red ∨ address ∈ z.yellow ∨
      (∃ zone, z.reserved = some zone ∧ address ∈ zone) ∨ address ∈ z.usable) ↔
    z.bottom ≤ address ∧ address < z.base := by
  rw [← Span.Tile.exists_mem_iff h]
  simp [parts]

/-- The tests of `classify` find the zone that holds an address. -/
theorem Gapless.classify_eq_find (h : z.Gapless) (address : Word) :
    z.classify address =
      ((z.parts.find? fun part => address ∈ part.2).map Prod.fst).getD .outside := by
  have hholds := h.mem_iff address
  by_cases hin : z.bottom ≤ address ∧ address < z.base
  · rw [classify, if_neg (by grind)]
    by_cases hred : address ∈ z.red
    · simp [parts, hred]
    by_cases hyellow : address ∈ z.yellow
    · simp [parts, hred, hyellow]
    cases hreserved : z.reserved with
    | none =>
        have husable : address ∈ z.usable := by
          simpa [hred, hyellow, hreserved] using hholds.2 hin
        simp [parts, hred, hyellow, hreserved, husable]
    | some zone =>
        by_cases hzone : address ∈ zone
        · simp [parts, hred, hyellow, hreserved, hzone]
        · have husable : address ∈ z.usable := by
            simpa [hred, hyellow, hreserved, hzone] using hholds.2 hin
          simp [parts, hred, hyellow, hreserved, hzone, husable]
  · rw [classify, if_pos (by grind), List.find?_eq_none.2]
    · rfl
    · intro part hpart hmem
      exact hin ((Span.Tile.exists_mem_iff h).1
        ⟨part.2, List.mem_map_of_mem hpart, of_decide_eq_true hmem⟩)

theorem Gapless.classify_eq_iff (h : z.Gapless) (hregion : region ≠ .outside) :
    z.classify address = region ↔ ∃ zone, (region, zone) ∈ z.parts ∧ address ∈ zone := by
  rw [h.classify_eq_find]
  constructor
  · intro hclass
    cases hfind : z.parts.find? (fun part => address ∈ part.2) with
    | none =>
        rw [hfind] at hclass
        exact absurd hclass.symm hregion
    | some part =>
        rw [hfind] at hclass
        obtain ⟨hpart, hmem⟩ := (Span.Tile.find?_eq_some_iff h).1 hfind
        cases hclass
        exact ⟨part.2, hpart, hmem⟩
  · rintro ⟨zone, hpart, hmem⟩
    rw [(Span.Tile.find?_eq_some_iff h).2 ⟨hpart, hmem⟩]
    rfl

theorem Gapless.classify_eq_usable_iff (h : z.Gapless) :
    z.classify address = .usable ↔ address ∈ z.usable := by
  rw [h.classify_eq_iff StackRegion.noConfusion]
  simp [parts]

theorem ne_outside_of_mem_parts {part : StackRegion × Span} (hpart : part ∈ z.parts) :
    part.1 ≠ .outside := by
  have hregions : .outside ∉ z.parts.map Prod.fst := by simp [parts]
  intro houtside
  exact hregions (houtside ▸ List.mem_map_of_mem hpart)

theorem Gapless.classify_eq_outside_iff (h : z.Gapless) :
    z.classify address = .outside ↔ ∀ part ∈ z.parts, address ∉ part.2 := by
  constructor
  · intro hclass part hpart hmem
    have hregion := (h.classify_eq_iff (ne_outside_of_mem_parts hpart)).2 ⟨part.2, hpart, hmem⟩
    rw [hclass] at hregion
    exact ne_outside_of_mem_parts hpart hregion.symm
  · intro hnone
    rw [h.classify_eq_find, List.find?_eq_none.2]
    · rfl
    · intro part hpart hmem
      exact hnone part hpart (of_decide_eq_true hmem)

end StackZones

namespace StackGuard

variable {guard : StackGuard} {base size pageSize : Word} {z : StackZones}

namespace LaysOut

theorem reserved_of_eq_some {zone : Span} (h : guard.LaysOut base size pageSize z)
    (hzone : z.reserved = some zone) :
    zone.RunsFrom z.yellow.stop (guard.pages.reserved.toNat * pageSize.toNat) := by
  by_cases hreserved : guard.HasReserved
  · obtain ⟨zone', hzone', hruns⟩ := h.reserved hreserved
    cases hzone.symm.trans hzone'
    exact hruns
  · cases hzone.symm.trans (h.unreserved hreserved)

/-- The usable part starts above the pages of all guard zones. -/
theorem usable_start (h : guard.LaysOut base size pageSize z) :
    z.usable.start.toNat = z.bottom.toNat + guard.guardedBytes pageSize := by
  have hred := h.red.2
  have hyellow := h.yellow.2
  rw [guardedBytes_eq_add]
  by_cases hreserved : guard.HasReserved
  · obtain ⟨zone, hzone, -, hstop⟩ := h.reserved hreserved
    have husable : z.usable.start = zone.stop := by rw [StackZones.usable, hzone]; rfl
    rw [husable]
    omega
  · have husable : z.usable.start = z.yellow.stop := by
      rw [StackZones.usable, h.unreserved hreserved]
      rfl
    have hnone : guard.pages.reserved = 0 := not_not.1 hreserved
    rw [husable, hnone, UInt64.toNat_zero, Nat.zero_mul]
    omega

theorem usable_start_le (h : guard.LaysOut base size pageSize z)
    (hadmits : guard.Admits base size pageSize) : z.usable.start ≤ z.usable.stop := by
  have hall : guard.guardedBytes pageSize ≤ guard.neededBytes pageSize :=
    Nat.le_add_right _ _
  have hsize := hadmits.needed_le
  have hbottom := h.bottom_eq
  change z.usable.start ≤ z.base
  rw [UInt64.le_iff_toNat_le, h.usable_start, h.base_eq]
  omega

theorem gapless (h : guard.LaysOut base size pageSize z)
    (hadmits : guard.Admits base size pageSize) : z.Gapless := by
  have husable := h.usable_start_le hadmits
  by_cases hreserved : guard.HasReserved
  · obtain ⟨zone, hzone, hruns⟩ := h.reserved hreserved
    have hparts : z.parts.map Prod.snd = [z.red, z.yellow, zone, z.usable] := by
      simp [StackZones.parts, hzone]
    have hstart : z.usable.start = zone.stop := by rw [StackZones.usable, hzone]; rfl
    rw [StackZones.Gapless, hparts]
    exact ⟨h.red.1, h.red.start_le_stop, h.yellow.1, h.yellow.start_le_stop,
      hruns.1, hruns.start_le_stop, hstart, husable, rfl⟩
  · have hnone := h.unreserved hreserved
    have hparts : z.parts.map Prod.snd = [z.red, z.yellow, z.usable] := by
      simp [StackZones.parts, hnone]
    have hstart : z.usable.start = z.yellow.stop := by rw [StackZones.usable, hnone]; rfl
    rw [StackZones.Gapless, hparts]
    exact ⟨h.red.1, h.red.start_le_stop, h.yellow.1, h.yellow.start_le_stop,
      hstart, husable, rfl⟩

end LaysOut

/-- What code that walks the zones of a stack relies on: they follow one another from
the end of the stack to its base, have their pages, and are what addresses are
classified by. -/
structure Partitions (guard : StackGuard) (base size pageSize : Word) (z : StackZones) :
    Prop where
  bottom_eq : z.bottom.toNat + size.toNat = base.toNat
  tile : Span.Tile (z.parts.map Prod.snd) z.bottom base
  red_size : z.red.size = guard.pages.red.toNat * pageSize.toNat
  yellow_size : z.yellow.size = guard.pages.yellow.toNat * pageSize.toNat
  reserved_size : ∀ zone, z.reserved = some zone →
    zone.size = guard.pages.reserved.toNat * pageSize.toNat
  reserved_eq_none_iff : z.reserved = none ↔ guard.pages.reserved = 0
  classify_iff : ∀ address region, region ≠ .outside →
    (z.classify address = region ↔ ∃ zone, (region, zone) ∈ z.parts ∧ address ∈ zone)
  classify_outside_iff : ∀ address,
    z.classify address = .outside ↔ ∀ part ∈ z.parts, address ∉ part.2

theorem LaysOut.partitions (h : guard.LaysOut base size pageSize z)
    (hadmits : guard.Admits base size pageSize) : guard.Partitions base size pageSize z where
  bottom_eq := h.bottom_eq
  tile := h.base_eq ▸ h.gapless hadmits
  red_size := h.red.size_eq
  yellow_size := h.yellow.size_eq
  reserved_size _ hzone := (h.reserved_of_eq_some hzone).size_eq
  reserved_eq_none_iff := by
    constructor
    · intro hnone
      by_contra hreserved
      obtain ⟨zone, hzone, -⟩ := h.reserved hreserved
      cases hnone.symm.trans hzone
    · intro hzero
      exact h.unreserved (not_not.2 hzero)
  classify_iff _ _ hregion := (h.gapless hadmits).classify_eq_iff hregion
  classify_outside_iff _ := (h.gapless hadmits).classify_eq_outside_iff

/-- Zones that are laid out partition the stack, whatever the page counts, the sizes and
the base are.  The supported targets resolve only guards whose counts have a sum. -/
theorem zones_partition :
    (∀ t ∈ Target.all, ∀ request guard, (resolve t request).value = .ok guard →
      guard.guardedPages < 2 ^ 64) ∧
    ∀ (guard : StackGuard) (base size pageSize : Word) (z : StackZones),
      guard.zones base size pageSize = .ok z → guard.Partitions base size pageSize z := by
  constructor
  · intro t ht request guard hguard
    exact guardedPages_lt_of_mem_all ht hguard
  · intro guard base size pageSize z hz
    obtain ⟨hadmits, hlays⟩ := admits_and_laysOut_of_zones hz
    exact hlays.partitions hadmits

/-- A mebibyte below `0x7fff00000000` in pages of 4 KiB. -/
theorem zones_partition_mips64 :
    (resolve Target.mips64 {}).value = .ok ⟨⟨2, 1, 1, 20⟩⟩ ∧
      guardedPages ⟨⟨2, 1, 1, 20⟩⟩ < 2 ^ 64 ∧
      ∃ z, zones ⟨⟨2, 1, 1, 20⟩⟩ 0x7fff00000000 0x100000 0x1000 = .ok z ∧
        Partitions ⟨⟨2, 1, 1, 20⟩⟩ 0x7fff00000000 0x100000 0x1000 z ∧
        z.reserved = some ⟨0x7ffefff03000, 0x7ffefff04000⟩ ∧
        z.classify 0x7ffefff03008 = .reserved := by
  have hguard : (resolve Target.mips64 {}).value = .ok ⟨⟨2, 1, 1, 20⟩⟩ := by decide
  have hpages := zones_partition.1 Target.mips64 (by simp [Target.all]) {} _ hguard
  exact ⟨hguard, hpages, _, rfl, zones_partition.2 _ _ _ _ _ rfl, by decide, by decide⟩

end StackGuard

end RuntimeTargets
