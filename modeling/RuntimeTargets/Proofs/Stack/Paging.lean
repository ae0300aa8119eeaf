import RuntimeTargets.Proofs.Stack.Regions

/-!
# Guard zones and pages

Access is taken away from a guard zone page by page, so that a zone is of use only if it
starts and stops where pages do.  The zones are measured in pages from the bottom of the
stack upward, and it is the base of a stack that is known to be a bound of a page.
Whether the bottom is one is left to the size of the stack: all bounds of the zones are
bounds of pages, or none is.
-/

namespace RuntimeTargets

/-! ## Spans of whole pages -/

namespace Span

/-- A span that holds an address holds the whole page of that address. -/
def HoldsPages (s : Span) (pageSize : Word) : Prop :=
  ∀ address ∈ s, ∀ other : Word,
    other.toNat / pageSize.toNat = address.toNat / pageSize.toNat → other ∈ s

variable {s : Span} {pageSize : Word}

theorem holdsPages_of_dvd (hpos : 0 < pageSize.toNat)
    (hstart : pageSize.toNat ∣ s.start.toNat) (hstop : pageSize.toNat ∣ s.stop.toNat) :
    s.HoldsPages pageSize := by
  obtain ⟨first, hfirst⟩ := hstart
  obtain ⟨last, hlast⟩ := hstop
  have hmem : ∀ address : Word, address ∈ s ↔
      first ≤ address.toNat / pageSize.toNat ∧ address.toNat / pageSize.toNat < last := by
    intro address
    rw [mem_iff, UInt64.le_iff_toNat_le, UInt64.lt_iff_toNat_lt, hfirst, hlast,
      Nat.le_div_iff_mul_le hpos, Nat.div_lt_iff_lt_mul hpos, Nat.mul_comm first,
      Nat.mul_comm last]
  intro address haddress other hpage
  rw [hmem, hpage]
  exact (hmem address).1 haddress

/-- The page of the first address starts no earlier than the span. -/
theorem HoldsPages.dvd_start (h : s.HoldsPages pageSize) (hpos : 0 < pageSize.toNat)
    (hsome : s.start < s.stop) : pageSize.toNat ∣ s.start.toNat := by
  have hfloor := Nat.div_mul_le_self s.start.toNat pageSize.toNat
  obtain ⟨first, hfirst⟩ := Word.exists_toNat_eq (hfloor.trans_lt s.start.toNat_lt)
  have hpage : first.toNat / pageSize.toNat = s.start.toNat / pageSize.toNat := by
    rw [hfirst, Nat.mul_div_cancel _ hpos]
  have hle := (h s.start ⟨UInt64.le_refl _, hsome⟩ first hpage).1
  rw [UInt64.le_iff_toNat_le, hfirst] at hle
  exact Dvd.intro_left _ (Nat.le_antisymm hfloor hle)

end Span

/-! ## The bounds of the zones -/

namespace StackZones

variable {z : StackZones} {bound : Word}

/-- Where the guard zones start and stop, where the usable part starts, and the lowest
stack pointer from which the shadow pages can be touched. -/
def bounds (z : StackZones) : List Word :=
  (z.guardZones.flatMap fun zone => [zone.start, zone.stop]) ++
    [z.usable.start, z.shadowSafeLimit]

theorem mem_bounds_iff : bound ∈ z.bounds ↔
    (∃ zone ∈ z.guardZones, bound = zone.start ∨ bound = zone.stop) ∨
      bound = z.usable.start ∨ bound = z.shadowSafeLimit := by
  simp [bounds]

end StackZones

namespace StackGuard

variable {guard : StackGuard} {base size pageSize bound : Word} {z : StackZones} {zone : Span}

/-- An address lies a number of pages above the bottom of a stack. -/
def PagesAbove (bottom pageSize address : Word) : Prop :=
  ∃ pages, address.toNat = bottom.toNat + pages * pageSize.toNat

namespace PagesAbove

variable {bottom : Word} {pages : ℕ}

theorem refl (bottom pageSize : Word) : PagesAbove bottom pageSize bottom :=
  ⟨0, by rw [Nat.zero_mul, Nat.add_zero]⟩

theorem stop (h : PagesAbove bottom pageSize bound)
    (hzone : zone.RunsFrom bound (pages * pageSize.toNat)) :
    PagesAbove bottom pageSize zone.stop := by
  obtain ⟨below, hbelow⟩ := h
  refine ⟨below + pages, ?_⟩
  calc
    zone.stop.toNat = bound.toNat + pages * pageSize.toNat := hzone.2
    _ = bottom.toNat + below * pageSize.toNat + pages * pageSize.toNat := by rw [hbelow]
    _ = bottom.toNat + (below + pages) * pageSize.toNat := by
      rw [Nat.add_mul, Nat.add_assoc]

theorem dvd_iff (h : PagesAbove bottom pageSize bound) :
    pageSize.toNat ∣ bound.toNat ↔ pageSize.toNat ∣ bottom.toNat := by
  obtain ⟨pages, hpages⟩ := h
  rw [hpages, Nat.dvd_add_left (Nat.dvd_mul_left _ _)]

end PagesAbove

namespace LaysOut

/-- Each guard zone takes pages from where the one below it stops. -/
theorem pagesAbove_of_mem_guardZones (h : guard.LaysOut base size pageSize z)
    (hzone : zone ∈ z.guardZones) :
    PagesAbove z.bottom pageSize zone.start ∧ PagesAbove z.bottom pageSize zone.stop := by
  have hbottom := PagesAbove.refl z.bottom pageSize
  have hred := hbottom.stop h.red
  have hyellow := hred.stop h.yellow
  rcases StackZones.mem_guardZones_iff.1 hzone with rfl | rfl | hsome
  · exact ⟨h.red.1 ▸ hbottom, hred⟩
  · exact ⟨h.yellow.1 ▸ hred, hyellow⟩
  · have hreserved := h.reserved_of_eq_some hsome
    exact ⟨hreserved.1 ▸ hyellow, hyellow.stop hreserved⟩

theorem pagesAbove_of_mem_bounds (h : guard.LaysOut base size pageSize z)
    (hbound : bound ∈ z.bounds) : PagesAbove z.bottom pageSize bound := by
  rcases StackZones.mem_bounds_iff.1 hbound with ⟨zone, hzone, rfl | rfl⟩ | rfl | rfl
  · exact (h.pagesAbove_of_mem_guardZones hzone).1
  · exact (h.pagesAbove_of_mem_guardZones hzone).2
  · exact ⟨guard.guardedPages, h.usable_start⟩
  · exact ⟨guard.guardedPages + guard.pages.shadow.toNat, by rw [h.safe_eq, neededBytes_eq_mul]⟩

/-- The base being a bound of a page, the bottom is one if the size is a number of pages. -/
theorem dvd_bottom_iff (h : guard.LaysOut base size pageSize z)
    (hpaged : Paged base pageSize) :
    pageSize.toNat ∣ z.bottom.toNat ↔ pageSize.toNat ∣ size.toNat := by
  have hsum : pageSize.toNat ∣ z.bottom.toNat + size.toNat := h.bottom_eq ▸ hpaged.2
  constructor
  · intro hbottom
    exact (Nat.dvd_add_right hbottom).1 hsum
  · intro hsize
    exact (Nat.dvd_add_left hsize).1 hsum

theorem dvd_iff_of_mem_bounds (h : guard.LaysOut base size pageSize z)
    (hpaged : Paged base pageSize) (hbound : bound ∈ z.bounds) :
    pageSize.toNat ∣ bound.toNat ↔ pageSize.toNat ∣ size.toNat :=
  (h.pagesAbove_of_mem_bounds hbound).dvd_iff.trans (h.dvd_bottom_iff hpaged)

theorem holdsPages_iff (h : guard.LaysOut base size pageSize z)
    (hpaged : Paged base pageSize) (hzone : zone ∈ z.guardZones)
    (hsome : zone.start < zone.stop) :
    zone.HoldsPages pageSize ↔ pageSize.toNat ∣ size.toNat := by
  have hpos : 0 < pageSize.toNat := Nat.pos_of_isPowerOfTwo hpaged.1
  obtain ⟨hstart, hstop⟩ := h.pagesAbove_of_mem_guardZones hzone
  rw [← h.dvd_bottom_iff hpaged]
  constructor
  · intro hpages
    exact hstart.dvd_iff.1 (hpages.dvd_start hpos hsome)
  · intro hbottom
    exact Span.holdsPages_of_dvd hpos (hstart.dvd_iff.2 hbottom) (hstop.dvd_iff.2 hbottom)

end LaysOut

/-- The zones lie on pages exactly if the stack is a number of pages long.  Otherwise no
bound is one of a page, and each guard zone with an address shares a page with others. -/
theorem zones_paged_iff (hz : guard.zones base size pageSize = .ok z) :
    ((∀ bound ∈ z.bounds, pageSize.toNat ∣ bound.toNat) ↔ pageSize.toNat ∣ size.toNat) ∧
    (¬ pageSize.toNat ∣ size.toNat → ∀ bound ∈ z.bounds, ¬ pageSize.toNat ∣ bound.toNat) ∧
    ∀ zone ∈ z.guardZones, zone.start < zone.stop →
      (zone.HoldsPages pageSize ↔ pageSize.toNat ∣ size.toNat) := by
  obtain ⟨hadmits, hlays⟩ := admits_and_laysOut_of_zones hz
  have hbounds : ∀ bound ∈ z.bounds,
      (pageSize.toNat ∣ bound.toNat ↔ pageSize.toNat ∣ size.toNat) :=
    fun bound hbound => hlays.dvd_iff_of_mem_bounds hadmits.paged hbound
  refine ⟨⟨?_, ?_⟩, ?_, ?_⟩
  · intro hall
    have hlimit : z.shadowSafeLimit ∈ z.bounds :=
      StackZones.mem_bounds_iff.2 (Or.inr (Or.inr rfl))
    exact (hbounds _ hlimit).1 (hall _ hlimit)
  · intro hsize bound hbound
    exact (hbounds bound hbound).2 hsize
  · intro hsize bound hbound
    exact mt (hbounds bound hbound).1 hsize
  · intro zone hzone hsome
    exact hlays.holdsPages_iff hadmits.paged hzone hsome

/-- A mebibyte and half a KiB below `0x7fff00000000`: the red page shares two pages with
what is around it. -/
theorem zones_paged_iff_overhanging :
    ∃ z, zones ⟨⟨2, 1, 1, 20⟩⟩ 0x7fff00000000 0x100200 0x1000 = .ok z ∧
      z.red = ⟨0x7ffeffeffe00, 0x7ffefff00e00⟩ ∧ ¬ z.red.HoldsPages 0x1000 ∧
      ∀ bound ∈ z.bounds, ¬ 0x1000 ∣ bound.toNat := by
  obtain ⟨-, hbounds, hzones⟩ :=
    @zones_paged_iff ⟨⟨2, 1, 1, 20⟩⟩ 0x7fff00000000 0x100200 0x1000 _ rfl
  have hsize : ¬ UInt64.toNat 0x1000 ∣ UInt64.toNat 0x100200 := by decide
  have hred := hzones _ (List.mem_cons_self ..) (by decide)
  exact ⟨_, rfl, rfl, mt hred.1 hsize, hbounds hsize⟩

/-- A size that is no number of pages is accepted, and no zone is on pages then. -/
theorem exists_zones_not_paged :
    ¬ ∀ (guard : StackGuard) (base size pageSize : Word) (z : StackZones),
      guard.zones base size pageSize = .ok z →
        ∀ bound ∈ z.bounds, pageSize.toNat ∣ bound.toNat := by
  intro hall
  have hbottom := hall ⟨⟨2, 1, 1, 20⟩⟩ 0x7fff00000000 0x100200 0x1000 _ rfl
    0x7ffeffeffe00 (List.mem_cons_self ..)
  exact absurd hbottom (by decide)

end StackGuard

end RuntimeTargets
