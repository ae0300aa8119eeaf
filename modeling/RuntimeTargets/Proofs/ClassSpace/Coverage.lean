import RuntimeTargets.Proofs.ClassSpace.Narrowing

/-!
# Which class structures an encoding covers

Class structures are aligned in memory, while an encoding counts units from its
base.  The two agree as long as the base is a multiple of the unit, and then all
class structures of the space have a narrow form.  A space whose encoding is
scaled and starts where the space does need not have such a base, and then none
of its class structures has one.
-/

namespace RuntimeTargets.ClassSpace

/-- Class structures start at multiples of this. -/
def classAlignment : ℕ := 2 ^ logClassAlignment.toNat

theorem classAlignment_eq : classAlignment = 8 := rfl

/-- A class structure may start at `address` in the `size` bytes from `start`. -/
structure HoldsClass (start size address : Word) : Prop where
  start_le : start.toNat ≤ address.toNat
  lt_stop : address.toNat < start.toNat + size.toNat
  aligned : classAlignment ∣ address.toNat

/-- The space ends in reach of a zero base, or needs no scale, or starts where a
class structure may. -/
def KeepsAlignment (start size : Word) : Prop :=
  start.toNat + size.toNat ≤ 2 ^ 35 ∨ size.toNat < 2 ^ 32 ∨ classAlignment ∣ start.toNat

/-- A space of at least eight bytes holds a class structure. -/
theorem exists_holdsClass {start size : Word} (hsize : 8 ≤ size.toNat)
    (hstop : start.toNat + size.toNat < 2 ^ 64) : ∃ address, HoldsClass start size address := by
  have hnat : (UInt64.ofNat ((start.toNat + 7) / 8 * 8)).toNat =
      (start.toNat + 7) / 8 * 8 := by
    rw [UInt64.toNat_ofNat', Nat.mod_eq_of_lt (by omega)]
  refine ⟨UInt64.ofNat ((start.toNat + 7) / 8 * 8), ?_, ?_, ?_⟩
  · rw [hnat]
    omega
  · rw [hnat]
    omega
  · rw [hnat, classAlignment_eq]
    exact Nat.dvd_mul_left _ _

end RuntimeTargets.ClassSpace

namespace RuntimeTargets.ClassEncoding

open ClassSpace

variable {e : ClassEncoding} {start size address : Word}

theorem Describes.unit_eq (h : e.Describes start size) :
    e.unit = if e.range.toNat < 2 ^ 32 then 1 else 8 := by
  rw [unit, h.shift_eq]
  split <;> rfl

theorem Describes.unit_dvd_base_iff (h : e.Describes start size) :
    e.unit ∣ e.base.toNat ↔ KeepsAlignment start size := by
  have hbase := h.base_eq
  have hstop := h.stop_eq
  rw [h.unit_eq]
  by_cases hlow : start.toNat + size.toNat ≤ 2 ^ 35
  · rw [hbase, if_pos hlow]
    exact iff_of_true (Nat.dvd_zero _) (Or.inl hlow)
  rw [if_neg hlow] at hbase
  have hrange : e.range.toNat = size.toNat := by omega
  rw [hbase, hrange]
  by_cases hshort : size.toNat < 2 ^ 32
  · rw [if_pos hshort]
    exact iff_of_true (Nat.one_dvd _) (Or.inr (Or.inl hshort))
  · rw [if_neg hshort, KeepsAlignment, or_iff_right hlow, or_iff_right hshort,
      classAlignment_eq]

/-- A space that loses the alignment is scaled, so it is not a small one. -/
theorem exists_holdsClass_of_not_keepsAlignment (hfits : Fits start size)
    (hloses : ¬ KeepsAlignment start size) : ∃ address, HoldsClass start size address := by
  obtain ⟨-, -, hstop⟩ := hfits
  simp only [KeepsAlignment, not_or] at hloses
  exact exists_holdsClass (by omega) hstop

/-- Either every class structure of the space is reached or none is. -/
theorem Describes.reaches_iff (h : e.Describes start size)
    (hholds : HoldsClass start size address) :
    e.Reaches address ↔ e.unit ∣ e.base.toNat := by
  obtain ⟨hstart, hlt, haligned⟩ := hholds
  have hstop := h.stop_eq
  have hbase : e.base.toNat ≤ start.toNat := by
    rw [h.base_eq]
    split <;> omega
  have hunit : e.unit ∣ address.toNat := by
    refine Nat.dvd_trans ?_ haligned
    rw [h.unit_eq, classAlignment_eq]
    split <;> decide
  have hle : e.base.toNat ≤ address.toNat := hbase.trans hstart
  constructor
  · intro hreaches
    exact (Nat.dvd_sub_iff_right hle hunit).1 hreaches.unit_dvd
  · intro hdvd
    exact ⟨hle, by omega, Nat.dvd_sub hunit hdvd⟩

theorem exists_narrow_of_keepsAlignment (he : ofSpace start size = .ok (some e))
    (hkeeps : KeepsAlignment start size) (hholds : HoldsClass start size address) :
    ∃ narrow, e.encode address = .ok (some narrow) ∧ e.decode narrow = .ok address := by
  obtain ⟨hfits, hdescribes⟩ := ofSpace_eq_some he
  have hlawful := hdescribes.lawful hfits
  have hreaches : e.Reaches address :=
    (hdescribes.reaches_iff hholds).2 (hdescribes.unit_dvd_base_iff.2 hkeeps)
  have hencode := hlawful.encode_of_reaches hreaches
  exact ⟨e.narrowed address, hencode, hlawful.decode_of_encode hencode⟩

/-- The class structures of a space can all be narrowed and widened again exactly
if the space keeps their alignment.  If it does not, none of them can. -/
theorem forall_class_encodes_iff (he : ofSpace start size = .ok (some e)) :
    ((∀ address, HoldsClass start size address →
        ∃ narrow, e.encode address = .ok (some narrow) ∧
          e.decode narrow = .ok address) ↔ KeepsAlignment start size) ∧
    (¬ KeepsAlignment start size →
      ∀ address, HoldsClass start size address → e.encode address = .ok none) := by
  obtain ⟨hfits, hdescribes⟩ := ofSpace_eq_some he
  have hlawful := hdescribes.lawful hfits
  have hrefused : ¬ KeepsAlignment start size →
      ∀ address, HoldsClass start size address → e.encode address = .ok none := by
    intro hloses address hholds
    apply hlawful.encode_of_not_reaches
    rw [hdescribes.reaches_iff hholds, hdescribes.unit_dvd_base_iff]
    exact hloses
  refine ⟨⟨?_, ?_⟩, hrefused⟩
  · intro hall
    by_contra hloses
    obtain ⟨address, hholds⟩ := exists_holdsClass_of_not_keepsAlignment hfits hloses
    obtain ⟨narrow, hencode, -⟩ := hall address hholds
    rw [hrefused hloses address hholds] at hencode
    cases hencode
  · intro hkeeps address hholds
    have hbase := hdescribes.unit_dvd_base_iff.2 hkeeps
    have hencode := hlawful.encode_of_reaches ((hdescribes.reaches_iff hholds).2 hbase)
    exact ⟨e.narrowed address, hencode, hlawful.decode_of_encode hencode⟩

/-- Four gibibytes that start one byte past the reach of a zero base. -/
theorem forall_class_encodes_iff_unaligned :
    ofSpace 0x800000001 0x100000000 = .ok (some ⟨0x800000001, 3, 0x100000000⟩) ∧
      ¬ KeepsAlignment 0x800000001 0x100000000 ∧
      ∀ address, HoldsClass 0x800000001 0x100000000 address →
        encode ⟨0x800000001, 3, 0x100000000⟩ address = .ok none := by
  have hloses : ¬ KeepsAlignment 0x800000001 0x100000000 := by
    unfold KeepsAlignment
    decide
  exact ⟨rfl, hloses, (forall_class_encodes_iff rfl).2 hloses⟩

/-- Their first class structure has no narrow form. -/
theorem exists_class_without_narrow_form :
    ¬ ∀ (start size : Word) (e : ClassEncoding),
      ofSpace start size = .ok (some e) → ∀ address, HoldsClass start size address →
        ∃ narrow, e.encode address = .ok (some narrow) ∧ e.decode narrow = .ok address := by
  intro hall
  have hholds : HoldsClass 0x800000001 0x100000000 0x800000008 :=
    ⟨by decide, by decide, by decide⟩
  obtain ⟨narrow, hencode, -⟩ :=
    hall 0x800000001 0x100000000 ⟨0x800000001, 3, 0x100000000⟩ rfl _ hholds
  have hnone :
      encode ⟨0x800000001, 3, 0x100000000⟩ 0x800000008 = .ok none := by decide
  rw [hnone] at hencode
  cases hencode

end RuntimeTargets.ClassEncoding
