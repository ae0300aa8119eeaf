import RuntimeTargets.ClassSpace.Encoding
import RuntimeTargets.Proofs.Alignment

/-!
# Narrowing is a bijection

An encoding measures addresses in whole units of `2 ^ shift` bytes from its base.
The invariant `Lawful` is what makes this exact: the range is at most `2 ^ 32`
units long, so every offset in it has a narrow form, and it ends inside the
address space, so every narrow form in use has an address.
-/

namespace RuntimeTargets.ClassSpace

@[simp]
theorem toNat_unscaledLimit : unscaledLimit.toNat = 2 ^ 32 := rfl

@[simp]
theorem toNat_zeroBasedLimit : zeroBasedLimit.toNat = 2 ^ 35 := rfl

/-- The space is encodable and ends inside the address space. -/
def Fits (address size : Word) : Prop :=
  0 < size.toNat ∧ size.toNat ≤ 2 ^ 35 ∧ address.toNat + size.toNat < 2 ^ 64

theorem encodable_iff {size : Word} :
    Encodable size ↔ 0 < size.toNat ∧ size.toNat ≤ 2 ^ 35 := by
  rw [Encodable, UInt64.le_iff_toNat_le, toNat_zeroBasedLimit, ne_eq,
    ← UInt64.toNat_inj, Nat.pos_iff_ne_zero]
  rfl

end RuntimeTargets.ClassSpace

namespace RuntimeTargets.ClassEncoding

open ClassSpace

variable {e : ClassEncoding} {address size stop : Word} {narrow : UInt32}

/-- Bytes from one encodable address to the next. -/
def unit (e : ClassEncoding) : ℕ := 2 ^ e.shift.toNat

/-- The address lies in the range, a whole number of units from the base. -/
structure Reaches (e : ClassEncoding) (address : Word) : Prop where
  base_le : e.base.toNat ≤ address.toNat
  lt_stop : address.toNat < e.base.toNat + e.range.toNat
  unit_dvd : e.unit ∣ address.toNat - e.base.toNat

/-- The narrow value stands for an address in the range. -/
def Uses (e : ClassEncoding) (narrow : UInt32) : Prop :=
  narrow.toNat * e.unit < e.range.toNat

/-- The offset in units, as the tests of `encode` leave it. -/
def narrowed (e : ClassEncoding) (address : Word) : UInt32 :=
  ((address - e.base) >>> e.shift).toUInt32

/-- The address of a narrow value, where the sum is a word. -/
def widened (e : ClassEncoding) (narrow : UInt32) : Word :=
  e.base + narrow.toUInt64 <<< e.shift

/-! ## The encoding of a class space -/

/-- The encoding that a space of `size` bytes at `address` gets. -/
structure Describes (e : ClassEncoding) (address size : Word) : Prop where
  base_eq : e.base.toNat =
    if address.toNat + size.toNat ≤ 2 ^ 35 then 0 else address.toNat
  stop_eq : e.base.toNat + e.range.toNat = address.toNat + size.toNat
  shift_eq : e.shift.toNat = if e.range.toNat < 2 ^ 32 then 0 else 3

/-- The encoding of the addresses from `address` to `stop`. -/
def upTo (address stop : Word) : ClassEncoding :=
  let base := if stop ≤ zeroBasedLimit then 0 else address
  { base
    shift := if stop - base < unscaledLimit then 0 else logClassAlignment
    range := stop - base }

theorem toNat_base_upTo (address stop : Word) : (upTo address stop).base.toNat =
    if stop.toNat ≤ 2 ^ 35 then 0 else address.toNat := by
  simp only [upTo, apply_ite UInt64.toNat, UInt64.le_iff_toNat_le, toNat_zeroBasedLimit,
    UInt64.toNat_zero]

theorem base_upTo_le (hle : address.toNat ≤ stop.toNat) :
    (upTo address stop).base.toNat ≤ stop.toNat := by
  rw [toNat_base_upTo]
  split <;> omega

theorem describes_upTo (hstop : Word.add? address size = some stop) :
    (upTo address stop).Describes address size := by
  have hexact := Word.add?_eq_some_iff.1 hstop
  have hbase : (upTo address stop).base.toNat ≤ stop.toNat := base_upTo_le (by omega)
  constructor
  · rw [toNat_base_upTo, hexact]
  · change _ + (stop - (upTo address stop).base).toNat = _
    rw [← hexact, UInt64.toNat_sub_of_le _ _ hbase]
    omega
  · simp only [upTo, apply_ite UInt64.toNat, UInt64.lt_iff_toNat_lt,
      toNat_unscaledLimit, UInt64.toNat_zero]
    rfl

theorem ofSpace_of_add? (hsize : Encodable size)
    (hstop : Word.add? address size = some stop) :
    ofSpace address size = .ok (some (upTo address stop)) := by
  have hexact := Word.add?_eq_some_iff.1 hstop
  have hbase : (upTo address stop).base.toNat ≤ stop.toNat := base_upTo_le (by omega)
  have hrange : Word.sub stop (upTo address stop).base =
      .ok (stop - (upTo address stop).base) := by
    rw [Word.sub_eq_ok_iff, UInt64.toNat_sub_of_le _ _ hbase]
    omega
  rw [ofSpace, if_pos hsize, hstop]
  change (Word.sub stop (upTo address stop).base >>= _) = _
  rw [hrange]
  rfl

theorem ofSpace_of_fits (hfits : Fits address size) :
    ∃ e, ofSpace address size = .ok (some e) ∧ e.Describes address size := by
  obtain ⟨hpos, hle, hstop⟩ := hfits
  obtain ⟨stop, hstop⟩ : ∃ stop, Word.add? address size = some stop := by
    rw [← Option.ne_none_iff_exists', ne_eq, Word.add?_eq_none_iff]
    omega
  have hsize : Encodable size := encodable_iff.2 ⟨hpos, hle⟩
  exact ⟨upTo address stop, ofSpace_of_add? hsize hstop, describes_upTo hstop⟩

theorem ofSpace_of_not_fits (hfits : ¬ Fits address size) :
    ofSpace address size = .ok none := by
  unfold ofSpace
  split
  · rename_i hencodable
    obtain ⟨hpos, hle⟩ := encodable_iff.1 hencodable
    have hstop : Word.add? address size = none := by
      rw [Word.add?_eq_none_iff]
      by_contra hlt
      exact hfits ⟨hpos, hle, Nat.lt_of_not_le hlt⟩
    rw [hstop]
  · rfl

theorem ofSpace_eq_some (he : ofSpace address size = .ok (some e)) :
    Fits address size ∧ e.Describes address size := by
  by_cases hfits : Fits address size
  · obtain ⟨e', he', hdescribes⟩ := ofSpace_of_fits hfits
    rw [he] at he'
    cases he'
    exact ⟨hfits, hdescribes⟩
  · rw [ofSpace_of_not_fits hfits] at he
    cases he

/-! ## The invariant -/

/-- The range is at most `2 ^ 32` units long and ends inside the address space. -/
structure Lawful (e : ClassEncoding) : Prop where
  shift_le : e.shift.toNat ≤ 3
  range_le : e.range.toNat ≤ 2 ^ 32 * e.unit
  stop_lt : e.base.toNat + e.range.toNat < 2 ^ 64

theorem Describes.lawful (h : e.Describes address size) (hfits : Fits address size) :
    e.Lawful := by
  obtain ⟨-, hle, hstop⟩ := hfits
  have hbase := h.base_eq
  have hsum := h.stop_eq
  have hshift := h.shift_eq
  have hrange : e.range.toNat ≤ 2 ^ 35 := by
    split at hbase <;> omega
  constructor
  · split at hshift <;> omega
  · rw [unit, hshift]
    split <;> omega
  · omega

theorem lawful_of_ofSpace (he : ofSpace address size = .ok (some e)) : e.Lawful := by
  obtain ⟨hfits, hdescribes⟩ := ofSpace_eq_some he
  exact hdescribes.lawful hfits

theorem unit_pos (e : ClassEncoding) : 0 < e.unit := Nat.two_pow_pos _

theorem Lawful.unit_le (h : e.Lawful) : e.unit ≤ 8 :=
  Nat.pow_le_pow_right (by decide) h.shift_le

/-! ## Narrow forms -/

/-- Scaling a narrow value never loses bits. -/
theorem Lawful.toNat_scaled (h : e.Lawful) (narrow : UInt32) :
    (narrow.toUInt64 <<< e.shift).toNat = narrow.toNat * e.unit := by
  have hnarrow := narrow.toNat_lt
  have hshift := h.shift_le
  have hunit := h.unit_le
  have hfits : narrow.toUInt64.toNat * 2 ^ e.shift.toNat < 2 ^ 64 := by
    change narrow.toNat * e.unit < 2 ^ 64
    nlinarith
  rw [Word.toNat_shiftLeft_of_lt (by omega) hfits]
  rfl

theorem Lawful.decode_eq_ok_iff (h : e.Lawful) :
    e.decode narrow = .ok address ↔
      address.toNat = e.base.toNat + narrow.toNat * e.unit := by
  rw [decode, Word.add_eq_ok_iff, h.toNat_scaled]

/-- The mask by which `encode` tests an offset covers the bits below one unit. -/
theorem Lawful.exists_unit_mask (h : e.Lawful) :
    ∃ mask, Word.sub ((1 : Word) <<< e.shift) 1 = .ok mask ∧
      mask.toNat + 1 = e.unit := by
  have hshift := h.shift_le
  have hunit := h.unit_le
  have hone : ((1 : Word) <<< e.shift).toNat = e.unit := by
    rw [Word.toNat_shiftLeft_of_lt (by omega)]
    · exact Nat.one_mul _
    · change 1 * e.unit < 2 ^ 64
      omega
  have hpower : Word.IsPowerOfTwo ((1 : Word) <<< e.shift) := ⟨e.shift.toNat, hone⟩
  obtain ⟨mask, hmask, hsucc⟩ := Alignment.exists_mask hpower
  exact ⟨mask, hmask, hsucc.trans hone⟩

/-- The three tests of `encode`, on the offset as a natural. -/
theorem Lawful.encode_of_base_le (h : e.Lawful)
    (hbase : e.base.toNat ≤ address.toNat) :
    e.encode address = .ok
      (if address.toNat - e.base.toNat < e.range.toNat ∧
          (address.toNat - e.base.toNat) % e.unit = 0 ∧
          (address.toNat - e.base.toNat) / e.unit < 2 ^ 32 then
        some (e.narrowed address)
      else
        none) := by
  obtain ⟨mask, hmask, hsucc⟩ := h.exists_unit_mask
  have hshift : e.shift.toNat < 64 := by
    have := h.shift_le
    omega
  have hle : ¬ address < e.base := UInt64.not_lt.2 hbase
  rw [encode, if_neg hle, hmask]
  change Except.ok (if address - e.base < e.range ∧ (address - e.base) &&& mask = 0 ∧
    (address - e.base) >>> e.shift < unscaledLimit then _ else _) = _
  simp only [UInt64.lt_iff_toNat_lt, ← UInt64.toNat_inj,
    Word.toNat_and_of_mask _ hsucc, Word.toNat_shiftRight_of_lt _ hshift,
    UInt64.toNat_sub_of_le _ _ hbase, toNat_unscaledLimit]
  rfl

theorem Lawful.units_lt (h : e.Lawful) (hreaches : e.Reaches address) :
    (address.toNat - e.base.toNat) / e.unit < 2 ^ 32 := by
  have hstop := hreaches.lt_stop
  have hbase := hreaches.base_le
  have hrange := h.range_le
  rw [Nat.div_lt_iff_lt_mul e.unit_pos]
  omega

theorem Lawful.toNat_narrowed (h : e.Lawful) (hreaches : e.Reaches address) :
    (e.narrowed address).toNat * e.unit = address.toNat - e.base.toNat := by
  have hshift := h.shift_le
  rw [narrowed, UInt64.toNat_toUInt32, Word.toNat_shiftRight_of_lt _ (by omega),
    UInt64.toNat_sub_of_le _ _ hreaches.base_le]
  change _ / e.unit % 2 ^ 32 * e.unit = _
  rw [Nat.mod_eq_of_lt (h.units_lt hreaches), Nat.div_mul_cancel hreaches.unit_dvd]

theorem Lawful.encode_of_reaches (h : e.Lawful) (hreaches : e.Reaches address) :
    e.encode address = .ok (some (e.narrowed address)) := by
  have hstop := hreaches.lt_stop
  have hbase := hreaches.base_le
  rw [h.encode_of_base_le hbase, if_pos]
  exact ⟨by omega, Nat.mod_eq_zero_of_dvd hreaches.unit_dvd, h.units_lt hreaches⟩

theorem Lawful.encode_of_not_reaches (h : e.Lawful)
    (hreaches : ¬ e.Reaches address) : e.encode address = .ok none := by
  by_cases hbase : e.base.toNat ≤ address.toNat
  · rw [h.encode_of_base_le hbase, if_neg]
    rintro ⟨hrange, hmod, -⟩
    exact hreaches ⟨hbase, by omega, Nat.dvd_of_mod_eq_zero hmod⟩
  · rw [encode, if_pos (UInt64.not_le.1 hbase)]

theorem Lawful.encode_eq_some_iff (h : e.Lawful) :
    e.encode address = .ok (some narrow) ↔
      e.Reaches address ∧ narrow.toNat * e.unit = address.toNat - e.base.toNat := by
  by_cases hreaches : e.Reaches address
  · rw [h.encode_of_reaches hreaches, Except.ok.injEq, Option.some.injEq,
      ← h.toNat_narrowed hreaches, Nat.mul_left_inj e.unit_pos.ne', UInt32.toNat_inj]
    constructor
    · intro heq
      exact ⟨hreaches, heq.symm⟩
    · rintro ⟨-, heq⟩
      exact heq.symm
  · rw [h.encode_of_not_reaches hreaches]
    constructor
    · intro heq
      cases heq
    · rintro ⟨habsurd, -⟩
      exact absurd habsurd hreaches

theorem Lawful.decode_of_encode (h : e.Lawful)
    (hencode : e.encode address = .ok (some narrow)) : e.decode narrow = .ok address := by
  obtain ⟨hreaches, hexact⟩ := h.encode_eq_some_iff.1 hencode
  have hbase := hreaches.base_le
  rw [h.decode_eq_ok_iff, hexact]
  omega

/-! ## The narrow values in use -/

theorem Lawful.toNat_widened (h : e.Lawful) (huses : e.Uses narrow) :
    (e.widened narrow).toNat = e.base.toNat + narrow.toNat * e.unit := by
  have hstop := h.stop_lt
  unfold Uses at huses
  rw [widened, UInt64.toNat_add, h.toNat_scaled, Nat.mod_eq_of_lt (by omega)]

theorem Lawful.decode_of_uses (h : e.Lawful) (huses : e.Uses narrow) :
    e.decode narrow = .ok (e.widened narrow) := by
  rw [h.decode_eq_ok_iff, h.toNat_widened huses]

/-- A narrow value that decodes at all is in use exactly if it decodes into the
reach of the encoding. -/
theorem Lawful.reaches_iff_uses (h : e.Lawful)
    (hdecode : e.decode narrow = .ok address) : e.Reaches address ↔ e.Uses narrow := by
  rw [h.decode_eq_ok_iff] at hdecode
  constructor
  · intro hreaches
    have hstop := hreaches.lt_stop
    unfold Uses
    omega
  · intro huses
    unfold Uses at huses
    refine ⟨by omega, by omega, ?_⟩
    rw [hdecode, Nat.add_sub_cancel_left]
    exact Nat.dvd_mul_left _ _

theorem Lawful.reaches_widened (h : e.Lawful) (huses : e.Uses narrow) :
    e.Reaches (e.widened narrow) :=
  (h.reaches_iff_uses (h.decode_of_uses huses)).2 huses

theorem Lawful.uses_narrowed (h : e.Lawful) (hreaches : e.Reaches address) :
    e.Uses (e.narrowed address) :=
  (h.reaches_iff_uses (h.decode_of_encode (h.encode_of_reaches hreaches))).1 hreaches

/-- The encodable addresses and the narrow values in use, each in their order. -/
def Lawful.narrowing (h : e.Lawful) :
    {address // e.Reaches address} ≃o {narrow // e.Uses narrow} where
  toFun address := ⟨e.narrowed address.1, h.uses_narrowed address.2⟩
  invFun narrow := ⟨e.widened narrow.1, h.reaches_widened narrow.2⟩
  left_inv address := by
    have hbase := address.2.base_le
    apply Subtype.ext
    apply UInt64.toNat_inj.1
    rw [h.toNat_widened (h.uses_narrowed address.2), h.toNat_narrowed address.2]
    omega
  right_inv narrow := by
    apply Subtype.ext
    apply UInt32.toNat_inj.1
    apply Nat.eq_of_mul_eq_mul_right e.unit_pos
    rw [h.toNat_narrowed (h.reaches_widened narrow.2), h.toNat_widened narrow.2,
      Nat.add_sub_cancel_left]
  map_rel_iff' := by
    intro left right
    have hleft := left.2.base_le
    have hright := right.2.base_le
    change e.narrowed left.1 ≤ e.narrowed right.1 ↔ left.1 ≤ right.1
    rw [UInt32.le_iff_toNat_le, UInt64.le_iff_toNat_le,
      ← Nat.mul_le_mul_right_iff e.unit_pos, h.toNat_narrowed left.2,
      h.toNat_narrowed right.2]
    omega

/-- `encode` and `decode` are total on the range and inverse to one another. -/
structure Faithful (e : ClassEncoding) : Prop where
  encode_some : ∀ address narrow, e.encode address = .ok (some narrow) ↔
    e.Reaches address ∧ narrow.toNat * e.unit = address.toNat - e.base.toNat
  encode_reached : ∀ address, e.Reaches address →
    ∃ narrow, e.encode address = .ok (some narrow)
  encode_beyond : ∀ address, ¬ e.Reaches address → e.encode address = .ok none
  decode_encode : ∀ address narrow,
    e.encode address = .ok (some narrow) → e.decode narrow = .ok address
  encode_decode : ∀ narrow, e.Uses narrow →
    ∃ address, e.decode narrow = .ok address ∧ e.encode address = .ok (some narrow)
  /-- A value out of use may still decode, but not to anything encodable. -/
  encode_decode_unused : ∀ narrow address, ¬ e.Uses narrow →
    e.decode narrow = .ok address → e.encode address = .ok none
  /-- Narrowing keeps the order and misses no value in use. -/
  order_iso : ∃ f : {address // e.Reaches address} ≃o {narrow // e.Uses narrow},
    ∀ address, e.encode address.1 = .ok (some (f address).1) ∧
      e.decode (f address).1 = .ok address.1

theorem Lawful.faithful (h : e.Lawful) : e.Faithful where
  encode_some _ _ := h.encode_eq_some_iff
  encode_reached address hreaches := ⟨e.narrowed address, h.encode_of_reaches hreaches⟩
  encode_beyond _ := h.encode_of_not_reaches
  decode_encode _ _ := h.decode_of_encode
  encode_decode narrow huses := by
    have hdecode := h.decode_of_uses huses
    have hexact := h.decode_eq_ok_iff.1 hdecode
    refine ⟨e.widened narrow, hdecode, h.encode_eq_some_iff.2 ?_⟩
    exact ⟨h.reaches_widened huses, by omega⟩
  encode_decode_unused narrow address huses hdecode :=
    h.encode_of_not_reaches (mt (h.reaches_iff_uses hdecode).1 huses)
  order_iso := by
    refine ⟨h.narrowing, ?_⟩
    intro address
    have hencode := h.encode_of_reaches address.2
    exact ⟨hencode, h.decode_of_encode hencode⟩

/-- A space has an encoding exactly if it is encodable and ends inside the
address space, and every encoding that a space has is faithful. -/
theorem ofSpace_faithful (address size : Word) :
    (∃ answer, ofSpace address size = .ok answer ∧
      (answer.isSome ↔ 0 < size.toNat ∧ size.toNat ≤ 2 ^ 35 ∧
        address.toNat + size.toNat < 2 ^ 64)) ∧
    ∀ e, ofSpace address size = .ok (some e) → e.Faithful := by
  constructor
  · by_cases hfits : Fits address size
    · obtain ⟨e, he, -⟩ := ofSpace_of_fits hfits
      exact ⟨some e, he, iff_of_true rfl hfits⟩
    · exact ⟨none, ofSpace_of_not_fits hfits, iff_of_false (by simp) hfits⟩
  · intro e he
    exact (lawful_of_ofSpace he).faithful

/-- The widest space there is, with a base that is not zero. -/
theorem ofSpace_faithful_widest :
    ofSpace 0x1000000000 0x800000000 =
        .ok (some ⟨0x1000000000, 3, 0x800000000⟩) ∧
      Faithful ⟨0x1000000000, 3, 0x800000000⟩ :=
  ⟨rfl, (ofSpace_faithful 0x1000000000 0x800000000).2 _ rfl⟩

end RuntimeTargets.ClassEncoding
