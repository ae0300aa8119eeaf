import RuntimeTargets.Proofs.ClassSpace.Placement
import RuntimeTargets.Proofs.Layout.Resolution
import RuntimeTargets.Proofs.NativeCall.Signature

/-!
# Arithmetic that stays in the words

Sizes, addresses and counts are words, and a sum, difference or shift that leaves them is
a fault.  On a sound target none of the consumers that place class spaces, settle layouts
or pass arguments ever comes to one, for arguments at the far end of the words as well.
What keeps them there is different each time: counts are bounded by the length of a list,
strides by what an alignment can be, and encodings by the invariant `Lawful`.  The only
sum left that can leave the words is that of a narrow value out of use.
-/

namespace RuntimeTargets

open ClassSpace

variable {t : Target}

/-! ## Slots -/

namespace NativeSignature

variable {kinds : List ValueKind} {isStatic : Bool}

/-- `methodSlots`, counted in words. -/
def countSlots (kinds : List ValueKind) : Checked Word :=
  kinds.foldlM (fun count kind => Word.add count (.ofNat kind.slots)) 0

theorem toNat_ofNat_slots (kind : ValueKind) :
    (UInt64.ofNat kind.slots).toNat = kind.slots := by
  cases kind <;> rfl

theorem exists_foldlM_add (kinds : List ValueKind) {count : Word}
    (hbound : count.toNat + methodSlots kinds < 2 ^ 64) :
    ∃ total, kinds.foldlM (fun count kind => Word.add count (.ofNat kind.slots)) count =
        .ok total ∧
      total.toNat = count.toNat + methodSlots kinds := by
  induction kinds generalizing count with
  | nil => exact ⟨count, rfl, rfl⟩
  | cons kind kinds ih =>
      rw [methodSlots, ← Nat.add_assoc] at hbound
      obtain ⟨sum, hsum⟩ :=
        Word.exists_toNat_eq (Nat.lt_of_le_of_lt (Nat.le_add_right _ _) hbound)
      have hadd : Word.add count (.ofNat kind.slots) = .ok sum := by
        rw [Word.add_eq_ok_iff, toNat_ofNat_slots, hsum]
      rw [← hsum] at hbound
      obtain ⟨total, hfold, htotal⟩ := ih hbound
      refine ⟨total, ?_, ?_⟩
      · rw [List.foldlM_cons, hadd]
        exact hfold
      · rw [htotal, hsum, methodSlots, Nat.add_assoc]

theorem exists_countSlots (hlength : kinds.length < 2 ^ 63) :
    ∃ total, countSlots kinds = .ok total ∧ total.toNat = methodSlots kinds := by
  have hbound : (0 : Word).toNat + methodSlots kinds < 2 ^ 64 := by
    rw [methodSlots_eq_sum, UInt64.toNat_zero, Nat.zero_add]
    exact sum_slots_lt hlength
  obtain ⟨total, hfold, htotal⟩ := exists_foldlM_add kinds hbound
  exact ⟨total, hfold, by rw [htotal, UInt64.toNat_zero, Nat.zero_add]⟩

theorem settled_ofMethod (ht : t.Sound) (kinds : List ValueKind) (isStatic : Bool) :
    Settled (ofMethod t kinds isStatic) := by
  by_cases hvoid : .void ∈ kinds
  · exact Or.inr ⟨_, ofMethod_of_void hvoid⟩
  by_cases hmany : 255 < (kinds.map ValueKind.slots).sum
  · exact Or.inr ⟨_, ofMethod_of_many hvoid hmany⟩
  · obtain ⟨s, hs, -⟩ := exists_ofMethod ht hvoid (Nat.le_of_not_lt hmany) isStatic
    exact Or.inl ⟨s, hs⟩

end NativeSignature

/-! ## Heaps -/

theorem Layout.toNat_maxHeap (pageSize : Word) :
    (maxHeap pageSize).toNat = 2 ^ 35 - pageSize.toNat := by
  have hreach : heapReach.toNat = 2 ^ 35 := rfl
  unfold maxHeap Word.subSaturating
  split
  · rename_i hle
    rw [UInt64.toNat_sub_of_le _ _ hle, hreach]
  · rename_i hgt
    rw [UInt64.le_iff_toNat_le, hreach] at hgt
    rw [UInt64.toNat_zero]
    omega

/-! ## Walks -/

namespace Candidates

variable {c : Candidates} {requested size : Word}

theorem stride_of_ofTarget (hc : ofTarget t requested size = .ok c) :
    c.stride = t.classSpaceAlignment.getD 0 := by
  unfold ofTarget at hc
  cases halignment : t.classSpaceAlignment with
  | none =>
      rw [halignment] at hc
      cases hc
      rfl
  | some alignment =>
      rw [halignment] at hc
      obtain ⟨aligned, -, hreturn⟩ := bind_eq_ok_iff.1 hc
      cases hreturn
      rfl

theorem toNat_nextStride_le (hstride : c.stride.toNat ≤ 2 ^ 63) :
    c.nextStride.toNat ≤ 2 ^ 63 := by
  rw [toNat_nextStride]
  split <;> omega

/-- A step keeps the bound on strides. -/
theorem stride_advance_le (hstride : c.stride.toNat ≤ 2 ^ 63) :
    c.advance.2.stride.toNat ≤ 2 ^ 63 := by
  cases hdetour : c.detour with
  | some address =>
      rw [advance_detour hdetour]
      exact hstride
  | none =>
      by_cases hended : c.stride = 0 ∨ searchLimit ≤ c.position
      · rw [advance_ended hdetour hended]
        exact hstride
      · rw [advance_moved hdetour hended]
        exact toNat_nextStride_le hstride

theorem stride_split_le (hstride : c.stride.toNat ≤ 2 ^ 63) (count : ℕ) :
    (c.split count).2.stride.toNat ≤ 2 ^ 63 := by
  induction count generalizing c with
  | zero => exact hstride
  | succ count ih =>
      have hrest := stride_advance_le hstride
      rw [split]
      split
      · rename_i hnone
        rw [hnone] at hrest
        exact hrest
      · rename_i hsome
        rw [hsome] at hrest
        exact ih hrest

/-- Below the end of the search, the sum that leads to the next address is a word. -/
theorem add_nextStride (hstride : c.stride.toNat ≤ 2 ^ 63)
    (hposition : c.position < searchLimit) :
    Word.add c.position c.nextStride = .ok c.moved.position := by
  have hnext := toNat_nextStride_le hstride
  have hwithin : c.position.toNat < 2 ^ 40 := hposition
  rw [Word.add_eq_ok_iff, toNat_position_moved]
  omega

theorem add_nextStride_split (ht : t.Sound) (hc : ofTarget t requested size = .ok c)
    (count : ℕ) (hposition : (c.split count).2.position < searchLimit) :
    Word.add (c.split count).2.position (c.split count).2.nextStride =
      .ok (c.split count).2.moved.position := by
  have hstride : c.stride.toNat ≤ 2 ^ 63 := by
    rw [stride_of_ofTarget hc]
    cases halignment : t.classSpaceAlignment with
    | none => exact Nat.zero_le _
    | some alignment =>
        exact Word.toNat_le_of_isPowerOfTwo (ht.isPowerOfTwo_classSpaceAlignment halignment)
  exact add_nextStride (stride_split_le hstride count) hposition

end Candidates

/-! ## Encodings -/

namespace ClassEncoding

variable {e : ClassEncoding}

theorem exists_ofSpace (address size : Word) : ∃ answer, ofSpace address size = .ok answer := by
  by_cases hfits : Fits address size
  · obtain ⟨e, he, -⟩ := ofSpace_of_fits hfits
    exact ⟨some e, he⟩
  · exact ⟨none, ofSpace_of_not_fits hfits⟩

theorem Lawful.exists_encode (h : e.Lawful) (address : Word) :
    ∃ answer, e.encode address = .ok answer := by
  by_cases hreaches : e.Reaches address
  · exact ⟨_, h.encode_of_reaches hreaches⟩
  · exact ⟨_, h.encode_of_not_reaches hreaches⟩

theorem Lawful.range_le_of_decode {narrow : UInt32} {cause : ArithmeticFault} (h : e.Lawful)
    (hfault : e.decode narrow = .error cause) : e.range.toNat ≤ narrow.toNat * e.unit := by
  by_contra huses
  rw [h.decode_of_uses (Nat.lt_of_not_le huses)] at hfault
  cases hfault

end ClassEncoding

/-! ## All of it -/

/-- The arithmetic of the consumers that calculate for a target has a value for all
arguments. -/
structure Target.StaysInWords (t : Target) : Prop where
  slots : ∀ kinds : List ValueKind, kinds.length < 2 ^ 63 →
    ∃ total, NativeSignature.countSlots kinds = .ok total ∧
      total.toNat = NativeSignature.methodSlots kinds
  calls : ∀ kinds isStatic cause,
    (NativeSignature.resolve t kinds isStatic).value ≠ .error (.fault cause)
  /-- The one difference that decides on a layout is held at zero. -/
  heaps : ∀ pageSize, (Layout.maxHeap pageSize).toNat = 2 ^ 35 - pageSize.toNat
  layouts : ∀ request, (Layout.resolve t request).value.validate t = .ok ()
  /-- No step of a walk comes to the end of the words. -/
  walks : ∀ requested size, ∃ c, Candidates.ofTarget t requested size = .ok c ∧
    ∀ count, (c.split count).2.position < searchLimit →
      Word.add (c.split count).2.position (c.split count).2.nextStride =
        .ok (c.split count).2.moved.position
  encodings : ∀ address size, ∃ answer, ClassEncoding.ofSpace address size = .ok answer ∧
    ∀ e, answer = some e → e.shift.toNat < 64 ∧
      (∀ klass, ∃ narrow, e.encode klass = .ok narrow) ∧
      ∀ narrow cause, e.decode narrow = .error cause →
        e.range.toNat ≤ narrow.toNat * 2 ^ e.shift.toNat
  places : ∀ {σ : Type} (requested size : Word) (reserve : Reserve σ) (state : σ),
    ∃ p, place t requested size reserve state = .ok p

/-- No consumer of a sound target comes to an arithmetic fault, whatever it is asked and
whatever a reservation routine answers, and what an encoding does not decode is out of
its range. -/
theorem staysInWords_of_sound (ht : t.Sound) : t.StaysInWords where
  slots kinds hlength := NativeSignature.exists_countSlots hlength
  calls kinds isStatic :=
    settled_iff_forall_ne_fault.1 (NativeSignature.settled_ofMethod ht kinds isStatic)
  heaps := Layout.toNat_maxHeap
  layouts request := Layout.validate_eq_ok_iff.2 Layout.supported_resolve
  walks requested size := by
    obtain ⟨c, hc⟩ := Candidates.exists_ofTarget ht requested size
    exact ⟨c, hc, Candidates.add_nextStride_split ht hc⟩
  encodings address size := by
    obtain ⟨answer, hanswer⟩ := ClassEncoding.exists_ofSpace address size
    refine ⟨answer, hanswer, ?_⟩
    rintro e rfl
    have hlawful := ClassEncoding.lawful_of_ofSpace hanswer
    have hshift := hlawful.shift_le
    exact ⟨by omega, hlawful.exists_encode, fun _ _ => hlawful.range_le_of_decode⟩
  places requested size reserve state := by
    by_cases hsize : Encodable size
    · obtain ⟨-, p, -, hp, -⟩ := exists_place ht requested hsize reserve state
      exact ⟨p, hp⟩
    · exact ⟨_, place_of_not_encodable hsize⟩

/-- A placement at the end of the address space, where nothing is left to try, and a
small space there, of which a value out of use leaves the words. -/
theorem staysInWords_of_sound_mips64 :
    Target.mips64.Sound ∧
      (∃ p, place Target.mips64 0xfffffffffffff000 gibibyte
        (fun _ _ _ => (false, ())) () = .ok p) ∧
      ClassEncoding.ofSpace 0xfffffffffffff000 0x800 =
        .ok (some ⟨0xfffffffffffff000, 0, 0x800⟩) ∧
      ClassEncoding.decode ⟨0xfffffffffffff000, 0, 0x800⟩ 0x1000 = .error .addition ∧
      0x800 ≤ 0x1000 * 2 ^ 0 := by
  have hsound : Target.mips64.Sound := Target.sound_of_mem_all _ (by simp [Target.all])
  have hstays := staysInWords_of_sound hsound
  have hspace : ClassEncoding.ofSpace 0xfffffffffffff000 0x800 =
      .ok (some ⟨0xfffffffffffff000, 0, 0x800⟩) := by decide
  have hfault : ClassEncoding.decode ⟨0xfffffffffffff000, 0, 0x800⟩ 0x1000 =
      .error .addition := by decide
  obtain ⟨answer, hanswer, hencoding⟩ := hstays.encodings 0xfffffffffffff000 0x800
  rw [hspace] at hanswer
  cases hanswer
  obtain ⟨-, -, hdecode⟩ := hencoding _ rfl
  exact ⟨hsound, hstays.places _ _ _ _, hspace, hfault, hdecode 0x1000 .addition hfault⟩

end RuntimeTargets
