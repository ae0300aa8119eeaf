import RuntimeTargets.Proofs.Alignment.RoundingUp
import RuntimeTargets.Proofs.NativeCall.Signature

/-!
# The area of outgoing arguments

The arguments of a native call lie one behind the other in an area on the stack, whose
size is rounded to what the stack of a target is aligned to.  The target may be another
one than that of the signature.  A call has at most 514 slots and no alignment is more
than half of the words, so that the size is always a word.
-/

namespace RuntimeTargets.NativeSignature

open NativeArgument (ofKind)

variable {t u : Target} {kinds : List ValueKind} {isStatic : Bool} {s : NativeSignature}

theorem tallied_of_ofMethod (ht : t.Sound) (hs : ofMethod t kinds isStatic = .ok s) :
    s.Tallied ∧ s.slots.toNat ≤ 514 := by
  obtain ⟨hvoid, hfew⟩ := admits_of_ofMethod hs
  obtain ⟨s', hs', htallied, hlength, -⟩ := exists_ofMethod ht hvoid hfew isStatic
  rw [hs] at hs'
  cases hs'
  refine ⟨htallied, ?_⟩
  calc
    s.slots.toNat ≤ s.arguments.length * 2 := htallied.slots_le_length
    _ ≤ mostArguments * 2 := Nat.mul_le_mul_right 2 hlength

/-- The bytes that end with an argument are no more than those of all slots. -/
theorem Tallied.end_le (hs : s.Tallied) {earlier later : List NativeArgument}
    {a : NativeArgument} (harguments : s.arguments = earlier ++ a :: later) :
    (earlier.map fun b => b.slots.toNat).sum + a.slots.toNat ≤ s.slots.toNat := by
  rw [hs.slots_eq, harguments, List.map_append, List.sum_append, List.map_cons,
    List.sum_cons, ← Nat.add_assoc]
  exact Nat.le_add_right _ _

theorem exists_outgoingBytes (hu : u.Sound) (hslots : s.slots.toNat ≤ 514) :
    ∃ bytes area : Word, s.outgoingBytes u = .ok bytes ∧ area.toNat = 4 * s.slots.toNat ∧
      Alignment.RoundsUp area u.stackAlignment bytes := by
  have hpower := hu.laws.stackAlignment.1
  have hhalf := Word.toNat_le_of_isPowerOfTwo hpower
  obtain ⟨area, harea⟩ := Word.exists_toNat_eq (n := 4 * s.slots.toNat) (by omega)
  have hmul : Word.mul s.slots NativeArgument.slotSize = .ok area := by
    rw [Word.mul_eq_ok_iff, harea, Nat.mul_comm]
    rfl
  have hfits : area.toNat + u.stackAlignment.toNat < 2 ^ 64 := by omega
  obtain ⟨bytes, hbytes, hup⟩ := Alignment.exists_roundUp hpower hfits
  refine ⟨bytes, area, ?_, harea, hup⟩
  rw [outgoingBytes, hmul]
  exact hbytes

/-- Every signature has an area on the stack of every sound target.  It is the smallest
aligned one with room for all slots, so that each argument ends in it, and less than one
unit of the alignment is left over. -/
theorem outgoingBytes_isLeast (ht : t.Sound) (hu : u.Sound)
    (hs : (resolve t kinds isStatic).value = .ok s) :
    ∃ bytes, s.outgoingBytes u = .ok bytes ∧
      IsLeast {n | u.stackAlignment.toNat ∣ n ∧ 4 * s.slots.toNat ≤ n} bytes.toNat ∧
      u.wordSize.toNat ∣ bytes.toNat ∧
      (∀ earlier a later, s.arguments = earlier ++ a :: later →
        4 * ((earlier.map fun b => b.slots.toNat).sum + a.slots.toNat) ≤ bytes.toNat) ∧
      bytes.toNat < 4 * s.slots.toNat + u.stackAlignment.toNat := by
  obtain ⟨htallied, hslots⟩ := tallied_of_ofMethod ht hs
  obtain ⟨bytes, area, hbytes, harea, hup⟩ := exists_outgoingBytes hu hslots
  have hleast := hup.isLeast
  rw [harea] at hleast
  refine ⟨bytes, hbytes, hleast, hu.laws.wordSize_dvd.trans hup.dvd, ?_, ?_⟩
  · intro earlier a later harguments
    exact (Nat.mul_le_mul_left 4 (htallied.end_le harguments)).trans hleast.1.2
  · rw [← harea]
    exact hup.lt_add (Nat.pos_of_isPowerOfTwo hu.laws.stackAlignment.1)

/-- Seven slots on a stack with the greatest alignment there is. -/
theorem outgoingBytes_isLeast_coarsest :
    Target.ppc64.Sound ∧
      Target.Sound { Target.mips64 with stackAlignment := 0x8000000000000000 } ∧
      ∃ s, (resolve .ppc64 [.int, .float, .long] false).value = .ok s ∧ s.slots = 7 ∧
        s.outgoingBytes { Target.mips64 with stackAlignment := 0x8000000000000000 } =
          .ok 0x8000000000000000 ∧
        IsLeast {n | 2 ^ 63 ∣ n ∧ 4 * s.slots.toNat ≤ n} (2 ^ 63) := by
  have hppc64 : Target.ppc64.Sound := by decide +kernel
  have hcoarsest : Target.Sound
      { Target.mips64 with stackAlignment := 0x8000000000000000 } := by decide +kernel
  have hs : (resolve .ppc64 [.int, .float, .long] false).value = .ok ⟨_, 7⟩ := rfl
  obtain ⟨bytes, hbytes, hleast, -⟩ := outgoingBytes_isLeast hppc64 hcoarsest hs
  cases hbytes
  exact ⟨hppc64, hcoarsest, _, hs, rfl, rfl, hleast⟩

end RuntimeTargets.NativeSignature
