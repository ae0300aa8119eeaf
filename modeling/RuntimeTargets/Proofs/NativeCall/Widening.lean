import RuntimeTargets.Proofs.NativeCall.Outgoing

/-!
# Calls with integers widened and not

Whether a target wants integers widened is a choice of its calling convention that
nothing else hangs on.  The same method is called under both conventions or under
neither, with the same values in the same order; each narrow integer takes one slot more
where it is widened, and no other argument is passed differently.
-/

namespace RuntimeTargets

variable {t : Target} {kinds : List ValueKind} {isStatic : Bool}

/-- The target with one of the two conventions for integers. -/
def Target.withWidening (t : Target) (widens : Bool) : Target := { t with widensInts := widens }

theorem Target.Sound.withWidening (ht : t.Sound) (widens : Bool) :
    (t.withWidening widens).Sound := ht

/-! ## One argument -/

namespace NativeArgument

/-- The same value is passed, and differently only if it is a narrow integer: in one slot
and as it is, or in two slots and extended. -/
structure WidensTo (narrow wide : NativeArgument) : Prop where
  kind_eq : wide.kind = narrow.kind
  ne_iff : narrow ≠ wide ↔ narrow.kind.isSubwordInt
  subword : narrow.kind.isSubwordInt →
    narrow.slots = 1 ∧ narrow.extension = .none ∧
      wide.slots = 2 ∧ (wide.extension = .sign ∨ wide.extension = .zero)

theorem ofKind_withWidening_of_not_isSubwordInt {kind : ValueKind}
    (hkind : ¬ kind.isSubwordInt) (widens : Bool) :
    ofKind (t.withWidening widens) kind = ofKind t kind := by
  cases kind <;> first | rfl | exact absurd rfl hkind

theorem ofKind_withWidening_of_isSubwordInt {kind : ValueKind} (hkind : kind.isSubwordInt) :
    ofKind (t.withWidening false) kind = ⟨kind, 1, .none⟩ ∧
      ∃ extension, ofKind (t.withWidening true) kind = ⟨kind, 2, extension⟩ ∧
        (extension = .sign ∨ extension = .zero) := by
  cases kind with
  | boolean | char => exact ⟨rfl, .zero, rfl, Or.inr rfl⟩
  | byte | short | int => exact ⟨rfl, .sign, rfl, Or.inl rfl⟩
  | float | double | long | object | array | address | void => cases hkind

theorem ofKind_widensTo (t : Target) (kind : ValueKind) :
    (ofKind (t.withWidening false) kind).WidensTo (ofKind (t.withWidening true) kind) := by
  by_cases hkind : kind.isSubwordInt
  · obtain ⟨hnarrow, extension, hwide, hextension⟩ :=
      ofKind_withWidening_of_isSubwordInt (t := t) hkind
    rw [hnarrow, hwide]
    exact ⟨rfl, iff_of_true (fun h => by cases h) hkind, fun _ => ⟨rfl, rfl, rfl, hextension⟩⟩
  · have hsame : ofKind (t.withWidening true) kind = ofKind (t.withWidening false) kind := by
      rw [ofKind_withWidening_of_not_isSubwordInt hkind,
        ofKind_withWidening_of_not_isSubwordInt hkind]
    rw [hsame]
    refine ⟨rfl, iff_of_false (fun h => h rfl) ?_, ?_⟩ <;> rw [kind_ofKind]
    · exact hkind
    · exact fun h => absurd h hkind

theorem toNat_slots_withWidening (t : Target) (kind : ValueKind) :
    (ofKind (t.withWidening true) kind).slots.toNat =
      (ofKind (t.withWidening false) kind).slots.toNat +
        if kind.isSubwordInt then 1 else 0 := by
  by_cases hkind : kind.isSubwordInt
  · obtain ⟨hnarrow, extension, hwide, -⟩ := ofKind_withWidening_of_isSubwordInt (t := t) hkind
    rw [hnarrow, hwide, if_pos hkind]
    rfl
  · rw [ofKind_withWidening_of_not_isSubwordInt hkind,
      ofKind_withWidening_of_not_isSubwordInt hkind, if_neg hkind, Nat.add_zero]

end NativeArgument

namespace NativeSignature

open NativeArgument (ofKind)

/-- Argument by argument, the two counts of slots differ by the narrow integers so far. -/
theorem sum_slots_withWidening (t : Target) (kinds : List ValueKind) :
    ((kinds.map (ofKind (t.withWidening true))).map fun a => a.slots.toNat).sum =
      ((kinds.map (ofKind (t.withWidening false))).map fun a => a.slots.toNat).sum +
        kinds.countP ValueKind.isSubwordInt := by
  induction kinds with
  | nil => rfl
  | cons kind kinds ih =>
      simp only [List.map_cons, List.sum_cons, List.countP_cons, ih,
        NativeArgument.toNat_slots_withWidening]
      omega

theorem countP_hiddenKinds (kinds : List ValueKind) (isStatic : Bool) :
    (hiddenKinds isStatic ++ kinds).countP ValueKind.isSubwordInt =
      kinds.countP ValueKind.isSubwordInt := by
  rw [List.countP_append, List.countP_eq_zero.2 not_isSubwordInt_of_mem_hiddenKinds,
    Nat.zero_add]

/-- More slots never have a smaller area. -/
theorem exists_outgoingBytes_le {u : Target} {s s' : NativeSignature} (hu : u.Sound)
    (hle : s.slots.toNat ≤ s'.slots.toNat) (hslots : s'.slots.toNat ≤ 514) :
    ∃ bytes bytes', s.outgoingBytes u = .ok bytes ∧ s'.outgoingBytes u = .ok bytes' ∧
      bytes ≤ bytes' := by
  obtain ⟨bytes, area, hbytes, harea, hup⟩ := exists_outgoingBytes hu (hle.trans hslots)
  obtain ⟨bytes', area', hbytes', harea', hup'⟩ := exists_outgoingBytes hu hslots
  have hareas : area.toNat ≤ area'.toNat := by
    rw [harea, harea']
    exact Nat.mul_le_mul_left 4 hle
  exact ⟨bytes, bytes', hbytes, hbytes', UInt64.le_iff_toNat_le.2 (hup.mono hup' hareas)⟩

/-- A method is refused for one reason under both conventions, or called under both.  Its
arguments are widened one by one, each narrow integer takes one slot more, and the area
for all of them does not get smaller. -/
theorem resolve_withWidening (ht : t.Sound) (kinds : List ValueKind) (isStatic : Bool) :
    (∃ reason, (resolve (t.withWidening false) kinds isStatic).value = refuse reason ∧
      (resolve (t.withWidening true) kinds isStatic).value = refuse reason) ∨
    ∃ narrow wide, (resolve (t.withWidening false) kinds isStatic).value = .ok narrow ∧
      (resolve (t.withWidening true) kinds isStatic).value = .ok wide ∧
      List.Forall₂ NativeArgument.WidensTo narrow.arguments wide.arguments ∧
      wide.slots.toNat = narrow.slots.toNat + kinds.countP ValueKind.isSubwordInt ∧
      ∃ bytes bytes', narrow.outgoingBytes (t.withWidening false) = .ok bytes ∧
        wide.outgoingBytes (t.withWidening true) = .ok bytes' ∧ bytes ≤ bytes' := by
  by_cases hvoid : .void ∈ kinds
  · exact Or.inl ⟨_, ofMethod_of_void hvoid, ofMethod_of_void hvoid⟩
  by_cases hmany : 255 < (kinds.map ValueKind.slots).sum
  · exact Or.inl ⟨_, ofMethod_of_many hvoid hmany, ofMethod_of_many hvoid hmany⟩
  right
  have hfew := Nat.le_of_not_lt hmany
  obtain ⟨narrow, hnarrow, htallied, -, harguments⟩ :=
    exists_ofMethod (ht.withWidening false) hvoid hfew isStatic
  obtain ⟨wide, hwide, htallied', -, harguments'⟩ :=
    exists_ofMethod (ht.withWidening true) hvoid hfew isStatic
  have hslots : wide.slots.toNat =
      narrow.slots.toNat + kinds.countP ValueKind.isSubwordInt := by
    rw [htallied.slots_eq, htallied'.slots_eq, harguments, harguments',
      sum_slots_withWidening, countP_hiddenKinds]
  have hmost := (tallied_of_ofMethod (ht.withWidening true) hwide).2
  refine ⟨narrow, wide, hnarrow, hwide, ?_, hslots, ?_⟩
  · rw [harguments, harguments', List.forall₂_map_left_iff, List.forall₂_map_right_iff,
      List.forall₂_same]
    exact fun kind _ => NativeArgument.ofKind_widensTo t kind
  · have hle : narrow.slots.toNat ≤ wide.slots.toNat := hslots ▸ Nat.le_add_right _ _
    exact exists_outgoingBytes_le ht hle hmost

/-- Two of three values are widened, which takes the area to the next multiple of 16. -/
theorem resolve_withWidening_loongarch64 :
    Target.loongarch64.Sound ∧
      ∃ narrow wide, (resolve .loongarch64 [.int, .double, .char] true).value = .ok narrow ∧
        (resolve (Target.loongarch64.withWidening true) [.int, .double, .char] true).value =
          .ok wide ∧
        List.Forall₂ NativeArgument.WidensTo narrow.arguments wide.arguments ∧
        narrow.slots.toNat = 8 ∧ wide.slots.toNat = 8 + 2 ∧
        narrow.outgoingBytes .loongarch64 = .ok 32 ∧
        wide.outgoingBytes (Target.loongarch64.withWidening true) = .ok 48 := by
  have hsound : Target.loongarch64.Sound := by decide +kernel
  have hboth := resolve_withWidening hsound [.int, .double, .char] true
  rcases hboth with ⟨reason, hrefused, -⟩ | ⟨narrow, wide, hnarrow, hwide, hwidens, hslots, -⟩
  · cases hrefused
  · cases hnarrow
    cases hwide
    exact ⟨hsound, _, _, rfl, rfl, hwidens, rfl, hslots, rfl, rfl⟩

end NativeSignature

end RuntimeTargets
