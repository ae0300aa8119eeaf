import RuntimeTargets.NativeCall.Signature
import RuntimeTargets.Target.Catalog
import RuntimeTargets.Proofs.Target.Laws

/-!
# Signatures of native calls

A signature is built by appending one argument after another, and each step may fail:
the list of arguments has a capacity, and the count of slots is a word.  Neither limit is
ever reached.  Every value that a method takes has a slot on the expression stack, so the
bound on those slots is a bound on the number of arguments, and none of them takes more
than two slots in the call.
-/

namespace RuntimeTargets

variable {t : Target} {kinds : List ValueKind} {isStatic : Bool}

theorem sum_map_le_length_mul {α : Type} {f : α → ℕ} {l : List α} {most : ℕ}
    (h : ∀ a ∈ l, f a ≤ most) : (l.map f).sum ≤ l.length * most := by
  have hsum : (l.map f).sum ≤ (l.map f).length • most := by
    apply List.sum_le_card_nsmul
    intro n hn
    obtain ⟨a, ha, rfl⟩ := List.mem_map.1 hn
    exact h a ha
  rwa [List.length_map] at hsum

/-! ## One argument -/

namespace NativeArgument

/-- The argument takes the slots that its kind has on a target, and is extended exactly
if it is a narrow integer and the target widens those. -/
structure ConformsTo (t : Target) (a : NativeArgument) : Prop where
  reference : a.kind.isReference → a.slots.toNat = t.wordSize.toNat / 4
  wide : a.kind = .long ∨ a.kind = .double → a.slots = 2
  float : a.kind = .float → a.slots = 1
  subword : a.kind.isSubwordInt → a.slots = if t.widensInts then 2 else 1
  zero_iff : a.extension = .zero ↔ t.widensInts ∧ (a.kind = .boolean ∨ a.kind = .char)
  sign_iff : a.extension = .sign ↔
    t.widensInts ∧ (a.kind = .byte ∨ a.kind = .short ∨ a.kind = .int)
  extended_iff : a.extension ≠ .none ↔ a.kind.isSubwordInt ∧ t.widensInts

@[simp]
theorem kind_ofKind (t : Target) (kind : ValueKind) : (ofKind t kind).kind = kind := by
  cases kind <;> simp only [ofKind] <;> split_ifs <;> rfl

theorem toNat_slots_of_isReference {kind : ValueKind} (h : kind.isReference) :
    (ofKind t kind).slots.toNat = t.wordSize.toNat / 4 := by
  have hslots : (ofKind t kind).slots = t.wordSize / slotSize := by
    cases kind <;> first | rfl | cases h
  rw [hslots, UInt64.toNat_div]
  rfl

theorem ofKind_conforms (t : Target) (kind : ValueKind) : (ofKind t kind).ConformsTo t := by
  constructor
  · rw [kind_ofKind]
    exact toNat_slots_of_isReference
  -- every other law reads the table of kinds, once for each of the two conventions
  all_goals
    cases kind <;> cases hwidens : t.widensInts <;>
      simp [ofKind, ValueKind.isSubwordInt, hwidens]

theorem slots_le_two (ht : t.Sound) (kind : ValueKind) :
    (ofKind t kind).slots.toNat ≤ 2 := by
  cases kind with
  | object | array | address =>
      rw [toNat_slots_of_isReference rfl]
      rcases ht.laws.wordSize with hword | hword <;> rw [hword] <;> decide
  | boolean | char | byte | short | int =>
      simp only [ofKind]
      split_ifs <;> decide
  | long | double | float | void =>
      simp only [ofKind]
      decide

end NativeArgument

namespace NativeSignature

open NativeArgument (ofKind)

/-! ## The arguments of a call, one after another -/

/-- The slots are those of all arguments together, of which each has at most two. -/
structure Tallied (s : NativeSignature) : Prop where
  slots_eq : s.slots.toNat = (s.arguments.map fun a => a.slots.toNat).sum
  slots_le : ∀ a ∈ s.arguments, a.slots.toNat ≤ 2

theorem tallied_empty : Tallied empty := by
  refine ⟨rfl, ?_⟩
  intro a ha
  cases ha

theorem Tallied.slots_le_length {s : NativeSignature} (hs : s.Tallied) :
    s.slots.toNat ≤ s.arguments.length * 2 := by
  rw [hs.slots_eq]
  exact sum_map_le_length_mul hs.slots_le

/-- While there is room for an argument, the slots are far from the greatest word. -/
theorem exists_push {s : NativeSignature} {a : NativeArgument} (hs : s.Tallied)
    (ha : a.slots.toNat ≤ 2) (hroom : s.arguments.length < mostArguments) (total : ℕ) :
    ∃ s', s.push a total = .ok s' ∧ s'.Tallied ∧ s'.arguments = s.arguments ++ [a] := by
  have hcapacity : mostArguments = 257 := rfl
  have hslots := hs.slots_le_length
  obtain ⟨sum, hsum⟩ := Word.exists_toNat_eq (n := s.slots.toNat + a.slots.toNat) (by omega)
  refine ⟨⟨s.arguments ++ [a], sum⟩, ?_, ⟨?_, ?_⟩, rfl⟩
  · rw [push, Word.add_eq_ok_iff.2 hsum, lift_ok_bind, if_pos hroom]
    rfl
  · rw [hsum, hs.slots_eq, List.map_append, List.sum_append]
    rfl
  · intro b hb
    rcases List.mem_append.1 hb with hb | hb
    · exact hs.slots_le b hb
    · rw [List.mem_singleton.1 hb]
      exact ha

/-- As long as there is room for all of them, values are passed one by one. -/
theorem exists_foldlM_push (ht : t.Sound) (total : ℕ) (kinds : List ValueKind)
    {s : NativeSignature} (hs : s.Tallied)
    (hroom : s.arguments.length + kinds.length ≤ mostArguments) :
    ∃ s', kinds.foldlM (fun s kind => s.push (ofKind t kind) total) s = .ok s' ∧
      s'.Tallied ∧ s'.arguments = s.arguments ++ kinds.map (ofKind t) := by
  induction kinds generalizing s with
  | nil => exact ⟨s, rfl, hs, (List.append_nil _).symm⟩
  | cons kind kinds ih =>
      rw [List.length_cons] at hroom
      obtain ⟨s₁, hpush, hs₁, harguments₁⟩ :=
        exists_push hs (NativeArgument.slots_le_two ht kind) (by omega) total
      have hroom₁ : s₁.arguments.length + kinds.length ≤ mostArguments := by
        rw [harguments₁, List.length_append, List.length_singleton]
        omega
      obtain ⟨s', hrest, hs', harguments⟩ := ih hs₁ hroom₁
      refine ⟨s', ?_, hs', ?_⟩
      · rw [List.foldlM_cons, hpush]
        exact hrest
      · rw [harguments, harguments₁, List.append_assoc]
        rfl

theorem exists_ofKinds (ht : t.Sound) (hroom : kinds.length ≤ mostArguments) :
    ∃ s, ofKinds t kinds = .ok s ∧ s.Tallied ∧ s.arguments = kinds.map (ofKind t) := by
  have hroom₀ : empty.arguments.length + kinds.length ≤ mostArguments := by
    rw [empty, List.length_nil, Nat.zero_add]
    exact hroom
  exact exists_foldlM_push ht kinds.length kinds tallied_empty hroom₀

/-! ## The arguments of a method -/

theorem methodSlots_eq_sum (kinds : List ValueKind) :
    methodSlots kinds = (kinds.map ValueKind.slots).sum := by
  induction kinds with
  | nil => rfl
  | cons kind kinds ih => rw [methodSlots, ih, List.map_cons, List.sum_cons]

theorem length_le_sum_slots (hvoid : .void ∉ kinds) :
    kinds.length ≤ (kinds.map ValueKind.slots).sum := by
  rw [← List.length_map (f := ValueKind.slots)]
  apply List.length_le_sum_of_one_le
  intro n hn
  obtain ⟨kind, hkind, rfl⟩ := List.mem_map.1 hn
  cases kind with
  | void => exact absurd hkind hvoid
  | _ => decide

/-- The slots of all values are counted in one word, however many there are. -/
theorem sum_slots_lt (hlength : kinds.length < 2 ^ 63) :
    (kinds.map ValueKind.slots).sum < 2 ^ 64 := by
  have hsum : (kinds.map ValueKind.slots).sum ≤ kinds.length * 2 := by
    apply sum_map_le_length_mul
    intro kind _
    cases kind <;> decide
  omega

theorem hiddenKinds_eq (isStatic : Bool) :
    hiddenKinds isStatic = .address :: if isStatic then [.object] else [] := by
  cases isStatic <;> rfl

theorem length_hiddenKinds_le (isStatic : Bool) : (hiddenKinds isStatic).length ≤ 2 := by
  cases isStatic <;> decide

theorem not_isSubwordInt_of_mem_hiddenKinds :
    ∀ kind ∈ hiddenKinds isStatic, ¬ kind.isSubwordInt := by
  cases isStatic <;> decide

theorem ofMethod_of_void (h : .void ∈ kinds) :
    ofMethod t kinds isStatic = refuse .voidArgument :=
  if_pos h

theorem ofMethod_of_many (hvoid : .void ∉ kinds)
    (hmany : 255 < (kinds.map ValueKind.slots).sum) :
    ofMethod t kinds isStatic =
      refuse (.tooManyArguments (kinds.map ValueKind.slots).sum 255) := by
  rw [ofMethod, if_neg hvoid, methodSlots_eq_sum]
  exact if_pos hmany

theorem exists_ofMethod (ht : t.Sound) (hvoid : .void ∉ kinds)
    (hfew : (kinds.map ValueKind.slots).sum ≤ 255) (isStatic : Bool) :
    ∃ s, ofMethod t kinds isStatic = .ok s ∧ s.Tallied ∧ s.arguments.length ≤ mostArguments ∧
      s.arguments = (hiddenKinds isStatic ++ kinds).map (ofKind t) := by
  have hroom : (hiddenKinds isStatic ++ kinds).length ≤ mostArguments := by
    have hlength := length_le_sum_slots hvoid
    have hhidden := length_hiddenKinds_le isStatic
    have hcapacity : mostArguments = 257 := rfl
    rw [List.length_append]
    omega
  obtain ⟨s, hs, htallied, harguments⟩ := exists_ofKinds ht hroom
  refine ⟨s, ?_, htallied, ?_, harguments⟩
  · rw [ofMethod, if_neg hvoid, methodSlots_eq_sum, if_neg, hs]
    exact Nat.not_lt.2 hfew
  · rw [harguments, List.length_map]
    exact hroom

theorem admits_of_ofMethod {s : NativeSignature} (hs : ofMethod t kinds isStatic = .ok s) :
    .void ∉ kinds ∧ (kinds.map ValueKind.slots).sum ≤ 255 := by
  have hvoid : .void ∉ kinds := by
    intro hvoid
    rw [ofMethod_of_void hvoid] at hs
    cases hs
  refine ⟨hvoid, ?_⟩
  by_contra hmany
  rw [ofMethod_of_many hvoid (Nat.lt_of_not_le hmany)] at hs
  cases hs

/-- A call is refused for exactly one of two reasons, and the capacity of the list of
arguments is neither. -/
theorem ofMethod_eq_refuse_iff (ht : t.Sound) {reason : SignatureError} :
    ofMethod t kinds isStatic = refuse reason ↔
      (.void ∈ kinds ∧ reason = .voidArgument) ∨
      (.void ∉ kinds ∧ 255 < (kinds.map ValueKind.slots).sum ∧
        reason = .tooManyArguments (kinds.map ValueKind.slots).sum 255) := by
  by_cases hvoid : .void ∈ kinds
  · rw [ofMethod_of_void hvoid, refuse_inj]
    simp [hvoid, eq_comm]
  by_cases hmany : 255 < (kinds.map ValueKind.slots).sum
  · rw [ofMethod_of_many hvoid hmany, refuse_inj]
    simp [hvoid, hmany, eq_comm]
  · obtain ⟨s, hs, -⟩ := exists_ofMethod ht hvoid (Nat.not_lt.1 hmany) isStatic
    rw [hs]
    simp [hvoid, hmany, refuse]

/-- Values of the given kinds are passed in order, each as the target wants it, and
their slots are counted. -/
structure Passes (t : Target) (kinds : List ValueKind) (s : NativeSignature) : Prop where
  kinds_eq : s.arguments.map (fun a => a.kind) = kinds
  conforms : ∀ a ∈ s.arguments, a.ConformsTo t
  slots_eq : s.slots.toNat = (s.arguments.map fun a => a.slots.toNat).sum

theorem Tallied.passes {s : NativeSignature} (hs : s.Tallied)
    (harguments : s.arguments = kinds.map (ofKind t)) : s.Passes t kinds := by
  refine ⟨?_, ?_, hs.slots_eq⟩
  · rw [harguments, List.map_map]
    exact (List.map_congr_left fun kind _ => NativeArgument.kind_ofKind t kind).trans
      kinds.map_id
  · intro a ha
    rw [harguments] at ha
    obtain ⟨kind, -, rfl⟩ := List.mem_map.1 ha
    exact NativeArgument.ofKind_conforms t kind

/-- A method is refused if it takes a void value, or else if its values take more than
255 slots.  Every other method gets the signature that its call needs, on every sound
target. -/
theorem resolve_passes_or_refuses (ht : t.Sound) (kinds : List ValueKind) (isStatic : Bool) :
    ((resolve t kinds isStatic).value = refuse .voidArgument ↔ .void ∈ kinds) ∧
    (∀ count most, (resolve t kinds isStatic).value = refuse (.tooManyArguments count most) ↔
      .void ∉ kinds ∧ 255 < (kinds.map ValueKind.slots).sum ∧
        count = (kinds.map ValueKind.slots).sum ∧ most = 255) ∧
    (kinds.length < 2 ^ 63 → (kinds.map ValueKind.slots).sum < 2 ^ 64) ∧
    (.void ∉ kinds → (kinds.map ValueKind.slots).sum ≤ 255 →
      ∃ s, (resolve t kinds isStatic).value = .ok s ∧
        s.Passes t ((.address :: if isStatic then [.object] else []) ++ kinds) ∧
        s.slots.toNat ≤ 514) := by
  change (ofMethod t kinds isStatic = refuse .voidArgument ↔ .void ∈ kinds) ∧ _
  refine ⟨?_, ?_, sum_slots_lt, ?_⟩
  · rw [ofMethod_eq_refuse_iff ht]
    simp
  · intro count most
    change ofMethod t kinds isStatic = _ ↔ _
    rw [ofMethod_eq_refuse_iff ht]
    simp
  · intro hvoid hfew
    obtain ⟨s, hs, htallied, hlength, harguments⟩ := exists_ofMethod ht hvoid hfew isStatic
    have hslots : s.slots.toNat ≤ mostArguments * 2 :=
      htallied.slots_le_length.trans (Nat.mul_le_mul_right 2 hlength)
    rw [hiddenKinds_eq] at harguments
    exact ⟨s, hs, htallied.passes harguments, hslots⟩

/-- A static method on a target that widens integers, and two others that are refused:
one value is void, and 128 long values take two slots each. -/
theorem resolve_passes_or_refuses_ppc64 :
    Target.ppc64.Sound ∧
      (∃ s, (resolve .ppc64 [.array, .long, .boolean, .short, .float] true).value = .ok s ∧
        s.Passes .ppc64 [.address, .object, .array, .long, .boolean, .short, .float] ∧
        s.slots.toNat ≤ 514) ∧
      (resolve .ppc64 [.int, .void] true).value = refuse .voidArgument ∧
      (resolve .ppc64 (.replicate 128 .long) false).value =
        refuse (.tooManyArguments 256 255) := by
  have hsound : Target.ppc64.Sound := by decide +kernel
  obtain ⟨-, -, -, hpasses⟩ := resolve_passes_or_refuses hsound
    [.array, .long, .boolean, .short, .float] true
  obtain ⟨hvoid, -⟩ := resolve_passes_or_refuses hsound [.int, .void] true
  obtain ⟨-, hmany, -⟩ := resolve_passes_or_refuses hsound (.replicate 128 .long) false
  exact ⟨hsound, hpasses (by decide) (by decide), hvoid.2 (by decide),
    (hmany 256 255).2 (by simp [ValueKind.slots])⟩

end NativeSignature

end RuntimeTargets
