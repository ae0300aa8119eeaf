import RuntimeTargets.Upkeep.Finding
import RuntimeTargets.Proofs.Text.Hex
import RuntimeTargets.Proofs.Word

/-!
# What dumps must show

A finding is made of two dumps exactly if they have one digest and the first is
an object that names the target of the entry and repeats its facts.  Findings
agree exactly if any two of them have the same members, although each is only
compared with the first.
-/

namespace RuntimeTargets

namespace Json

theorem bind_text?_eq_some_iff {found : Option Json} {text : String} :
    found.bind text? = some text ↔ found = some (.string text) := by
  rw [Option.bind_eq_some_iff]
  constructor
  · rintro ⟨value, rfl, htext⟩
    cases value <;> cases htext
    rfl
  · rintro rfl
    exact ⟨_, rfl, rfl⟩

theorem bind_word?_eq_some_iff {found : Option Json} {value : Word} :
    found.bind word? = some value ↔ found = some (.number (.word value)) := by
  rw [Option.bind_eq_some_iff]
  constructor
  · rintro ⟨json, rfl, hword⟩
    cases json with
    | number number =>
        cases number <;> cases hword
        rfl
    | _ => cases hword
  · rintro rfl
    exact ⟨_, rfl, rfl⟩

/-- The members give a name a value: the last of them with that name has it. -/
def Binds (members : List (String × Json)) (name : String) (value : Json) : Prop :=
  ∃ front back, members = front ++ (name, value) :: back ∧ ∀ other ∈ back, other.1 ≠ name

/-- Only objects have members. -/
theorem member?_eq_some_iff {dump value : Json} {name : String} :
    dump.member? name = some value ↔ ∃ members, dump = .object members ∧ Binds members name value := by
  cases dump with
  | object members =>
      simp only [member?, List.lookup_eq_some_iff, object.injEq, exists_eq_left', Binds]
      constructor
      · rintro ⟨later, earlier, hmembers, hlater⟩
        refine ⟨earlier.reverse, later.reverse, ?_, fun other hother => ?_⟩
        · rw [← List.reverse_reverse members, hmembers, List.reverse_append, List.reverse_cons,
            List.append_assoc, List.singleton_append]
        · have hne := hlater other (List.mem_reverse.1 hother)
          exact fun heq => (bne_iff_ne.1 hne) heq.symm
      · rintro ⟨front, back, rfl, hback⟩
        refine ⟨back.reverse, front.reverse, ?_, fun other hother => ?_⟩
        · rw [List.reverse_append, List.reverse_cons, List.append_assoc, List.singleton_append]
        · exact bne_iff_ne.2 (hback other (List.mem_reverse.1 hother)).symm
  | _ => exact iff_of_false nofun nofun

/-- Where no name occurs twice, every member counts. -/
theorem binds_iff_mem {members : List (String × Json)} (hnodup : (members.map Prod.fst).Nodup)
    {name : String} {value : Json} : Binds members name value ↔ (name, value) ∈ members := by
  constructor
  · rintro ⟨front, back, rfl, -⟩
    exact List.mem_append_right _ List.mem_cons_self
  · intro hmem
    obtain ⟨front, back, rfl⟩ := List.append_of_mem hmem
    refine ⟨front, back, rfl, fun other hother heq => ?_⟩
    rw [List.map_append, List.map_cons, List.nodup_append, List.nodup_cons] at hnodup
    exact hnodup.2.1.1 (List.mem_map.2 ⟨other, hother, heq⟩)

end Json

namespace Upkeep

/-- The members that say which target a dump is of. -/
structure MatrixEntry.DescribedBy (entry : MatrixEntry) (members : List (String × Json)) :
    Prop where
  name : Json.Binds members "name" (.string entry.name)
  instructionSize :
    Json.Binds members "instruction_word_size" (.number (.word entry.instructionSize))
  stackAlignment : Json.Binds members "stack_alignment" (.number (.word entry.stackAlignment))

namespace Finding

variable {services : Services} {entry : MatrixEntry} {first second : ByteArray}
  {f other : Finding}

theorem expectField_eq_ok_iff {dump : Json} {name field : String} {expected : Word} :
    expectField dump name field expected = .ok () ↔
      dump.member? field = some (.number (.word expected)) := by
  rw [← Json.bind_word?_eq_some_iff, expectField]
  split
  · rename_i hfound
    exact iff_of_true rfl hfound
  · rename_i hfound
    exact iff_of_false nofun hfound

/-- What is found in a dump of an entry's target. -/
def ofDump (services : Services) (entry : MatrixEntry) (text : ByteArray) (dump : Json) :
    Finding where
  name := entry.name
  architecture := entry.architecture
  digest := Hex.encode (services.digest text)
  members := dump.names

/-- A dump that has the name of an entry is an object. -/
theorem exists_describedBy_iff {dump : Json} :
    (∃ members, dump = .object members ∧ entry.DescribedBy members) ↔
      (dump.member? "name").bind Json.text? = some entry.name ∧
        expectField dump entry.name "instruction_word_size" entry.instructionSize = .ok () ∧
          expectField dump entry.name "stack_alignment" entry.stackAlignment = .ok () := by
  simp only [Json.bind_text?_eq_some_iff, expectField_eq_ok_iff, Json.member?_eq_some_iff]
  constructor
  · rintro ⟨members, rfl, h⟩
    exact ⟨⟨members, rfl, h.name⟩, ⟨members, rfl, h.instructionSize⟩,
      ⟨members, rfl, h.stackAlignment⟩⟩
  · rintro ⟨⟨members, rfl, hname⟩, ⟨_, ⟨⟩, hsize⟩, ⟨_, ⟨⟩, halignment⟩⟩
    exact ⟨members, rfl, hname, hsize, halignment⟩

theorem ofDumps_eq_ok_iff : ofDumps services entry first second = .ok f ↔
    services.digest first = services.digest second ∧
      ∃ members, services.readDump first = .ok (.object members) ∧ entry.DescribedBy members ∧
        f = ofDump services entry first (.object members) := by
  have hread : (∃ members, services.readDump first = .ok (.object members) ∧
      entry.DescribedBy members ∧ f = ofDump services entry first (.object members)) ↔
        ∃ dump, services.readDump first = .ok dump ∧
          (∃ members, dump = .object members ∧ entry.DescribedBy members) ∧
            f = ofDump services entry first dump := by
    constructor
    · rintro ⟨members, hread, hdescribed, hf⟩
      exact ⟨_, hread, ⟨members, rfl, hdescribed⟩, hf⟩
    · rintro ⟨_, hread, ⟨members, rfl, hdescribed⟩, hf⟩
      exact ⟨members, hread, hdescribed, hf⟩
  rw [hread, ← Hex.encode_inj]
  by_cases hdigest : Hex.encode (services.digest first) = Hex.encode (services.digest second)
  swap
  · simp [ofDumps, hdigest, throw, throwThe, MonadExceptOf.throw]
  cases hread : services.readDump first with
  | error reason => simp [ofDumps, hdigest, hread, throw, throwThe, MonadExceptOf.throw]
  | ok dump =>
      simp only [Except.ok.injEq, exists_eq_left', exists_describedBy_iff, hdigest, true_and]
      by_cases hname : (dump.member? "name").bind Json.text? = some entry.name
      swap
      · simp [ofDumps, hdigest, hread, hname, throw, throwThe, MonadExceptOf.throw]
      simp only [ofDumps, hdigest, hread, hname, ne_eq, not_true_eq_false, if_false,
        bind_eq_ok_iff, pure, Except.pure, Except.ok.injEq, true_and, and_assoc]
      rw [ofDump, hdigest]
      constructor
      · rintro ⟨⟨⟩, hsize, ⟨⟩, halignment, hf⟩
        exact ⟨hsize, halignment, hf.symm⟩
      · rintro ⟨hsize, halignment, hf⟩
        exact ⟨(), hsize, (), halignment, hf.symm⟩

/-! ## Agreement -/

theorem sameMembers_iff : f.SameMembers other ↔ ∀ name, name ∈ f.members ↔ name ∈ other.members :=
  ⟨fun h name => ⟨h.1 name, h.2 name⟩, fun h => ⟨fun name => (h name).1, fun name => (h name).2⟩⟩

/-- Having the members of the first is having those of one another. -/
theorem agree_eq_ok_iff {findings : List Finding} : agree findings = .ok () ↔
    ∀ f ∈ findings, ∀ other ∈ findings, ∀ name, name ∈ f.members ↔ name ∈ other.members := by
  cases findings with
  | nil => exact iff_of_true rfl (by simp)
  | cons first others =>
      have hfirst : agree (first :: others) = .ok () ↔
          ∀ other ∈ others, other.SameMembers first := by
        rw [agree]
        cases hfind : others.find? fun other => ¬ other.SameMembers first with
        | none => simpa using hfind
        | some other =>
            have hother := List.find?_some hfind
            have hmem := List.mem_of_find?_eq_some hfind
            simp only [reduceCtorEq, false_iff, not_forall]
            exact ⟨other, hmem, by simpa using hother⟩
      rw [hfirst]
      constructor
      · intro hothers
        have hall : ∀ f ∈ first :: others, ∀ name, name ∈ f.members ↔ name ∈ first.members :=
          List.forall_mem_cons.2 ⟨fun _ => Iff.rfl, fun f hf => sameMembers_iff.1 (hothers f hf)⟩
        intro f hf other hother name
        exact (hall f hf name).trans (hall other hother name).symm
      · intro hall other hother
        exact sameMembers_iff.2 (hall other (List.mem_cons_of_mem first hother) first
          List.mem_cons_self)

end Finding

end Upkeep

end RuntimeTargets
