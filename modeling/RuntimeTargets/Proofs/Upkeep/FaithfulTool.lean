import Mathlib
import RuntimeTargets.Upkeep.FaithfulTool
import RuntimeTargets.Proofs.Target.Record
import RuntimeTargets.Proofs.Upkeep.Determinism

/-!
# Comparing builds with a faithful tool

Where the build tool dumps a target as the viewer that is built for it does, the
comparison of builds succeeds exactly for the matrices that describe the supported
targets, in any order and however often, and reports the digests of what the viewer
prints for them.
-/

namespace RuntimeTargets

namespace Viewer

/-- What is asked of a reader of options: that it knows those of a checked dump. -/
def OptionReader.ReadsDump (read : OptionReader) : Prop :=
  read ["--format", "json", "--check"] = .ok { format := some .json, check := true }

theorem OptionReader.readsDump_standard : OptionReader.standard.ReadsDump := by
  have hoptions : Options.ofArguments ["--format", "json", "--check"] =
      .ok { format := some .json, check := true } := by decide +kernel
  rw [ReadsDump, OptionReader.standard, hoptions]
  rfl

/-- A viewer that is asked for a checked dump prints the target it was built for. -/
theorem run_dump {read : OptionReader} (hread : read.ReadsDump) {t : Target} (hsound : t.Sound) :
    (run read t ["--format", "json", "--check"]).exit = 0 ∧
      (run read t ["--format", "json", "--check"]).stdout =
        (t.toJson.pretty ++ "\n").toUTF8 := by
  rw [run, hread]
  simp [view, chosen, printAll, Format.print, show t.check = .ok () from hsound]

end Viewer

namespace Upkeep

/-! ## Faithful tools -/

/-- The features that select a target, each with its target. -/
def builds : List (String × Target) :=
  [("mips64", .mips64), ("loongarch64", .loongarch64), ("aarch64", .aarch64),
    ("riscv64", .riscv64), ("ppc64", .ppc64)]

theorem mem_builds_iff {feature : String} {t : Target} :
    (feature, t) ∈ builds ↔ Target.byName feature = some t := by
  have hbuilds : builds = Target.all.map fun t => (t.name, t) := rfl
  rw [hbuilds, List.mem_map, Target.byName_eq_some_iff]
  constructor
  · rintro ⟨t, hmem, ⟨⟩⟩
    exact ⟨hmem, rfl⟩
  · rintro ⟨hmem, rfl⟩
    exact ⟨t, hmem, rfl⟩

/-- The call that dumps the target of a feature does what a viewer built for that target
does, and fails if there is none.  The call that cleans up succeeds. -/
structure Tool.Faithful (tool : Tool) (read : Viewer.OptionReader) : Prop where
  views : ∀ number feature t, (feature, t) ∈ builds →
    (tool number (CommandLine.dump feature)).exit =
        (Viewer.run read t ["--format", "json", "--check"]).exit ∧
      (tool number (CommandLine.dump feature)).stdout =
        (Viewer.run read t ["--format", "json", "--check"]).stdout
  refuses : ∀ number feature, (∀ t, (feature, t) ∉ builds) →
    (tool number (CommandLine.dump feature)).exit ≠ 0
  cleans : ∀ number, (tool number CommandLine.clean).exit = 0

/-- The members are those of a target, in any order. -/
def MembersOf (t : Target) (members : List (String × Json)) : Prop :=
  ∃ written, t.toJson = .object written ∧ members.Perm written

/-- What the viewer prints of a target is read back as its members. -/
def Services.ReadsDumps (services : Services) : Prop :=
  ∀ feature t, (feature, t) ∈ builds → ∃ members,
    services.readDump (t.toJson.pretty ++ "\n").toUTF8 = .ok (.object members) ∧
      MembersOf t members

/-- An entry that selects a target and repeats its facts. -/
structure MatrixEntry.Describes (entry : MatrixEntry) (t : Target) : Prop where
  feature : (entry.feature, t) ∈ builds
  name : entry.name = t.name
  instructionSize : entry.instructionSize = t.instructionSize
  stackAlignment : entry.stackAlignment = t.stackAlignment

/-- What a viewer prints that is built for the target of a feature. -/
def viewerOutput (feature : String) : ByteArray :=
  match builds.lookup feature with
  | some t => (t.toJson.pretty ++ "\n").toUTF8
  | none => .empty

/-- One record for each entry, in their order, with the digest of what the viewer prints
for its feature. -/
def viewerRecords (services : Services) (entries : Matrix) : List Json :=
  entries.map fun entry => digestRecord entry (services.digest (viewerOutput entry.feature))

theorem lookup_builds : ∀ build ∈ builds, builds.lookup build.1 = some build.2 := by
  simp [builds, List.lookup]

theorem viewerOutput_eq {feature : String} {t : Target} (hbuild : (feature, t) ∈ builds) :
    viewerOutput feature = (t.toJson.pretty ++ "\n").toUTF8 := by
  rw [viewerOutput, lookup_builds _ hbuild]

/-! ## Dumps of targets -/

section Members

variable {t : Target} {members : List (String × Json)} {entry : MatrixEntry}

/-- All targets are written with the same names. -/
theorem names_of_toJson (htext : t.toJson = .object members) :
    members.map Prod.fst = Target.mips64.toJson.names := by
  cases htext
  rfl

theorem MembersOf.binds_iff (h : MembersOf t members) {name : String} {value : Json} :
    Json.Binds members name value ↔ ∃ written, t.toJson = .object written ∧
      (name, value) ∈ written := by
  obtain ⟨written, htext, hperm⟩ := h
  have hnodup : (members.map Prod.fst).Nodup := by
    rw [(hperm.map Prod.fst).nodup_iff, names_of_toJson htext]
    decide
  rw [Json.binds_iff_mem hnodup, hperm.mem_iff, htext]
  simp

theorem MembersOf.describedBy_iff (h : MembersOf t members) :
    entry.DescribedBy members ↔ entry.name = t.name ∧
      entry.instructionSize = t.instructionSize ∧ entry.stackAlignment = t.stackAlignment := by
  have hname : Json.Binds members "name" (.string entry.name) ↔ entry.name = t.name := by
    simp [h.binds_iff, Target.toJson]
  have hsize : Json.Binds members "instruction_word_size"
      (.number (.word entry.instructionSize)) ↔ entry.instructionSize = t.instructionSize := by
    simp [h.binds_iff, Target.toJson, Json.ofWord]
  have halignment : Json.Binds members "stack_alignment"
      (.number (.word entry.stackAlignment)) ↔ entry.stackAlignment = t.stackAlignment := by
    simp [h.binds_iff, Target.toJson, Json.ofWord]
  rw [← hname, ← hsize, ← halignment]
  exact ⟨fun h => ⟨h.name, h.instructionSize, h.stackAlignment⟩, fun h => ⟨h.1, h.2.1, h.2.2⟩⟩

theorem MembersOf.exists_mem_iff (h : MembersOf t members) {name : String} :
    (∃ value, (name, value) ∈ members) ↔ name ∈ Target.mips64.toJson.names := by
  obtain ⟨written, htext, hperm⟩ := h
  simp [← names_of_toJson htext, hperm.mem_iff]

end Members

/-! ## Comparing the builds -/

theorem sound_of_mem_builds {feature : String} {t : Target} (hbuild : (feature, t) ∈ builds) :
    t.Sound :=
  Target.sound_of_mem_all t (Target.byName_eq_some_iff.1 (mem_builds_iff.1 hbuild)).1

namespace Tool.Faithful

variable {services : Services} {tool : Tool} {read : Viewer.OptionReader} {number : ℕ}
  {entry : MatrixEntry} {entries : Matrix} {t : Target}

theorem dumps (h : tool.Faithful read) (hoptions : read.ReadsDump)
    (hbuild : (entry.feature, t) ∈ builds) (number : ℕ) :
    (tool number (CommandLine.dump entry.feature)).exit = 0 ∧
      tool.dump number entry = (t.toJson.pretty ++ "\n").toUTF8 := by
  obtain ⟨hexit, hstdout⟩ := h.views number entry.feature t hbuild
  obtain ⟨hzero, hprinted⟩ := Viewer.run_dump hoptions (sound_of_mem_builds hbuild)
  exact ⟨hexit.trans hzero, hstdout.trans hprinted⟩

theorem reproduces_iff (h : tool.Faithful read) (hoptions : read.ReadsDump)
    (hdumps : services.ReadsDumps) :
    Reproduces services tool number entry ↔ ∃ t, entry.Describes t := by
  constructor
  · intro hreproduces
    have hbuilt : ∃ t, (entry.feature, t) ∈ builds := by
      by_contra hnone
      exact h.refuses number entry.feature (not_exists.1 hnone) hreproduces.builds
    obtain ⟨t, hbuild⟩ := hbuilt
    obtain ⟨members, hread, hmembers⟩ := hdumps entry.feature t hbuild
    obtain ⟨found, hfound, hdescribed⟩ := hreproduces.describes
    rw [(h.dumps hoptions hbuild number).2, hread] at hfound
    cases hfound
    obtain ⟨hname, hsize, halignment⟩ := hmembers.describedBy_iff.1 hdescribed
    exact ⟨t, hbuild, hname, hsize, halignment⟩
  · rintro ⟨t, hdescribes⟩
    obtain ⟨members, hread, hmembers⟩ := hdumps entry.feature t hdescribes.feature
    obtain ⟨hbuilds, hdump⟩ := h.dumps hoptions hdescribes.feature number
    obtain ⟨hrebuilds, hagain⟩ := h.dumps hoptions hdescribes.feature (number + 2)
    refine ⟨hbuilds, h.cleans _, hrebuilds, by rw [hdump, hagain], members, ?_, ?_⟩
    · rw [hdump, hread]
    · exact hmembers.describedBy_iff.2
        ⟨hdescribes.name, hdescribes.instructionSize, hdescribes.stackAlignment⟩

theorem membersOf (h : tool.Faithful read) (hoptions : read.ReadsDump)
    (hdumps : services.ReadsDumps) (hbuild : (entry.feature, t) ∈ builds)
    {members : List (String × Json)}
    (hread : services.readDump (tool.dump number entry) = .ok (.object members)) :
    MembersOf t members := by
  obtain ⟨found, hfound, hmembers⟩ := hdumps entry.feature t hbuild
  rw [(h.dumps hoptions hbuild number).2, hfound] at hread
  cases hread
  exact hmembers

theorem deterministic_iff (h : tool.Faithful read) (hoptions : read.ReadsDump)
    (hdumps : services.ReadsDumps) : Deterministic services tool number entries ↔
      ∀ entry ∈ entries, ∃ t, entry.Describes t := by
  constructor
  · intro hdeterministic entry hentry
    obtain ⟨index, hindex⟩ := List.mem_iff_getElem?.1 hentry
    exact (h.reproduces_iff hoptions hdumps).1 (hdeterministic.reproduces index entry hindex)
  · intro hall
    constructor
    · intro index entry hindex
      exact (h.reproduces_iff hoptions hdumps).2 (hall entry (List.mem_of_getElem? hindex))
    · intro i entry hentry j other hother members others hmembers hothers name
      obtain ⟨t, hdescribes⟩ := hall entry (List.mem_of_getElem? hentry)
      obtain ⟨u, hudescribes⟩ := hall other (List.mem_of_getElem? hother)
      rw [(h.membersOf hoptions hdumps hdescribes.feature hmembers).exists_mem_iff,
        (h.membersOf hoptions hdumps hudescribes.feature hothers).exists_mem_iff]

theorem digestRecords_eq (h : tool.Faithful read) (hoptions : read.ReadsDump)
    (hall : ∀ entry ∈ entries, ∃ t, entry.Describes t) :
    digestRecords services tool number entries = viewerRecords services entries := by
  rw [digestRecords, viewerRecords, List.mapIdx_eq_iff]
  intro index
  rw [List.getElem?_map]
  cases hindex : entries[index]? with
  | none => rfl
  | some entry =>
      obtain ⟨t, hdescribes⟩ := hall entry (List.mem_of_getElem? hindex)
      rw [Option.map_some, Option.map_some, viewerOutput_eq hdescribes.feature,
        (h.dumps hoptions hdescribes.feature _).2]

end Tool.Faithful

/-! ## A tool that is faithful -/

namespace FaithfulTool

theorem featuresArgument_dump (feature : String) :
    featuresArgument (CommandLine.dump feature) = "cli," ++ feature := by
  rfl

theorem targetFeature_cli (feature : String) : targetFeature ("cli," ++ feature) = feature := by
  rw [targetFeature, String.toList_append]
  exact String.ofList_toList

theorem programArguments_dump (feature : String) :
    programArguments (CommandLine.dump feature) = ["--format", "json", "--check"] := by
  have hfeature : "cli," ++ feature ≠ "--" := by
    intro heq
    have hlists := congrArg String.toList heq
    rw [String.toList_append] at hlists
    cases hlists
  simp [programArguments, CommandLine.dump, hfeature]

theorem tool_dump (number : ℕ) (feature : String) :
    tool number (CommandLine.dump feature) =
      runViewer feature ["--format", "json", "--check"] := by
  have hrun : (CommandLine.dump feature).head? = some "run" := rfl
  rw [tool, respond, if_pos hrun, featuresArgument_dump, targetFeature_cli,
    programArguments_dump]

theorem faithful_tool : tool.Faithful .standard where
  views number feature t hbuild := by
    rw [tool_dump, runViewer, mem_builds_iff.1 hbuild]
    exact ⟨rfl, rfl⟩
  refuses number feature hnone := by
    have hbyName : Target.byName feature = none :=
      Option.eq_none_iff_forall_ne_some.2 fun t hbuilt => hnone t (mem_builds_iff.2 hbuilt)
    rw [tool_dump, runViewer, hbyName]
    exact (by decide : unknownFeature.exit ≠ 0)
  cleans number := rfl

end FaithfulTool

/-- What the viewer prints of a target is read back by the reader of this library. -/
theorem Services.readsDumps_standard : Services.standard.ReadsDumps := by
  intro feature t _
  have hblanks : ∀ c ∈ ['\n'], JsonToken.isBlank c = true := List.all_eq_true.1 rfl
  have hread : Json.ofChars? (t.toJson.pretty ++ "\n").toList = some t.toJson := by
    rw [String.toList_append]
    exact Json.ofChars?_pretty t.readable_toJson hblanks
  exact ⟨_, readDump_standard hread, _, rfl, List.Perm.refl _⟩

/-! ## The comparison of builds -/

/-- With a faithful tool the comparison of builds succeeds exactly if every entry
describes a supported target, and reports the digest of what the viewer prints for
each. -/
theorem determinism_of_faithful {w : Workspace} {tool : Tool} {read : Viewer.OptionReader}
    {entries : Matrix} (htool : w.tool = some tool) (hmatrix : w.Lists entries)
    (hfaithful : tool.Faithful read) (hoptions : read.ReadsDump)
    (hdumps : w.services.ReadsDumps) (rest : List String) :
    ((run w ("determinism" :: rest)).run.exit = 0 ↔
        ∀ entry ∈ entries, ∃ t, entry.Describes t) ∧
      ((run w ("determinism" :: rest)).run.exit = 0 → ∃ text,
        (run w ("determinism" :: rest)).report = some text ∧
          Holds text (viewerRecords w.services entries)) := by
  rw [run_determinism]
  have hexit : (runCommand w .determinism).run.exit = 0 ↔
      ∀ entry ∈ entries, ∃ t, entry.Describes t :=
    (exit_determinism htool hmatrix).trans (hfaithful.deterministic_iff hoptions hdumps)
  refine ⟨hexit, fun hsucceeds => ?_⟩
  have hrecords : digestRecords w.services tool 0 entries = viewerRecords w.services entries :=
    hfaithful.digestRecords_eq hoptions (hexit.1 hsucceeds)
  refine ⟨_, report_determinism htool hmatrix hsucceeds, ?_⟩
  rw [hrecords]
  exact hrecords ▸ Tool.holds_digestRecords w.services tool 0 entries

theorem determinism_of_faithful_mips64 :
    (run (.mips64 FaithfulTool.tool) ["determinism"]).run.exit = 0 ∧
      ∃ text, (run (.mips64 FaithfulTool.tool) ["determinism"]).report = some text ∧
        Holds text (viewerRecords .standard [MatrixEntry.mips64]) := by
  obtain ⟨hexit, hreport⟩ := determinism_of_faithful rfl
    (Workspace.lists_mips64 FaithfulTool.tool) FaithfulTool.faithful_tool
    Viewer.OptionReader.readsDump_standard Services.readsDumps_standard []
  have hdescribes : ∀ entry ∈ [MatrixEntry.mips64], ∃ t, entry.Describes t := by
    intro entry hentry
    rw [List.mem_singleton.1 hentry]
    exact ⟨Target.mips64, List.mem_cons_self, rfl, rfl, rfl⟩
  exact ⟨hexit.2 hdescribes, hreport (hexit.2 hdescribes)⟩

end Upkeep

end RuntimeTargets
