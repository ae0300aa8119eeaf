import Mathlib
import RuntimeTargets.Proofs.Text.Json.RoundTrip
import RuntimeTargets.Proofs.Text.Utf8
import RuntimeTargets.Proofs.Upkeep.CommandLines
import RuntimeTargets.Proofs.Upkeep.Finding
import RuntimeTargets.Proofs.Upkeep.Session

/-!
# What the comparison of builds guarantees

For every answer of the build tool and all services, the comparison of builds
succeeds exactly if each target of the matrix is dumped twice alike, as the matrix
describes it, and all of them with the same members.  Only then is a report
written; otherwise the last one stays.
-/

namespace RuntimeTargets

namespace Json

theorem itemsReadable_iff {room : ℕ} {items : List Json} :
    ItemsReadable room items ↔ ∀ item ∈ items, Readable room item := by
  induction items with
  | nil => simp [ItemsReadable]
  | cons item items ih => rw [ItemsReadable, ih, List.forall_mem_cons]

theorem ofChars?_toList_pretty {value : Json} (h : Readable JsonProgress.mostFrames value) :
    ofChars? value.pretty.toList = some value := by
  have hread := ofChars?_pretty h (List.forall_mem_nil _)
  rwa [List.append_nil] at hread

end Json

namespace Upkeep

/-! ## What the build tool must show -/

/-- The dump of an entry's target at the call with a number. -/
def Tool.dump (tool : Tool) (number : ℕ) (entry : MatrixEntry) : ByteArray :=
  (tool number (CommandLine.dump entry.feature)).stdout

/-- From the call with a number on, an entry's target is dumped, removed, and
dumped again the same. -/
structure Reproduces (services : Services) (tool : Tool) (number : ℕ) (entry : MatrixEntry) :
    Prop where
  builds : (tool number (CommandLine.dump entry.feature)).exit = 0
  cleans : (tool (number + 1) CommandLine.clean).exit = 0
  rebuilds : (tool (number + 2) (CommandLine.dump entry.feature)).exit = 0
  digests : services.digest (tool.dump number entry) =
    services.digest (tool.dump (number + 2) entry)
  describes : ∃ members, services.readDump (tool.dump number entry) = .ok (.object members) ∧
    entry.DescribedBy members

/-- From the call with a number on, any two targets of a matrix are dumped with members
of the same names. -/
def SameNames (services : Services) (tool : Tool) (number : ℕ) (entries : Matrix) : Prop :=
  ∀ i entry, entries[i]? = some entry → ∀ j other, entries[j]? = some other →
    ∀ members others,
      services.readDump (tool.dump (number + 3 * i) entry) = .ok (.object members) →
      services.readDump (tool.dump (number + 3 * j) other) = .ok (.object others) →
      ∀ name, (∃ value, (name, value) ∈ members) ↔ ∃ value, (name, value) ∈ others

/-- From the call with a number on, the targets of a matrix reproduce one after
the other, and any two of them have members of the same names. -/
structure Deterministic (services : Services) (tool : Tool) (number : ℕ) (entries : Matrix) :
    Prop where
  reproduces : ∀ index entry, entries[index]? = some entry →
    Reproduces services tool (number + 3 * index) entry
  sameNames : SameNames services tool number entries

/-! ## What the report must hold -/

/-- A digest in base sixteen, two lower-case digits for each byte. -/
def digestText (digest : ByteArray) : String :=
  String.ofList (digest.data.toList.flatMap fun byte =>
    [Nat.digitChar (byte.toNat / 16), Nat.digitChar (byte.toNat % 16)])

/-- What the report says of an entry. -/
def digestRecord (entry : MatrixEntry) (digest : ByteArray) : Json :=
  .object [("name", .string entry.name), ("target_arch", .string entry.architecture),
    ("sha256", .string (digestText digest))]

/-- One record for each entry, in their order, with the digest of its first dump. -/
def digestRecords (services : Services) (tool : Tool) (number : ℕ) (entries : Matrix) :
    List Json :=
  entries.mapIdx fun index entry =>
    digestRecord entry (services.digest (tool.dump (number + 3 * index) entry))

/-- A text is the pretty form of some records, which are read back from it. -/
structure Holds (text : String) (records : List Json) : Prop where
  written : text = (Json.array records).pretty
  reads : Json.ofChars? text.toList = some (.array records)

/-- The report file after a run, where `before` is what it was. -/
def TaskRun.reportFile (r : TaskRun) (before : Option String) : Option String :=
  r.report.or before

/-- Records are not nested so deep that they cannot be read. -/
theorem holds_pretty {records : List Json}
    (hrecords : ∀ record ∈ records, ∃ entry digest, record = digestRecord entry digest) :
    Holds (Json.array records).pretty records where
  written := rfl
  reads := by
    have hreadable : Json.Readable JsonProgress.mostFrames (.array records) := by
      refine ⟨by decide, Json.itemsReadable_iff.2 fun record hrecord => ?_⟩
      obtain ⟨entry, digest, rfl⟩ := hrecords record hrecord
      exact ⟨by decide, trivial, trivial, trivial, trivial⟩
    exact Json.ofChars?_toList_pretty hreadable

/-- Each entry takes three calls. -/
theorem add_three_mul_succ (number index : ℕ) :
    number + 3 + 3 * index = number + 3 * (index + 1) := by
  omega

/-! ## Findings -/

namespace Tool

variable {services : Services} {tool : Tool} {number : ℕ} {entry : MatrixEntry}
  {entries : Matrix} {members : List (String × Json)}

/-- The member names of a dump, which has none unless it is an object. -/
def dumpNames (services : Services) (tool : Tool) (number : ℕ) (entry : MatrixEntry) :
    List String :=
  match services.readDump (tool.dump number entry) with
  | .ok dump => dump.names
  | .error _ => []

/-- What is found for an entry from the call with a number on. -/
def finding (services : Services) (tool : Tool) (number : ℕ) (entry : MatrixEntry) :
    Finding where
  name := entry.name
  architecture := entry.architecture
  digest := Hex.encode (services.digest (tool.dump number entry))
  members := tool.dumpNames services number entry

/-- What is found for the entries of a matrix from the call with a number on. -/
def findings (services : Services) (tool : Tool) (number : ℕ) (entries : Matrix) :
    List Finding :=
  entries.mapIdx fun index entry => tool.finding services (number + 3 * index) entry

theorem mem_dumpNames_iff
    (hread : services.readDump (tool.dump number entry) = .ok (.object members))
    {name : String} :
    name ∈ tool.dumpNames services number entry ↔ ∃ value, (name, value) ∈ members := by
  rw [dumpNames, hread]
  simp [Json.names]

theorem ofDump_eq_finding
    (hread : services.readDump (tool.dump number entry) = .ok (.object members)) :
    Finding.ofDump services entry (tool.dump number entry) (.object members) =
      tool.finding services number entry := by
  rw [Finding.ofDump, finding, dumpNames, hread]

theorem ofDumps_eq_ok_iff_finding {f : Finding} :
    Finding.ofDumps services entry (tool.dump number entry) (tool.dump (number + 2) entry) =
        .ok f ↔
      (services.digest (tool.dump number entry) =
          services.digest (tool.dump (number + 2) entry) ∧
        ∃ members, services.readDump (tool.dump number entry) = .ok (.object members) ∧
          entry.DescribedBy members) ∧
      f = tool.finding services number entry := by
  rw [Finding.ofDumps_eq_ok_iff]
  constructor
  · rintro ⟨hdigests, members, hread, hdescribed, rfl⟩
    exact ⟨⟨hdigests, members, hread, hdescribed⟩, ofDump_eq_finding hread⟩
  · rintro ⟨⟨hdigests, members, hread, hdescribed⟩, rfl⟩
    exact ⟨hdigests, members, hread, hdescribed, (ofDump_eq_finding hread).symm⟩

theorem findings_cons (services : Services) (tool : Tool) (number : ℕ) (entry : MatrixEntry)
    (entries : Matrix) :
    tool.findings services number (entry :: entries) =
      tool.finding services number entry :: tool.findings services (number + 3) entries := by
  simp only [findings, List.mapIdx_cons, Nat.mul_zero, Nat.add_zero, List.cons.injEq, true_and]
  refine congrArg (fun f => entries.mapIdx f) ?_
  funext index other
  rw [add_three_mul_succ]

theorem mem_findings_iff {f : Finding} : f ∈ tool.findings services number entries ↔
    ∃ index entry, entries[index]? = some entry ∧
      tool.finding services (number + 3 * index) entry = f := by
  rw [findings, List.mem_mapIdx]
  simp only [List.getElem?_eq_some_iff]
  constructor
  · rintro ⟨index, hindex, hf⟩
    exact ⟨index, entries[index], ⟨hindex, rfl⟩, hf⟩
  · rintro ⟨index, _, ⟨hindex, rfl⟩, hf⟩
    exact ⟨index, hindex, hf⟩

/-- Where all dumps are objects, findings agree exactly if these have the same names. -/
theorem agree_findings_iff
    (hreproduces : ∀ index entry, entries[index]? = some entry →
      Reproduces services tool (number + 3 * index) entry) :
    Finding.agree (tool.findings services number entries) = .ok () ↔
      SameNames services tool number entries := by
  rw [Finding.agree_eq_ok_iff]
  constructor
  · intro hall i entry hentry j other hother members others hmembers hothers name
    rw [← mem_dumpNames_iff hmembers, ← mem_dumpNames_iff hothers]
    exact hall _ (mem_findings_iff.2 ⟨i, entry, hentry, rfl⟩) _
      (mem_findings_iff.2 ⟨j, other, hother, rfl⟩) name
  · intro hall f hf g hg name
    obtain ⟨i, entry, hentry, rfl⟩ := mem_findings_iff.1 hf
    obtain ⟨j, other, hother, rfl⟩ := mem_findings_iff.1 hg
    obtain ⟨members, hmembers, -⟩ := (hreproduces i entry hentry).describes
    obtain ⟨others, hothers, -⟩ := (hreproduces j other hother).describes
    simp only [finding, mem_dumpNames_iff hmembers, mem_dumpNames_iff hothers]
    exact hall i entry hentry j other hother members others hmembers hothers name

theorem toJson_finding : (tool.finding services number entry).toJson =
    digestRecord entry (services.digest (tool.dump number entry)) := rfl

theorem report_findings : Finding.report (tool.findings services number entries) =
    (Json.array (digestRecords services tool number entries)).pretty := by
  rw [Finding.report, findings, digestRecords]
  refine congrArg (fun records => (Json.array records).pretty) (List.mapIdx_eq_iff.2 ?_).symm
  intro index
  simp only [List.getElem?_map, List.getElem?_mapIdx, Option.map_map, Function.comp_def,
    toJson_finding]

theorem holds_digestRecords (services : Services) (tool : Tool) (number : ℕ)
    (entries : Matrix) :
    Holds (Json.array (digestRecords services tool number entries)).pretty
      (digestRecords services tool number entries) := by
  refine holds_pretty fun record hrecord => ?_
  obtain ⟨index, hindex, rfl⟩ := List.mem_mapIdx.1 hrecord
  exact ⟨_, _, rfl⟩

end Tool

namespace Session

variable {w : Workspace} {services : Services} {tool : Tool} {s t : Session}
  {steps : List Step} {entry : MatrixEntry} {entries : Matrix}

/-! ## One step -/

/-- A session after a comparison. -/
def found (s : Session) (f : Finding) : Session :=
  { s.say f.line with findings := s.findings ++ [f] }

theorem finishes_call (htool : w.tool = some tool) {arguments : List String} :
    s.Finishes w (.call arguments :: steps) t ↔
      (tool s.calls.length arguments).exit = 0 ∧ (s.passed tool arguments).Finishes w steps t := by
  rw [finishes_cons, perform_call htool]
  by_cases hsucceeds : (tool s.calls.length arguments).exit = 0 <;> simp [hsucceeds]

theorem finishes_capture (htool : w.tool = some tool) {arguments : List String} :
    s.Finishes w (.capture arguments :: steps) t ↔
      (tool s.calls.length arguments).exit = 0 ∧ (s.kept tool arguments).Finishes w steps t := by
  rw [finishes_cons, perform_capture htool]
  by_cases hsucceeds : (tool s.calls.length arguments).exit = 0 <;> simp [hsucceeds]

theorem finishes_compare : s.Finishes w (.compare entry :: steps) t ↔
    ∃ f, Finding.ofDumps w.services entry (s.dumps.getD 1 .empty) (s.dumps.getD 0 .empty) =
        .ok f ∧
      (s.found f).Finishes w steps t := by
  rw [finishes_cons, perform]
  cases Finding.ofDumps w.services entry (s.dumps.getD 1 .empty) (s.dumps.getD 0 .empty) <;>
    simp [found]

theorem finishes_agree : s.Finishes w (.agree :: steps) t ↔
    Finding.agree s.findings = .ok () ∧ s.Finishes w steps t := by
  rw [finishes_cons, perform]
  cases Finding.agree s.findings <;> simp

theorem finishes_findTool (htool : w.tool = some tool) :
    s.Finishes w (.findTool :: steps) t ↔ s.Finishes w steps t := by
  rw [finishes_cons, perform, htool]
  simp

/-! ## One entry -/

/-- A session after an entry was found to reproduce. -/
def examined (services : Services) (tool : Tool) (s : Session) (entry : MatrixEntry) :
    Session :=
  (((s.kept tool (CommandLine.dump entry.feature)).passed tool CommandLine.clean).kept tool
    (CommandLine.dump entry.feature)).found (tool.finding services s.calls.length entry)

theorem calls_examined : (s.examined services tool entry).calls.length = s.calls.length + 3 := by
  simp [examined, kept, passed, found, called, say]

theorem findings_examined :
    (s.examined services tool entry).findings =
      s.findings ++ [tool.finding services s.calls.length entry] := rfl

theorem finishes_determinismSteps (htool : w.tool = some tool) :
    s.Finishes w (determinismSteps entry ++ steps) t ↔
      Reproduces w.services tool s.calls.length entry ∧
        (s.examined w.services tool entry).Finishes w steps t := by
  have hclean : (s.kept tool (CommandLine.dump entry.feature)).calls.length =
      s.calls.length + 1 := by
    simp [kept, called]
  have hagain : ((s.kept tool (CommandLine.dump entry.feature)).passed tool
      CommandLine.clean).calls.length = s.calls.length + 2 := by
    simp [kept, passed, called, say]
  have hdumps : (((s.kept tool (CommandLine.dump entry.feature)).passed tool
      CommandLine.clean).kept tool (CommandLine.dump entry.feature)).dumps =
        tool.dump (s.calls.length + 2) entry :: tool.dump s.calls.length entry :: s.dumps := by
    rw [kept, hagain]
    rfl
  simp only [determinismSteps, dumpCall_eq, cleanCall_eq, List.cons_append, List.nil_append,
    finishes_capture htool, finishes_call htool, finishes_compare, hclean, hagain, hdumps,
    List.getD_cons_zero, List.getD_cons_succ, Tool.ofDumps_eq_ok_iff_finding]
  constructor
  · rintro ⟨hbuilds, hcleans, hrebuilds, f, ⟨⟨hdigests, hdescribes⟩, rfl⟩, hlater⟩
    exact ⟨⟨hbuilds, hcleans, hrebuilds, hdigests, hdescribes⟩, hlater⟩
  · rintro ⟨⟨hbuilds, hcleans, hrebuilds, hdigests, hdescribes⟩, hlater⟩
    exact ⟨hbuilds, hcleans, hrebuilds, _, ⟨⟨hdigests, hdescribes⟩, rfl⟩, hlater⟩

/-! ## All entries -/

/-- Each entry starts its three calls where the one before has made its own. -/
theorem finishes_flatMap_determinismSteps (htool : w.tool = some tool) :
    s.Finishes w (entries.flatMap determinismSteps ++ steps) t ↔
      (∀ index entry, entries[index]? = some entry →
        Reproduces w.services tool (s.calls.length + 3 * index) entry) ∧
      (entries.foldl (examined w.services tool) s).Finishes w steps t := by
  induction entries generalizing s with
  | nil => simp
  | cons entry entries ih =>
      rw [List.flatMap_cons, List.append_assoc, finishes_determinismSteps htool, ih, ← and_assoc,
        calls_examined, List.foldl_cons]
      refine and_congr_left fun _ => ?_
      constructor
      · rintro ⟨hfirst, hothers⟩ index other hindex
        cases index with
        | zero =>
            cases hindex
            exact hfirst
        | succ index =>
            rw [List.getElem?_cons_succ] at hindex
            rw [← add_three_mul_succ]
            exact hothers index other hindex
      · intro hall
        refine ⟨hall 0 entry rfl, fun index other hindex => ?_⟩
        rw [add_three_mul_succ]
        exact hall (index + 1) other hindex

theorem findings_foldl_examined :
    (entries.foldl (examined services tool) s).findings =
      s.findings ++ tool.findings services s.calls.length entries := by
  induction entries generalizing s with
  | nil => exact (List.append_nil _).symm
  | cons entry entries ih =>
      rw [List.foldl_cons, ih, findings_examined, calls_examined, Tool.findings_cons,
        List.append_assoc, List.singleton_append]

theorem report_of_finishes_publish (hfinishes : s.Finishes w [.publish] t) :
    t.report = some (Finding.report s.findings) := by
  cases finishes_singleton.1 hfinishes
  rfl

/-- Where nothing was found before, the plan is carried out to its end exactly if
the matrix is deterministic. -/
theorem finishes_determinismPlan (htool : w.tool = some tool) (hfindings : s.findings = []) :
    s.Finishes w (determinismPlan (.ok entries)) t ↔
      Deterministic w.services tool s.calls.length entries ∧
        (entries.foldl (examined w.services tool) s).Finishes w [.publish] t := by
  rw [determinismPlan, withMatrix, finishes_findTool htool,
    finishes_flatMap_determinismSteps htool, finishes_agree, findings_foldl_examined, hfindings,
    List.nil_append]
  constructor
  · rintro ⟨hreproduces, hagree, hpublish⟩
    exact ⟨⟨hreproduces, (Tool.agree_findings_iff hreproduces).1 hagree⟩, hpublish⟩
  · rintro ⟨⟨hreproduces, hnames⟩, hpublish⟩
    exact ⟨hreproduces, (Tool.agree_findings_iff hreproduces).2 hnames, hpublish⟩

theorem exists_finishes_determinismPlan (htool : w.tool = some tool)
    (hfindings : s.findings = []) :
    (∃ t, s.Finishes w (determinismPlan (.ok entries)) t) ↔
      Deterministic w.services tool s.calls.length entries := by
  simp only [finishes_determinismPlan htool hfindings]
  exact ⟨fun ⟨_, hdeterministic, _⟩ => hdeterministic,
    fun hdeterministic => ⟨_, hdeterministic, finishes_singleton.2 rfl⟩⟩

theorem report_of_finishes_determinismPlan (htool : w.tool = some tool)
    (hfindings : s.findings = []) (hfinishes : s.Finishes w (determinismPlan (.ok entries)) t) :
    t.report =
      some (Json.array (digestRecords w.services tool s.calls.length entries)).pretty := by
  rw [finishes_determinismPlan htool hfindings] at hfinishes
  rw [report_of_finishes_publish hfinishes.2, findings_foldl_examined, hfindings,
    List.nil_append, Tool.report_findings]

/-- The report is written last, when nothing can fail any more. -/
theorem report_of_error {e : TaskError} (hsteps : .publish ∉ steps)
    (herror : (s.performAll w (steps ++ [.publish])).2 = some e) :
    (s.performAll w (steps ++ [.publish])).1.report = s.report := by
  have hkept := report_performAll hsteps w s
  rcases hfront : s.performAll w steps with ⟨m, _ | e'⟩
  · have hfinishes : s.Finishes w (steps ++ [.publish]) (m.perform w .publish).1 :=
      finishes_append.2 ⟨m, hfront, finishes_singleton.2 rfl⟩
    rw [hfinishes] at herror
    cases herror
  · rw [performAll_append_of_some hfront, ← hkept, hfront]

end Session

/-! ## A tool that prints one text -/

/-- A tool whose every call succeeds and prints the same bytes. -/
def Tool.printing (bytes : ByteArray) : Tool :=
  fun _ _ => { exit := 0, stdout := bytes, stderr := .empty }

/-- The least dump that is described by an entry. -/
def MatrixEntry.leastDump (entry : MatrixEntry) : Json :=
  .object [("name", .string entry.name),
    ("instruction_word_size", .number (.word entry.instructionSize)),
    ("stack_alignment", .number (.word entry.stackAlignment))]

/-- The reader of this library reads the bytes of a text. -/
theorem Services.readDump_standard {text : String} {value : Json}
    (h : Json.ofChars? text.toList = some value) :
    Services.standard.readDump text.toUTF8 = .ok value := by
  simp only [standard, Json.ofBytes?, Utf8.fromUTF8?_toUTF8, Option.bind_eq_bind,
    Option.bind_some, h]

theorem MatrixEntry.readable_leastDump (entry : MatrixEntry) :
    Json.Readable JsonProgress.mostFrames entry.leastDump :=
  ⟨by decide, trivial, trivial, trivial, trivial⟩

theorem Tool.dump_printing (bytes : ByteArray) (number : ℕ) (entry : MatrixEntry) :
    (Tool.printing bytes).dump number entry = bytes := rfl

theorem reproduces_printing {services : Services} {bytes : ByteArray} {entry : MatrixEntry}
    (hread : services.readDump bytes = .ok entry.leastDump) (number : ℕ) :
    Reproduces services (.printing bytes) number entry where
  builds := rfl
  cleans := rfl
  rebuilds := rfl
  digests := by rw [Tool.dump_printing, Tool.dump_printing]
  describes := by
    refine ⟨_, hread, ?_, ?_, ?_⟩
    · exact ⟨[], _, rfl, by simp⟩
    · exact ⟨[_], _, rfl, by simp⟩
    · exact ⟨[_, _], _, rfl, by simp⟩

/-- A single target has the members of all others. -/
theorem deterministic_singleton {services : Services} {tool : Tool} {number : ℕ}
    {entry : MatrixEntry} (h : Reproduces services tool number entry) :
    Deterministic services tool number [entry] := by
  have honly : ∀ index other, [entry][index]? = some other → index = 0 ∧ other = entry := by
    intro index other hindex
    obtain ⟨hlength, rfl⟩ := List.getElem?_eq_some_iff.1 hindex
    obtain rfl : index = 0 := Nat.lt_one_iff.1 hlength
    exact ⟨rfl, rfl⟩
  constructor
  · intro index other hindex
    obtain ⟨rfl, rfl⟩ := honly index other hindex
    exact h
  · intro i first hfirst j second hsecond members others hmembers hothers name
    obtain ⟨rfl, rfl⟩ := honly i first hfirst
    obtain ⟨rfl, rfl⟩ := honly j second hsecond
    rw [hmembers] at hothers
    cases hothers
    exact Iff.rfl

/-- An entry for one of the supported targets. -/
def MatrixEntry.mips64 : MatrixEntry := ⟨"mips64", "mips64", "mips64", 4, 16⟩

/-- A workspace with this entry alone. -/
def Workspace.mips64 (tool : Tool) : Workspace where
  root := ""
  matrix := some (Matrix.entryText "mips64" "mips64" "mips64")
  tool := some tool
  services := .standard

theorem Workspace.lists_mips64 (tool : Tool) :
    (Workspace.mips64 tool).Lists [MatrixEntry.mips64] where
  reads := by
    have htext : Matrix.ofText? (Matrix.entryText "mips64" "mips64" "mips64") =
        some [MatrixEntry.mips64] := by decide +kernel
    refine ⟨_, rfl, ?_⟩
    simp only [mips64, Services.standard, htext]
  nonempty := List.cons_ne_nil _ _

/-! ## The comparison of builds -/

section Comparison

variable {w : Workspace} {tool : Tool} {entries : Matrix}

theorem run_determinism (w : Workspace) (rest : List String) :
    run w ("determinism" :: rest) = runCommand w .determinism := by
  have hword : Command.word .determinism = some "determinism" := rfl
  rw [run, (Command.ofArguments_eq_iff hword _).2 ⟨rest, rfl⟩]

theorem plan_determinism (hmatrix : w.Lists entries) :
    plan w.loadMatrix .determinism = determinismPlan (.ok entries) := by
  rw [Workspace.loadMatrix_eq_ok_iff.2 hmatrix, plan]

theorem exit_determinism (htool : w.tool = some tool) (hmatrix : w.Lists entries) :
    (runCommand w .determinism).run.exit = 0 ↔ Deterministic w.services tool 0 entries := by
  rw [exit_eq_zero_iff_exists_finishes, plan_determinism hmatrix]
  exact Session.exists_finishes_determinismPlan htool rfl

theorem report_determinism (htool : w.tool = some tool) (hmatrix : w.Lists entries)
    (hexit : (runCommand w .determinism).run.exit = 0) :
    (runCommand w .determinism).report =
      some (Json.array (digestRecords w.services tool 0 entries)).pretty := by
  obtain ⟨t, hfinishes⟩ := exit_eq_zero_iff_exists_finishes.1 hexit
  have hsession : session w .determinism = (t, none) := hfinishes
  rw [plan_determinism hmatrix] at hfinishes
  have hreport := Session.report_of_finishes_determinismPlan htool rfl hfinishes
  rw [report_runCommand, hsession]
  exact hreport

theorem publish_notMem (entries : Matrix) :
    .publish ∉ .findTool :: entries.flatMap determinismSteps ++ [.agree] := by
  simp [determinismSteps]

/-- A comparison that fails writes nothing. -/
theorem report_determinism_of_error (hmatrix : w.Lists entries) {e : TaskError}
    (herror : (session w .determinism).2 = some e) :
    (runCommand w .determinism).report = none := by
  have hfront : plan w.loadMatrix .determinism =
      (.findTool :: entries.flatMap determinismSteps ++ [.agree]) ++ [.publish] := by
    rw [plan_determinism hmatrix, determinismPlan, withMatrix, List.append_assoc]
    rfl
  rw [session, hfront] at herror
  rw [report_runCommand, session, hfront]
  exact Session.report_of_error (publish_notMem entries) herror

/-- The comparison of builds succeeds exactly if the matrix is deterministic, and
then writes the report; if it fails, the report file stays as it was. -/
theorem determinism_succeeds_iff (htool : w.tool = some tool) (hmatrix : w.Lists entries)
    (rest : List String) :
    ((run w ("determinism" :: rest)).run.exit = 0 ↔ Deterministic w.services tool 0 entries) ∧
      ((run w ("determinism" :: rest)).run.exit = 0 → ∀ before, ∃ text,
        (run w ("determinism" :: rest)).reportFile before = some text ∧
          Holds text (digestRecords w.services tool 0 entries)) ∧
      ((run w ("determinism" :: rest)).run.exit ≠ 0 →
        (run w ("determinism" :: rest)).run.exit = 1 ∧
          ∀ before, (run w ("determinism" :: rest)).reportFile before = before) := by
  rw [run_determinism]
  refine ⟨exit_determinism htool hmatrix, ?written, ?kept⟩
  case written =>
    intro hexit before
    refine ⟨_, ?_, Tool.holds_digestRecords w.services tool 0 entries⟩
    rw [TaskRun.reportFile, report_determinism htool hmatrix hexit, Option.some_or]
  case kept =>
    intro hexit
    rw [ne_eq, exit_eq_zero_iff] at hexit
    obtain ⟨e, herror⟩ := Option.ne_none_iff_exists'.1 hexit
    refine ⟨exit_eq_one_iff.2 hexit, fun before => ?_⟩
    rw [TaskRun.reportFile, report_determinism_of_error hmatrix herror, Option.none_or]

theorem determinism_succeeds_iff_mips64 :
    (run (.mips64 (.printing MatrixEntry.mips64.leastDump.pretty.toUTF8))
        ["determinism"]).run.exit = 0 ∧
      ∀ before, ∃ text,
        (run (.mips64 (.printing MatrixEntry.mips64.leastDump.pretty.toUTF8))
          ["determinism"]).reportFile before = some text ∧
        Holds text (digestRecords .standard
          (.printing MatrixEntry.mips64.leastDump.pretty.toUTF8) 0 [MatrixEntry.mips64]) := by
  obtain ⟨hsucceeds, hreport, -⟩ := determinism_succeeds_iff rfl
    (Workspace.lists_mips64 (.printing MatrixEntry.mips64.leastDump.pretty.toUTF8)) []
  have hread := Services.readDump_standard
    (Json.ofChars?_toList_pretty MatrixEntry.mips64.readable_leastDump)
  have hexit := hsucceeds.2 (deterministic_singleton (reproduces_printing hread 0))
  exact ⟨hexit, hreport hexit⟩

end Comparison

end Upkeep

end RuntimeTargets
