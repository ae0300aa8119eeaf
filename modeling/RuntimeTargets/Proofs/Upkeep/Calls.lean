import Mathlib
import RuntimeTargets.Proofs.Upkeep.Determinism

/-!
# Which calls a command makes

The calls of a command are fixed before the first is made, by the command and the
matrix alone.  They are made in order until one fails, a failed call fails the
command, and the command succeeds exactly if all calls do, the matrix loads where it
is needed, and the builds reproduce where they are compared.
-/

namespace RuntimeTargets.Upkeep

/-- The entries of a workspace, which are none where they cannot be read. -/
def Workspace.entries (w : Workspace) : Matrix :=
  match w.matrix with
  | none => []
  | some text => (w.services.readMatrix text).toOption.getD []

namespace Workspace

variable {w : Workspace} {entries : Matrix}

theorem entries_of_reads {text : String} (htext : w.matrix = some text)
    (hread : w.services.readMatrix text = .ok entries) : w.entries = entries := by
  simp only [Workspace.entries, htext, hread, Except.toOption, Option.getD_some]

theorem Lists.entries_eq (h : w.Lists entries) : w.entries = entries := by
  obtain ⟨text, htext, hread⟩ := h.reads
  exact entries_of_reads htext hread

theorem entries_of_loadMatrix (hmatrix : w.loadMatrix = .ok entries) : w.entries = entries :=
  (loadMatrix_eq_ok_iff.1 hmatrix).entries_eq

/-- A matrix that cannot be loaded has no entries. -/
theorem entries_of_loadMatrix_error {e : TaskError} (hmatrix : w.loadMatrix = .error e) :
    w.entries = [] := by
  cases htext : w.matrix with
  | none => simp only [Workspace.entries, htext]
  | some text =>
      cases hread : w.services.readMatrix text with
      | error reason =>
          simp only [Workspace.entries, htext, hread, Except.toOption, Option.getD_none]
      | ok entries =>
          cases entries with
          | nil => exact entries_of_reads htext hread
          | cons entry entries =>
              have hlists : w.Lists (entry :: entries) :=
                ⟨⟨text, htext, hread⟩, List.cons_ne_nil _ _⟩
              rw [loadMatrix_eq_ok_iff.2 hlists] at hmatrix
              cases hmatrix

end Workspace

namespace Command

/-- The calls that test the entries of a matrix one by one. -/
def matrixCalls (entries : Matrix) : List (List String) :=
  entries.map fun entry => CommandLine.testFor entry.feature

/-- The calls that build each entry of a matrix twice. -/
def determinismCalls (entries : Matrix) : List (List String) :=
  entries.flatMap fun entry =>
    [CommandLine.dump entry.feature, CommandLine.clean, CommandLine.dump entry.feature]

/-- The calls of a command that is carried out to its end. -/
def calls (entries : Matrix) : Command → List (List String)
  | .format => [CommandLine.format]
  | .formatCheck => [CommandLine.formatCheck]
  | .lint => [CommandLine.lint]
  | .test => [CommandLine.test]
  | .matrix => matrixCalls entries
  | .determinism => determinismCalls entries
  | .everything =>
    [CommandLine.formatCheck, CommandLine.lint, CommandLine.test] ++ matrixCalls entries ++
      determinismCalls entries
  | .help => []

def UsesMatrix : Command → Prop
  | .matrix | .determinism | .everything => True
  | _ => False

/-- What a command checks besides the success of its calls. -/
def Checks (w : Workspace) : Command → Prop
  | .determinism => ∃ tool, w.tool = some tool ∧ Deterministic w.services tool 0 w.entries
  | .everything =>
    ∃ tool, w.tool = some tool ∧
      Deterministic w.services tool (3 + w.entries.length) w.entries
  | _ => True

end Command

/-- The calls made are a first part of those planned, and only the last of them may
have failed, which fails the command. -/
structure FollowsPlan (w : Workspace) (command : Command) (r : TaskRun) : Prop where
  starts : r.calls <+: command.calls w.entries
  accepts : ∀ index arguments, r.calls[index]? = some arguments →
    index + 1 < r.calls.length → w.Accepts index arguments
  fails : ∀ index arguments, r.calls[index]? = some arguments →
    ¬ w.Accepts index arguments → index + 1 = r.calls.length ∧ r.run.exit = 1

/-- The matrix loads where it is used, and all calls planned are made and succeed. -/
structure Completes (w : Workspace) (command : Command) (r : TaskRun) : Prop where
  loads : command.UsesMatrix → ∃ entries, w.Lists entries
  calls : r.calls = command.calls w.entries
  accepts : ∀ index arguments, r.calls[index]? = some arguments → w.Accepts index arguments

section Plan

variable {w : Workspace} {command : Command} {entries : Matrix} {tool : Tool}

/-! ## Planned calls -/

theorem plannedCalls_matrixPlan (entries : Matrix) :
    plannedCalls (matrixPlan (.ok entries)) = Command.matrixCalls entries := by
  rw [matrixPlan, withMatrix, plannedCalls, Command.matrixCalls, List.filterMap_flatMap,
    List.map_eq_flatMap]
  simp only [matrixSteps, testCallFor_eq]
  rfl

theorem plannedCalls_determinismPlan (entries : Matrix) :
    plannedCalls (determinismPlan (.ok entries)) = Command.determinismCalls entries := by
  rw [determinismPlan, withMatrix, plannedCalls_cons_of_none rfl, plannedCalls_append,
    plannedCalls, List.filterMap_flatMap, Command.determinismCalls]
  simp only [determinismSteps, dumpCall_eq, cleanCall_eq]
  exact List.append_nil _

theorem plannedCalls_plan (w : Workspace) (command : Command) :
    plannedCalls (plan w.loadMatrix command) = command.calls w.entries := by
  cases hmatrix : w.loadMatrix with
  | error e =>
      rw [Workspace.entries_of_loadMatrix_error hmatrix]
      cases command <;> rfl
  | ok entries =>
      rw [Workspace.entries_of_loadMatrix hmatrix]
      cases command with
      | matrix => exact plannedCalls_matrixPlan entries
      | determinism => exact plannedCalls_determinismPlan entries
      | everything =>
          rw [plan, plannedCalls_append, plannedCalls_append, plannedCalls_matrixPlan,
            plannedCalls_determinismPlan, formatCheckCall_eq, lintCall_eq, testCall_eq]
          rfl
      | format => rw [plan, formatCall_eq]; rfl
      | formatCheck => rw [plan, formatCheckCall_eq]; rfl
      | lint => rw [plan, lintCall_eq]; rfl
      | test => rw [plan, testCall_eq]; rfl
      | help => rfl

/-! ## The calls made -/

theorem carries_runCommand (w : Workspace) (command : Command) :
    Session.Carries w 0 (command.calls w.entries) (runCommand w command).calls
      (session w command).2 := by
  obtain ⟨made, hmade, hcarries⟩ := Session.exists_made w {} (plan w.loadMatrix command)
  rw [plannedCalls_plan] at hcarries
  rw [calls_runCommand, session, hmade]
  exact hcarries

theorem followsPlan_runCommand (w : Workspace) (command : Command) :
    FollowsPlan w command (runCommand w command) := by
  have hcarries := carries_runCommand w command
  refine ⟨hcarries.starts, ?accepts, ?fails⟩
  case accepts =>
    intro index arguments hindex hnext
    obtain haccepts | ⟨hlast, -⟩ := hcarries.accepts_or_last index arguments hindex
    · rwa [Nat.zero_add] at haccepts
    · omega
  case fails =>
    intro index arguments hindex hfailed
    obtain haccepts | ⟨hlast, herror⟩ := hcarries.accepts_or_last index arguments hindex
    · rw [Nat.zero_add] at haccepts
      exact absurd haccepts hfailed
    · exact ⟨hlast, exit_eq_one_iff.2 herror⟩

/-! ## Success -/

theorem not_finishes_stop {s t : Session} {e : TaskError} {steps : List Step} :
    ¬ s.Finishes w (.stop e :: steps) t := by
  rw [Session.finishes_cons]
  rintro ⟨m, ⟨⟩, -⟩

/-- The calls that a session makes to its end. -/
theorem calls_of_finishes {s t : Session} {steps : List Step} (hfinishes : s.Finishes w steps t) :
    t.calls = s.calls ++ plannedCalls steps := by
  obtain ⟨made, hmade, hcarries⟩ := Session.exists_made w s steps
  rw [hfinishes] at hmade hcarries
  rw [hmade, hcarries.complete rfl]

theorem exists_finishes_determinismPlan_iff {s : Session} (hfindings : s.findings = []) :
    (∃ t, s.Finishes w (determinismPlan w.loadMatrix) t) ↔
      (∃ entries, w.Lists entries) ∧
        ∃ tool, w.tool = some tool ∧
          Deterministic w.services tool s.calls.length w.entries := by
  simp only [← Workspace.loadMatrix_eq_ok_iff]
  cases htool : w.tool with
  | none =>
      simp [determinismPlan, Session.finishes_cons, Session.perform, htool]
  | some tool =>
      cases hmatrix : w.loadMatrix with
      | error e =>
          simp [determinismPlan, Session.finishes_findTool htool, withMatrix, not_finishes_stop]
      | ok entries =>
          rw [Session.exists_finishes_determinismPlan htool hfindings,
            Workspace.entries_of_loadMatrix hmatrix]
          simp

theorem onlyCalls_matrixPlan (entries : Matrix) :
    ∀ step ∈ matrixPlan (.ok entries), step.OnlyCalls := by
  intro step hstep
  obtain ⟨entry, -, hstep⟩ := List.mem_flatMap.1 hstep
  rw [matrixSteps, List.mem_pair] at hstep
  obtain rfl | rfl := hstep <;> exact trivial

/-- The part of everything that comes before builds are compared. -/
def testSteps (entries : Matrix) : List Step :=
  [.call formatCheckCall, .call lintCall, .call testCall] ++ matrixPlan (.ok entries)

theorem onlyCalls_testSteps (entries : Matrix) : ∀ step ∈ testSteps entries, step.OnlyCalls := by
  rw [testSteps, List.forall_mem_append]
  refine ⟨?_, onlyCalls_matrixPlan entries⟩
  simp [Step.OnlyCalls]

theorem plannedCalls_testSteps (entries : Matrix) : plannedCalls (testSteps entries) =
    [CommandLine.formatCheck, CommandLine.lint, CommandLine.test] ++
      Command.matrixCalls entries := by
  rw [testSteps, plannedCalls_append, plannedCalls_matrixPlan, formatCheckCall_eq, lintCall_eq,
    testCall_eq]
  rfl

theorem plan_everything (hmatrix : w.loadMatrix = .ok entries) :
    plan w.loadMatrix .everything = testSteps entries ++ determinismPlan w.loadMatrix := by
  rw [hmatrix]
  rfl

/-- Where builds begin to be compared, nothing was found yet. -/
theorem finishes_testSteps {t : Session}
    (hfinishes : Session.Finishes w {} (testSteps entries) t) :
    t.findings = [] ∧ t.calls.length = 3 + entries.length := by
  refine ⟨Session.findings_of_finishes (onlyCalls_testSteps entries) hfinishes, ?_⟩
  rw [calls_of_finishes hfinishes, plannedCalls_testSteps]
  simp only [Command.matrixCalls, List.nil_append, List.length_append, List.length_map,
    List.length_cons, List.length_nil]

/-- A plan that needs the matrix ends only where it loads. -/
theorem exists_lists_of_finishes_withMatrix {s t : Session} {steps : Matrix → List Step}
    (hfinishes : s.Finishes w (withMatrix w.loadMatrix steps) t) : ∃ entries, w.Lists entries := by
  cases hmatrix : w.loadMatrix with
  | ok entries => exact ⟨entries, Workspace.loadMatrix_eq_ok_iff.1 hmatrix⟩
  | error e =>
      rw [hmatrix] at hfinishes
      exact absurd hfinishes not_finishes_stop

theorem checks_of_finishes {t : Session}
    (hfinishes : Session.Finishes w {} (plan w.loadMatrix command) t) :
    (command.UsesMatrix → ∃ entries, w.Lists entries) ∧ command.Checks w := by
  cases command with
  | matrix => exact ⟨fun _ => exists_lists_of_finishes_withMatrix hfinishes, trivial⟩
  | determinism =>
      obtain ⟨hloads, hchecks⟩ := (exists_finishes_determinismPlan_iff rfl).1 ⟨t, hfinishes⟩
      exact ⟨fun _ => hloads, hchecks⟩
  | everything =>
      rw [plan, Session.finishes_append] at hfinishes
      obtain ⟨m, hfront, hcompares⟩ := hfinishes
      obtain ⟨_, -, htests⟩ := Session.finishes_append.1 hfront
      obtain ⟨entries, hlists⟩ := exists_lists_of_finishes_withMatrix htests
      rw [Workspace.loadMatrix_eq_ok_iff.2 hlists] at hfront
      obtain ⟨hfindings, hcalls⟩ := finishes_testSteps hfront
      have hchecks := ((exists_finishes_determinismPlan_iff hfindings).1 ⟨t, hcompares⟩).2
      rw [hcalls] at hchecks
      refine ⟨fun _ => ⟨entries, hlists⟩, ?_⟩
      rwa [Command.Checks, hlists.entries_eq] at *
  | _ => exact ⟨False.elim, trivial⟩

/-- Plans that only call are carried out to their end if the calls succeed. -/
theorem exists_finishes_of_onlyCalls {steps : List Step} {calls : List (List String)}
    (honly : ∀ step ∈ steps, step.OnlyCalls) (hcalls : plannedCalls steps <+: calls)
    (haccepts : ∀ index arguments, calls[index]? = some arguments → w.Accepts index arguments) :
    ∃ t, Session.Finishes w {} steps t := by
  refine Session.exists_finishes_of_accepts honly fun index arguments hindex => ?_
  obtain ⟨later, rfl⟩ := hcalls
  have hlength := (List.getElem?_eq_some_iff.1 hindex).1
  have hplanned : (plannedCalls steps ++ later)[index]? = some arguments :=
    (List.getElem?_append_left hlength).trans hindex
  exact (Nat.zero_add index).symm ▸ haccepts index arguments hplanned

theorem exists_finishes_of_checks
    (hloads : command.UsesMatrix → ∃ entries, w.Lists entries)
    (haccepts : ∀ index arguments, (command.calls w.entries)[index]? = some arguments →
      w.Accepts index arguments)
    (hchecks : command.Checks w) :
    ∃ t, Session.Finishes w {} (plan w.loadMatrix command) t := by
  have hcalls : plannedCalls (plan w.loadMatrix command) <+: command.calls w.entries :=
    (plannedCalls_plan w command).symm ▸ List.prefix_refl _
  cases command with
  | matrix =>
      obtain ⟨entries, hlists⟩ := hloads trivial
      rw [Workspace.loadMatrix_eq_ok_iff.2 hlists] at hcalls ⊢
      exact exists_finishes_of_onlyCalls (onlyCalls_matrixPlan entries) hcalls haccepts
  | determinism =>
      exact (exists_finishes_determinismPlan_iff rfl).2 ⟨hloads trivial, hchecks⟩
  | everything =>
      obtain ⟨entries, hlists⟩ := hloads trivial
      have hfront : plannedCalls (testSteps entries) <+: Command.everything.calls w.entries := by
        rw [plannedCalls_testSteps, hlists.entries_eq]
        exact List.prefix_append _ _
      obtain ⟨m, hfinishes⟩ :=
        exists_finishes_of_onlyCalls (onlyCalls_testSteps entries) hfront haccepts
      obtain ⟨hfindings, hmade⟩ := finishes_testSteps hfinishes
      rw [Command.Checks, hlists.entries_eq, ← hmade, ← hlists.entries_eq] at hchecks
      obtain ⟨t, hcompares⟩ := (exists_finishes_determinismPlan_iff hfindings).2
        ⟨⟨entries, hlists⟩, hchecks⟩
      rw [plan_everything (Workspace.loadMatrix_eq_ok_iff.2 hlists)]
      exact ⟨t, Session.finishes_append.2 ⟨m, hfinishes, hcompares⟩⟩
  | _ => exact exists_finishes_of_onlyCalls (by simp [plan, Step.OnlyCalls]) hcalls haccepts

theorem exit_eq_zero_iff_checks (w : Workspace) (command : Command) :
    (runCommand w command).run.exit = 0 ↔
      Completes w command (runCommand w command) ∧ command.Checks w := by
  have hcarries := carries_runCommand w command
  constructor
  · intro hexit
    obtain ⟨t, hfinishes⟩ := exit_eq_zero_iff_exists_finishes.1 hexit
    obtain ⟨hloads, hchecks⟩ := checks_of_finishes hfinishes
    rw [exit_eq_zero_iff] at hexit
    refine ⟨⟨hloads, hcarries.complete hexit, fun index arguments hindex => ?_⟩, hchecks⟩
    obtain haccepts | ⟨-, herror⟩ := hcarries.accepts_or_last index arguments hindex
    · rwa [Nat.zero_add] at haccepts
    · exact absurd hexit herror
  · rintro ⟨hcompletes, hchecks⟩
    have haccepts := hcompletes.accepts
    rw [hcompletes.calls] at haccepts
    exact exit_eq_zero_iff_exists_finishes.2
      (exists_finishes_of_checks hcompletes.loads haccepts hchecks)

/-- Every command line asks for one command, which makes the calls of its plan in
order, up to the first that fails, and succeeds exactly if it completes its plan and
its own checks pass. -/
theorem run_follows_plan (w : Workspace) (arguments : List String) :
    ∃ command : Command, (∀ other : Command, other.AskedBy arguments ↔ other = command) ∧
      FollowsPlan w command (run w arguments) ∧ (run w arguments).run.exit ≤ 1 ∧
      ((run w arguments).run.exit = 0 ↔
        Completes w command (run w arguments) ∧ command.Checks w) := by
  refine ⟨.ofArguments arguments, fun other => Command.askedBy_iff, ?_⟩
  rw [run]
  refine ⟨followsPlan_runCommand w _, ?_, exit_eq_zero_iff_checks w _⟩
  rw [exit_runCommand]
  split <;> decide

-- A tool that fails from its second call on is not called again.
example :
    (run ⟨"", none, some fun number _ => ⟨number, .empty, .empty⟩, .standard⟩ ["ci"]).calls =
      [CommandLine.formatCheck, CommandLine.lint] := by
  decide

end Plan

end RuntimeTargets.Upkeep
