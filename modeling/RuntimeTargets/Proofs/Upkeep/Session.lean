import Mathlib
import RuntimeTargets.Upkeep.Program

/-!
# Sessions step by step

A session makes the calls of its steps in their order, numbers them by how many
were made before, and stops at the first step that fails.  What is known of a
session whatever the tool answers is `exists_made`: the calls made are a first
part of those planned, and only the last of them may have failed.
-/

namespace RuntimeTargets.Upkeep

namespace Workspace

variable {w : Workspace} {tool : Tool} {entries : Matrix}

/-- The matrix loads: the file is there, is read as these entries, and has at least one. -/
structure Lists (w : Workspace) (entries : Matrix) : Prop where
  reads : ∃ text, w.matrix = some text ∧ w.services.readMatrix text = .ok entries
  nonempty : entries ≠ []

theorem loadMatrix_eq_ok_iff : w.loadMatrix = .ok entries ↔ w.Lists entries := by
  rw [loadMatrix]
  constructor
  · intro hmatrix
    split at hmatrix
    · cases hmatrix
    · rename_i text htext
      split at hmatrix
      · cases hmatrix
      · cases hmatrix
      · rename_i hne hread
        cases hmatrix
        exact ⟨⟨text, htext, hread⟩, hne⟩
  · rintro ⟨⟨text, htext, hread⟩, hne⟩
    cases entries with
    | nil => exact absurd rfl hne
    | cons entry entries => simp only [htext, hread]

/-- The call with a number is made, and succeeds. -/
def Accepts (w : Workspace) (number : ℕ) (arguments : List String) : Prop :=
  ∃ tool, w.tool = some tool ∧ (tool number arguments).exit = 0

theorem accepts_iff (htool : w.tool = some tool) {number : ℕ} {arguments : List String} :
    w.Accepts number arguments ↔ (tool number arguments).exit = 0 := by
  constructor
  · rintro ⟨other, hother, hsucceeds⟩
    rw [htool] at hother
    cases hother
    exact hsucceeds
  · intro hsucceeds
    exact ⟨tool, htool, hsucceeds⟩

end Workspace

/-- A step that fails by its call or not at all, and finds nothing. -/
def Step.OnlyCalls : Step → Prop
  | .say _ => True
  | .call _ => True
  | _ => False

theorem plannedCalls_cons_of_none {step : Step} (hcall : step.call? = none) (steps : List Step) :
    plannedCalls (step :: steps) = plannedCalls steps :=
  List.filterMap_cons_none hcall

theorem plannedCalls_cons_of_some {step : Step} {arguments : List String}
    (hcall : step.call? = some arguments) (steps : List Step) :
    plannedCalls (step :: steps) = arguments :: plannedCalls steps :=
  List.filterMap_cons_some hcall

theorem plannedCalls_append (steps later : List Step) :
    plannedCalls (steps ++ later) = plannedCalls steps ++ plannedCalls later :=
  List.filterMap_append

namespace Session

variable {w : Workspace} {tool : Tool} {s m t : Session} {step : Step} {steps later : List Step}
  {arguments : List String} {e : TaskError}

/-! ## Runs of steps -/

/-- All steps are taken, and end in the session `t`. -/
def Finishes (w : Workspace) (s : Session) (steps : List Step) (t : Session) : Prop :=
  s.performAll w steps = (t, none)

theorem performAll_cons_of_none (hstep : s.perform w step = (t, none)) (steps : List Step) :
    s.performAll w (step :: steps) = t.performAll w steps := by
  rw [performAll, hstep]

theorem performAll_cons_of_some (hstep : s.perform w step = (t, some e)) (steps : List Step) :
    s.performAll w (step :: steps) = (t, some e) := by
  rw [performAll, hstep]

theorem finishes_nil : s.Finishes w [] t ↔ s = t := by
  rw [Finishes, performAll, Prod.mk.injEq, and_iff_left rfl]

theorem finishes_cons : s.Finishes w (step :: steps) t ↔
    ∃ m, s.perform w step = (m, none) ∧ m.Finishes w steps t := by
  cases hstep : s.perform w step with
  | mk next error =>
      cases error with
      | none =>
          rw [Finishes, performAll_cons_of_none hstep]
          simp only [Prod.mk.injEq, and_true, exists_eq_left', Finishes]
      | some e =>
          rw [Finishes, performAll_cons_of_some hstep]
          simp only [Prod.mk.injEq, reduceCtorEq, and_false, false_and, exists_false]

theorem finishes_singleton : s.Finishes w [step] t ↔ s.perform w step = (t, none) := by
  simp only [finishes_cons, finishes_nil, exists_eq_right]

theorem finishes_append : s.Finishes w (steps ++ later) t ↔
    ∃ m, s.Finishes w steps m ∧ m.Finishes w later t := by
  induction steps generalizing s with
  | nil => simp only [List.nil_append, finishes_nil, exists_eq_left']
  | cons step steps ih =>
      simp only [List.cons_append, finishes_cons, ih]
      constructor
      · rintro ⟨next, hstep, m, hsteps, hlater⟩
        exact ⟨m, ⟨next, hstep, hsteps⟩, hlater⟩
      · rintro ⟨m, ⟨next, hstep, hsteps⟩, hlater⟩
        exact ⟨next, hstep, m, hsteps, hlater⟩

theorem performAll_append_of_some (hsteps : s.performAll w steps = (t, some e))
    (later : List Step) : s.performAll w (steps ++ later) = (t, some e) := by
  induction steps generalizing s with
  | nil => cases hsteps
  | cons step steps ih =>
      rcases hstep : s.perform w step with ⟨next, _ | e'⟩
      · rw [performAll_cons_of_none hstep] at hsteps
        rw [List.cons_append, performAll_cons_of_none hstep, ih hsteps]
      · rw [performAll_cons_of_some hstep] at hsteps
        rw [List.cons_append, performAll_cons_of_some hstep, hsteps]

/-! ## Calls -/

/-- A session in which one more call was made. -/
def called (s : Session) (arguments : List String) : Session :=
  { s.say ("[RUN] " ++ commandLine arguments) with calls := s.calls ++ [arguments] }

/-- A session after a call whose output was let through. -/
def passed (s : Session) (tool : Tool) (arguments : List String) : Session :=
  { s.called arguments with
    stdout := s.stdout ++ (tool s.calls.length arguments).stdout
    stderr := (s.called arguments).stderr ++ (tool s.calls.length arguments).stderr }

/-- A session after a call whose output was kept back. -/
def kept (s : Session) (tool : Tool) (arguments : List String) : Session :=
  { s.called arguments with dumps := (tool s.calls.length arguments).stdout :: s.dumps }

theorem call_of_tool (htool : w.tool = some tool) (s : Session) (arguments : List String) :
    s.call w arguments = (s.called arguments, .ok (tool s.calls.length arguments)) := by
  rw [call, htool]
  rfl

theorem perform_call (htool : w.tool = some tool) (s : Session) (arguments : List String) :
    s.perform w (.call arguments) =
      (s.passed tool arguments,
        if (tool s.calls.length arguments).exit = 0 then none
        else some (.callFailed arguments)) := by
  rw [perform, call_of_tool htool]
  rfl

theorem perform_capture (htool : w.tool = some tool) (s : Session) (arguments : List String) :
    s.perform w (.capture arguments) =
      if (tool s.calls.length arguments).exit = 0 then (s.kept tool arguments, none)
      else
        (s.called arguments,
          some (.captureFailed arguments
            (Utf8.lossy (tool s.calls.length arguments).stderr))) := by
  rw [perform, call_of_tool htool]
  rfl

/-- Without a tool there are no calls. -/
theorem perform_of_no_tool (htool : w.tool = none) (hcall : step.call? = some arguments) :
    (s.perform w step).1.calls = s.calls ∧ (s.perform w step).2 = some .toolAbsent := by
  cases step <;> cases hcall <;> simp [perform, call, htool, say]

theorem perform_of_tool (htool : w.tool = some tool) (hcall : step.call? = some arguments) :
    (s.perform w step).1.calls = s.calls ++ [arguments] ∧
      ((s.perform w step).2 = none ↔ (tool s.calls.length arguments).exit = 0) := by
  cases step with
  | call arguments =>
      cases hcall
      rw [perform_call htool]
      exact ⟨rfl, by simp⟩
  | capture arguments =>
      cases hcall
      rw [perform_capture htool]
      by_cases hsucceeds : (tool s.calls.length arguments).exit = 0
      · rw [if_pos hsucceeds]
        exact ⟨rfl, iff_of_true rfl hsucceeds⟩
      · rw [if_neg hsucceeds]
        exact ⟨rfl, iff_of_false (Option.some_ne_none _) hsucceeds⟩
  | _ => cases hcall

theorem calls_perform (hcall : step.call? = none) : (s.perform w step).1.calls = s.calls := by
  cases step with
  | compare entry =>
    rw [perform]
    split <;> rfl
  | agree =>
    rw [perform]
    split <;> rfl
  | call => cases hcall
  | capture => cases hcall
  | _ => rfl

/-! ## What a session calls -/

/-- The calls `made`, numbered from `number` on, are a first part of those planned
in which each call is followed by another only if it succeeds.  All are made and
succeed unless there is an error. -/
structure Carries (w : Workspace) (number : ℕ) (planned made : List (List String))
    (error : Option TaskError) : Prop where
  starts : made <+: planned
  accepts_or_last : ∀ index arguments, made[index]? = some arguments →
    w.Accepts (number + index) arguments ∨ (index + 1 = made.length ∧ error ≠ none)
  complete : error = none → made = planned

namespace Carries

variable {number : ℕ} {planned made : List (List String)} {error : Option TaskError}

theorem done (w : Workspace) (number : ℕ) : Carries w number [] [] none where
  starts := List.nil_prefix
  accepts_or_last _ _ hindex := by cases hindex
  complete _ := rfl

theorem halted (w : Workspace) (number : ℕ) (planned : List (List String)) (e : TaskError) :
    Carries w number planned [] (some e) where
  starts := List.nil_prefix
  accepts_or_last _ _ hindex := by cases hindex
  complete herror := by cases herror

theorem failed (w : Workspace) (number : ℕ) (arguments : List String)
    (planned : List (List String)) (e : TaskError) :
    Carries w number (arguments :: planned) [arguments] (some e) where
  starts := List.prefix_append [arguments] planned
  accepts_or_last index other hindex := by
    have hlast : index < 1 := (List.getElem?_eq_some_iff.1 hindex).1
    exact Or.inr ⟨by simp; omega, Option.some_ne_none e⟩
  complete herror := by cases herror

theorem cons (h : Carries w (number + 1) planned made error)
    (haccepts : w.Accepts number arguments) :
    Carries w number (arguments :: planned) (arguments :: made) error where
  starts := (List.prefix_cons_inj arguments).2 h.starts
  accepts_or_last index other hindex := by
    cases index with
    | zero =>
        cases hindex
        exact Or.inl haccepts
    | succ index =>
        rw [List.getElem?_cons_succ] at hindex
        obtain hother | ⟨hlast, herror⟩ := h.accepts_or_last index other hindex
        · rw [Nat.add_right_comm] at hother
          exact Or.inl hother
        · exact Or.inr ⟨congrArg (· + 1) hlast, herror⟩
  complete herror := congrArg (arguments :: ·) (h.complete herror)

end Carries

/-- Whatever the tool answers, a session carries its plan as far as the calls succeed. -/
theorem exists_made (w : Workspace) (s : Session) (steps : List Step) :
    ∃ made, (s.performAll w steps).1.calls = s.calls ++ made ∧
      Carries w s.calls.length (plannedCalls steps) made (s.performAll w steps).2 := by
  induction steps generalizing s with
  | nil => exact ⟨[], (List.append_nil _).symm, .done w _⟩
  | cons step steps ih =>
      rcases hstep : s.perform w step with ⟨next, error⟩
      cases hcall : step.call? with
      | none =>
          have hcalls : next.calls = s.calls := by
            have hkept := calls_perform hcall (w := w) (s := s)
            rwa [hstep] at hkept
          rw [plannedCalls_cons_of_none hcall]
          cases error with
          | some e =>
              rw [performAll_cons_of_some hstep]
              exact ⟨[], by rw [hcalls, List.append_nil], .halted w _ _ e⟩
          | none =>
              rw [performAll_cons_of_none hstep, ← hcalls]
              exact ih next
      | some arguments =>
          rw [plannedCalls_cons_of_some hcall]
          cases htool : w.tool with
          | none =>
              obtain ⟨hcalls, herror⟩ := perform_of_no_tool htool hcall (s := s)
              rw [hstep] at hcalls herror
              cases herror
              rw [performAll_cons_of_some hstep]
              exact ⟨[], hcalls.trans (List.append_nil _).symm, .halted w _ _ _⟩
          | some tool =>
              obtain ⟨hcalls, hsucceeds⟩ := perform_of_tool htool hcall (s := s)
              rw [hstep] at hcalls hsucceeds
              cases error with
              | some e =>
                  rw [performAll_cons_of_some hstep]
                  exact ⟨[arguments], hcalls, .failed w _ _ _ e⟩
              | none =>
                  obtain ⟨made, hmade, hcarries⟩ := ih next
                  rw [hcalls, List.length_append, List.length_singleton] at hcarries
                  rw [performAll_cons_of_none hstep]
                  refine ⟨arguments :: made, ?_, hcarries.cons ⟨tool, htool, hsucceeds.1 rfl⟩⟩
                  rw [hmade, hcalls, List.append_assoc, List.singleton_append]

/-! ## What a session leaves alone -/

theorem report_perform (hstep : step ≠ .publish) (w : Workspace) (s : Session) :
    (s.perform w step).1.report = s.report := by
  cases step with
  | call arguments =>
      cases htool : w.tool with
      | none => simp [perform, call, htool, say]
      | some tool => rw [perform_call htool]; rfl
  | capture arguments =>
      cases htool : w.tool with
      | none => simp [perform, call, htool, say]
      | some tool =>
          rw [perform_capture htool]
          split <;> rfl
  | compare entry =>
      rw [perform]
      split <;> rfl
  | agree =>
      rw [perform]
      split <;> rfl
  | publish => exact absurd rfl hstep
  | _ => rfl

/-- Only the last step of a plan writes the report. -/
theorem report_performAll (hsteps : .publish ∉ steps) (w : Workspace) (s : Session) :
    (s.performAll w steps).1.report = s.report := by
  induction steps generalizing s with
  | nil => rfl
  | cons step steps ih =>
      obtain ⟨hstep, hsteps⟩ := List.ne_and_not_mem_of_not_mem_cons hsteps
      have hkept := report_perform hstep.symm w s
      rcases hnext : s.perform w step with ⟨next, error⟩
      rw [hnext] at hkept
      cases error with
      | some e => rw [performAll_cons_of_some hnext, hkept]
      | none => rw [performAll_cons_of_none hnext, ih hsteps, hkept]

/-! ## Steps that only call -/

theorem perform_of_onlyCalls (honly : step.OnlyCalls) (w : Workspace) (s : Session) :
    (s.perform w step).1.findings = s.findings ∧
      ((s.perform w step).2 = none ↔
        ∀ arguments, step.call? = some arguments → w.Accepts s.calls.length arguments) := by
  cases step with
  | say line => exact ⟨rfl, by simp [perform, Step.call?]⟩
  | call arguments =>
      cases htool : w.tool with
      | none => simp [perform, call, htool, say, Step.call?, Workspace.Accepts]
      | some tool =>
          have hcall : (Step.call arguments).call? = some arguments := rfl
          refine ⟨by rw [perform_call htool]; rfl, ?_⟩
          rw [(perform_of_tool htool hcall).2]
          simp [Step.call?, Workspace.accepts_iff htool]
  | _ => exact absurd honly not_false

/-- Steps that only call are all taken if the calls succeed. -/
theorem exists_finishes_of_accepts (honly : ∀ step ∈ steps, step.OnlyCalls)
    (haccepts : ∀ index arguments, (plannedCalls steps)[index]? = some arguments →
      w.Accepts (s.calls.length + index) arguments) :
    ∃ t, s.Finishes w steps t := by
  induction steps generalizing s with
  | nil => exact ⟨s, finishes_nil.2 rfl⟩
  | cons step steps ih =>
      obtain ⟨hstep, hsteps⟩ := List.forall_mem_cons.1 honly
      have hperform := (perform_of_onlyCalls hstep w s).2
      rcases hnext : s.perform w step with ⟨next, error⟩
      rw [hnext] at hperform
      cases hcall : step.call? with
      | none =>
          have hcalls : next.calls = s.calls := by
            have hkept := calls_perform hcall (w := w) (s := s)
            rwa [hnext] at hkept
          obtain rfl : error = none := hperform.2 (by simp [hcall])
          rw [plannedCalls_cons_of_none hcall, ← hcalls] at haccepts
          obtain ⟨t, hfinishes⟩ := ih hsteps haccepts
          exact ⟨t, finishes_cons.2 ⟨next, hnext, hfinishes⟩⟩
      | some arguments =>
          rw [plannedCalls_cons_of_some hcall] at haccepts
          have hfirst : w.Accepts s.calls.length arguments := haccepts 0 arguments rfl
          obtain rfl : error = none := hperform.2 (by simpa [hcall] using hfirst)
          obtain ⟨tool, htool, -⟩ := hfirst
          have hcalls : next.calls.length = s.calls.length + 1 := by
            have hmade := (perform_of_tool htool hcall (s := s)).1
            rw [hnext] at hmade
            rw [hmade, List.length_append, List.length_singleton]
          have hlater : ∀ index arguments, (plannedCalls steps)[index]? = some arguments →
              w.Accepts (next.calls.length + index) arguments := by
            intro index other hindex
            have hother := haccepts (index + 1) other hindex
            rwa [hcalls, Nat.add_right_comm]
          obtain ⟨t, hfinishes⟩ := ih hsteps hlater
          exact ⟨t, finishes_cons.2 ⟨next, hnext, hfinishes⟩⟩

theorem findings_of_finishes (honly : ∀ step ∈ steps, step.OnlyCalls)
    (hfinishes : s.Finishes w steps t) : t.findings = s.findings := by
  induction steps generalizing s with
  | nil => rw [finishes_nil.1 hfinishes]
  | cons step steps ih =>
      obtain ⟨hstep, hsteps⟩ := List.forall_mem_cons.1 honly
      obtain ⟨next, hnext, hlater⟩ := finishes_cons.1 hfinishes
      have hkept := (perform_of_onlyCalls hstep w s).1
      rw [hnext] at hkept
      rw [ih hsteps hlater, hkept]

end Session

/-! ## Runs of commands -/

section Runs

variable {w : Workspace} {command : Command}

/-- A command carried out as a session, with the error that stopped it. -/
def session (w : Workspace) (command : Command) : Session × Option TaskError :=
  Session.performAll w {} (plan w.loadMatrix command)

theorem calls_runCommand : (runCommand w command).calls = (session w command).1.calls := rfl

theorem report_runCommand : (runCommand w command).report = (session w command).1.report := rfl

theorem exit_runCommand :
    (runCommand w command).run.exit = if (session w command).2 = none then 0 else 1 := by
  rcases hsession : session w command with ⟨s, error⟩
  rw [session] at hsession
  rw [runCommand, hsession]
  cases error <;> rfl

theorem exit_eq_zero_iff : (runCommand w command).run.exit = 0 ↔ (session w command).2 = none := by
  rw [exit_runCommand, ite_eq_left_iff]
  exact ⟨fun h => of_not_not fun herror => absurd (h herror) one_ne_zero, fun h => absurd h⟩

theorem exit_eq_one_iff : (runCommand w command).run.exit = 1 ↔ (session w command).2 ≠ none := by
  rw [exit_runCommand, ite_eq_right_iff]
  exact ⟨fun h herror => absurd (h herror) zero_ne_one, fun h herror => absurd herror h⟩

theorem exit_eq_zero_iff_exists_finishes : (runCommand w command).run.exit = 0 ↔
    ∃ t, Session.Finishes w {} (plan w.loadMatrix command) t := by
  rw [exit_eq_zero_iff]
  constructor
  · intro herror
    exact ⟨(session w command).1, Prod.ext rfl herror⟩
  · rintro ⟨t, hfinishes⟩
    exact congrArg Prod.snd hfinishes

end Runs

end RuntimeTargets.Upkeep
