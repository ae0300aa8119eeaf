import Mathlib
import RuntimeTargets.Selection
import RuntimeTargets.Target.Catalog

/-!
# Which target a build gets

Only the features of the supported targets count, whatever else is set.  A build that
enables one of them gets that target, a build that enables none gets the target paired
with its architecture, and every other build is stopped: for want of a target, or
because it enables several, which are then listed.  The features, the values that the
build tool is told to expect and the names of the targets are the same list.
-/

namespace RuntimeTargets.Selection

variable {isSet other : String → Bool} {architecture : Option String} {feature name : String}

/-! ## Features -/

/-- The features that select a target, in the order of the targets. -/
def targetFeatures : List String := ["mips64", "loongarch64", "aarch64", "riscv64", "ppc64"]

/-- Each of these features with the architecture that it is paired with. -/
def pairings : List (String × String) :=
  [("mips64", "mips64"), ("loongarch64", "loongarch64"), ("aarch64", "aarch64"),
    ("riscv64", "riscv64"), ("ppc64", "powerpc64")]

theorem features_eq : features = targetFeatures := rfl

theorem choices_eq : choices = pairings := rfl

theorem map_fst_pairings : pairings.map Prod.fst = targetFeatures := rfl

/-- The features are the names of the targets. -/
theorem targetFeatures_eq : targetFeatures = Target.all.map Target.name := rfl

theorem nodup_targetFeatures : targetFeatures.Nodup := by
  rw [targetFeatures_eq]
  exact Target.nodup_names

/-! ## What is enabled -/

/-- The feature of a target is enabled: its variable is set. -/
def Enables (isSet : String → Bool) (feature : String) : Prop :=
  feature ∈ targetFeatures ∧ isSet ("CARGO_FEATURE_" ++ feature.toUpper) = true

theorem variableName_eq (feature : String) :
    variableName feature = "CARGO_FEATURE_" ++ feature.toUpper := rfl

theorem mem_enabled_iff : feature ∈ enabled isSet ↔ Enables isSet feature := by
  rw [enabled, List.mem_filter, features_eq, variableName_eq, Enables]

theorem enabled_sublist (isSet : String → Bool) : (enabled isSet).Sublist targetFeatures :=
  features_eq ▸ List.filter_sublist

theorem enabled_congr (h : ∀ feature, Enables isSet feature ↔ Enables other feature) :
    enabled isSet = enabled other := by
  apply List.filter_congr
  intro feature hfeature
  rw [features_eq] at hfeature
  rw [variableName_eq, Bool.eq_iff_iff]
  simpa only [Enables, hfeature, true_and] using h feature

theorem enabled_eq_nil_iff : enabled isSet = [] ↔ ∀ feature, ¬ Enables isSet feature := by
  simp only [List.eq_nil_iff_forall_not_mem, mem_enabled_iff]

/-- No feature is listed twice, so where one is enabled and no other, it is the whole
list. -/
theorem enabled_eq_singleton_iff : enabled isSet = [name] ↔
    Enables isSet name ∧ ∀ feature, Enables isSet feature → feature = name := by
  have hnodup := nodup_targetFeatures.sublist (enabled_sublist isSet)
  rw [← List.perm_singleton, List.perm_ext_iff_of_nodup hnodup (List.nodup_singleton name)]
  simp only [mem_enabled_iff, List.mem_singleton]
  constructor
  · intro hall
    exact ⟨(hall name).2 rfl, fun feature => (hall feature).1⟩
  · rintro ⟨hname, honly⟩ feature
    exact ⟨honly feature, fun hsame => hsame ▸ hname⟩

/-! ## The choice -/

/-- The feature that a build asks for: the only one that it enables, or the one that is
paired with its architecture if it enables none. -/
inductive Asks (isSet : String → Bool) (architecture : Option String) (name : String) : Prop where
  | byFeature (henabled : Enables isSet name)
      (honly : ∀ feature, Enables isSet feature → feature = name)
  | byArchitecture (hnone : ∀ feature, ¬ Enables isSet feature) (target : String)
      (htarget : architecture = some target) (hpaired : (name, target) ∈ pairings)

theorem find?_pairings :
    ∀ pairing ∈ pairings, pairings.find? (·.2 = pairing.2) = some pairing := by
  decide

/-- No two features are paired with one architecture, and none with no architecture. -/
theorem find?_choices_eq_some_iff {pairing : String × String} :
    choices.find? (·.2 = architecture.getD "") = some pairing ↔
      architecture = some pairing.2 ∧ pairing ∈ pairings := by
  have hnamed : ∀ pairing ∈ pairings, pairing.2 ≠ "" := by decide
  rw [choices_eq]
  constructor
  · intro hfound
    have hmem := List.mem_of_find?_eq_some hfound
    have htarget : pairing.2 = architecture.getD "" := by simpa using List.find?_some hfound
    cases architecture with
    | none => exact absurd htarget (hnamed pairing hmem)
    | some target => exact ⟨congrArg some htarget.symm, hmem⟩
  · rintro ⟨rfl, hmem⟩
    exact find?_pairings pairing hmem

theorem asks_iff_of_one (hone : enabled isSet = [feature]) :
    Asks isSet architecture name ↔ feature = name := by
  obtain ⟨henabled, honly⟩ := enabled_eq_singleton_iff.1 hone
  constructor
  · rintro (⟨hname, -⟩ | ⟨hnone, -, -, -⟩)
    · exact (honly name hname).symm
    · exact absurd henabled (hnone feature)
  · rintro rfl
    exact .byFeature henabled honly

theorem asks_iff_of_none (hnone : enabled isSet = []) : Asks isSet architecture name ↔
    ∃ target, choices.find? (·.2 = architecture.getD "") = some (name, target) := by
  have hnone := enabled_eq_nil_iff.1 hnone
  simp only [find?_choices_eq_some_iff]
  constructor
  · rintro (⟨hname, -⟩ | ⟨-, target, htarget, hpaired⟩)
    · exact absurd hname (hnone name)
    · exact ⟨target, htarget, hpaired⟩
  · rintro ⟨target, htarget, hpaired⟩
    exact .byArchitecture hnone target htarget hpaired

theorem not_asks_of_several (hnone : enabled isSet ≠ [])
    (hone : ∀ feature, enabled isSet ≠ [feature]) : ¬ Asks isSet architecture name := by
  rintro (⟨hname, honly⟩ | ⟨hnone', -, -, -⟩)
  · exact hone name (enabled_eq_singleton_iff.2 ⟨hname, honly⟩)
  · exact hnone (enabled_eq_nil_iff.2 hnone')

theorem select_eq_ok_iff :
    select isSet architecture = .ok name ↔ Asks isSet architecture name := by
  unfold select
  split
  · rename_i feature hone
    rw [asks_iff_of_one hone, Except.ok.injEq]
  · rename_i hnone
    rw [asks_iff_of_none hnone]
    dsimp only
    split
    · rename_i feature target hfound
      rw [hfound]
      simp only [Except.ok.injEq, Option.some.injEq, Prod.mk.injEq, exists_and_left,
        exists_eq', and_true]
    · rename_i hmissing
      rw [hmissing]
      simp only [reduceCtorEq, exists_false]
  · rename_i hone hnone
    exact iff_of_false nofun (not_asks_of_several hnone hone)

theorem select_of_several (hfirst : Enables isSet feature) (hsecond : Enables isSet name)
    (hne : feature ≠ name) :
    select isSet architecture = .error (.severalFeatures (enabled isSet)) := by
  unfold select
  split
  · rename_i only hone
    have honly := (enabled_eq_singleton_iff.1 hone).2
    exact absurd ((honly feature hfirst).trans (honly name hsecond).symm) hne
  · rename_i hnone
    exact absurd hfirst (enabled_eq_nil_iff.1 hnone feature)
  · rfl

/-! ## The report -/

/-- The line that tells the build tool which names to expect. -/
def valuesLine : String :=
  "cargo:rustc-check-cfg=cfg(arch_table, values(\"mips64\", \"loongarch64\", " ++
    "\"aarch64\", \"riscv64\", \"ppc64\"))"

/-- The two lines that every build is told first. -/
def openingLines : List String := ["cargo:rerun-if-changed=build.rs", valuesLine]

/-- The line that tells a build its target. -/
def targetLine (name : String) : String := "cargo:rustc-cfg=arch_table=\"" ++ name ++ "\""

theorem preamble_eq : preamble = openingLines := by decide +kernel

theorem selectedLine_eq (name : String) : selectedLine name = targetLine name := by
  delta selectedLine targetLine quoted
  simp [← String.toList_inj]

theorem targetLine_inj : targetLine feature = targetLine name ↔ feature = name := by
  delta targetLine
  rw [String.append_left_inj, String.append_right_inj]

theorem report_of_ok (h : select isSet architecture = .ok name) :
    report isSet architecture = ⟨openingLines ++ [targetLine name], none⟩ := by
  rw [report, h, ← preamble_eq, ← selectedLine_eq]

theorem report_of_error {e : SelectionError} (h : select isSet architecture = .error e) :
    report isSet architecture = ⟨openingLines, some e⟩ := by
  rw [report, h, ← preamble_eq]

theorem report_cases (isSet : String → Bool) (architecture : Option String) :
    (∃ name, report isSet architecture = ⟨openingLines ++ [targetLine name], none⟩) ∨
      ∃ e, report isSet architecture = ⟨openingLines, some e⟩ := by
  cases h : select isSet architecture with
  | ok name => exact Or.inl ⟨name, report_of_ok h⟩
  | error e => exact Or.inr ⟨e, report_of_error h⟩

theorem report_eq_iff : report isSet architecture = ⟨openingLines ++ [targetLine name], none⟩ ↔
    Asks isSet architecture name := by
  rw [← select_eq_ok_iff]
  cases h : select isSet architecture with
  | ok feature =>
      rw [report_of_ok h, Report.mk.injEq, and_iff_left rfl, List.append_cancel_left_eq,
        List.singleton_inj, targetLine_inj, Except.ok.injEq]
  | error e =>
      rw [report_of_error h, Report.mk.injEq]
      exact iff_of_false (fun heq => Option.some_ne_none e heq.2) nofun

/-- The line holds the name of every target, in quotes. -/
theorem quoted_isInfix_valuesLine :
    ∀ name ∈ targetFeatures, ("\"" ++ name ++ "\"").toList <:+: valuesLine.toList := by
  decide +kernel

theorem report_congr (h : ∀ feature, Enables isSet feature ↔ Enables other feature) :
    report isSet architecture = report other architecture := by
  rw [report, report, select, select, enabled_congr h]

/-! ## The targets -/

theorem Asks.mem_targetFeatures (h : Asks isSet architecture name) :
    name ∈ targetFeatures := by
  cases h with
  | byFeature henabled _ => exact henabled.1
  | byArchitecture _ target _ hpaired =>
      rw [← map_fst_pairings]
      exact List.mem_map_of_mem hpaired

theorem exists_byName (h : name ∈ targetFeatures) :
    ∃ t, Target.byName name = some t ∧ t.name = name := by
  rw [targetFeatures_eq] at h
  obtain ⟨t, hmem, hname⟩ := List.mem_map.1 h
  exact ⟨t, Target.byName_eq_some_iff.2 ⟨hmem, hname⟩, hname⟩

/-- What a build is told that enables several features. -/
def severalMessage (listed : List String) : String :=
  "more than one architecture table selected (" ++ String.intercalate ", " listed ++
    "); enable exactly one (use `default-features = false` to drop the default `mips64`)"

theorem message_severalFeatures (listed : List String) :
    (SelectionError.severalFeatures listed).message = severalMessage listed := rfl

/-- A build is told one target or none after the lines that every build is told: the one
it asks for, which is among the names to expect and names a target.  If it enables
several it is told none, whatever its architecture, and the error lists these in the
order of the targets.  No variable counts but those of the targets. -/
theorem report_selects (isSet : String → Bool) (architecture : Option String) :
    ((∃ name, report isSet architecture = ⟨openingLines ++ [targetLine name], none⟩) ∨
      ∃ e, report isSet architecture = ⟨openingLines, some e⟩) ∧
    (∀ name, report isSet architecture = ⟨openingLines ++ [targetLine name], none⟩ ↔
      Asks isSet architecture name) ∧
    (∀ name, Asks isSet architecture name →
      name ∈ targetFeatures ∧ ("\"" ++ name ++ "\"").toList <:+: valuesLine.toList ∧
        ∃ t, Target.byName name = some t ∧ t.name = name) ∧
    (∀ first second, Enables isSet first → Enables isSet second → first ≠ second →
      ∃ e listed, report isSet architecture = ⟨openingLines, some e⟩ ∧
        e.message = severalMessage listed ∧
        listed.Sublist targetFeatures ∧ ∀ feature, feature ∈ listed ↔ Enables isSet feature) ∧
    ∀ other, (∀ feature, Enables other feature ↔ Enables isSet feature) →
      report other architecture = report isSet architecture := by
  refine ⟨report_cases isSet architecture, fun name => report_eq_iff, ?_, ?_,
    fun other => report_congr⟩
  · intro name hasks
    have hmem := hasks.mem_targetFeatures
    exact ⟨hmem, quoted_isInfix_valuesLine name hmem, exists_byName hmem⟩
  · intro first second hfirst hsecond hne
    have hselect : select isSet architecture = .error (.severalFeatures (enabled isSet)) :=
      select_of_several hfirst hsecond hne
    exact ⟨_, enabled isSet, report_of_error hselect, message_severalFeatures _,
      enabled_sublist isSet, fun feature => mem_enabled_iff⟩

/-- The one variable that is set belongs to no target. -/
def foreignVariable : String → Bool := (· = "CARGO_FEATURE_SERDE")

/-- The variables of two targets are set. -/
def twoVariables : String → Bool := (· ∈ ["CARGO_FEATURE_MIPS64", "CARGO_FEATURE_PPC64"])

/-- The architecture decides, and then two features stop the build. -/
theorem report_selects_ppc64 :
    (Asks foreignVariable (some "powerpc64") "ppc64" ∧
        report foreignVariable (some "powerpc64") =
          ⟨openingLines ++ [targetLine "ppc64"], none⟩) ∧
      Enables twoVariables "mips64" ∧ Enables twoVariables "ppc64" ∧
        ∃ e listed, report twoVariables none = ⟨openingLines, some e⟩ ∧
          e.message = severalMessage listed ∧ "mips64" ∈ listed ∧ "ppc64" ∈ listed := by
  have hnone : ∀ feature ∈ targetFeatures,
      foreignVariable ("CARGO_FEATURE_" ++ feature.toUpper) = false := by
    decide +kernel
  have hasks : Asks foreignVariable (some "powerpc64") "ppc64" := by
    refine .byArchitecture ?_ "powerpc64" rfl (by decide)
    rintro feature ⟨hmem, hset⟩
    rw [hnone feature hmem] at hset
    cases hset
  have hfirst : Enables twoVariables "mips64" := ⟨by decide, by decide +kernel⟩
  have hsecond : Enables twoVariables "ppc64" := ⟨by decide, by decide +kernel⟩
  obtain ⟨-, hreport, -⟩ := report_selects foreignVariable (some "powerpc64")
  obtain ⟨-, -, -, hseveral, -⟩ := report_selects twoVariables none
  obtain ⟨e, listed, hreported, hmessage, -, hlisted⟩ := hseveral _ _ hfirst hsecond (by decide)
  exact ⟨⟨hasks, (hreport "ppc64").2 hasks⟩, hfirst, hsecond, e, listed, hreported, hmessage,
    (hlisted "mips64").2 hfirst, (hlisted "ppc64").2 hsecond⟩

end RuntimeTargets.Selection
