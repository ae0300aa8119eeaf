import RuntimeTargets.Target.Sheet
import RuntimeTargets.Proofs.Target.Laws
import RuntimeTargets.Proofs.Text.Fields

/-!
# A sheet shows every fact

No two targets have one sheet.  The fourteen rows after the name hold no line break,
whatever the facts are, so they are the last fourteen lines of the sheet and what
stands before them is the row of the name, even if the name looks like rows itself.
Every value of a row is then written in a way that shows it.
-/

namespace RuntimeTargets

/-! ## Values -/

namespace Layout

theorem renderFlag_inj {a b : Bool} : renderFlag a = renderFlag b ↔ a = b := by
  revert a b
  decide

theorem plain_renderFlag (b : Bool) : Plain (renderFlag b) := by
  cases b
  · exact List.all_eq_true.1 rfl
  · exact List.all_eq_true.1 rfl

end Layout

namespace Target

/-- A number starts with its mark, which is no letter of the word that stands for no
number. -/
theorem hexadecimal_ne_none (a : Word) : Word.hexadecimal a ≠ "none" := by
  intro heq
  rw [Word.hexadecimal, ← String.toList_inj, String.toList_append] at heq
  cases heq

theorem renderAlignment_injective : Function.Injective renderAlignment := by
  rw [Option.injective_iff]
  constructor
  · intro a b heq
    exact Word.hexadecimal_inj.1 heq
  · rintro ⟨a, hnone⟩
    exact hexadecimal_ne_none a hnone

theorem plain_renderAlignment : ∀ alignment : Option Word, Plain (renderAlignment alignment)
  | none => List.all_eq_true.1 rfl
  | some alignment => Word.plain_hexadecimal alignment

end Target

namespace GuardPages

variable {pages other : GuardPages} {zone : GuardZone}

/-- The count of a zone after its name. -/
def zoneField (pages : GuardPages) (zone : GuardZone) : String :=
  zone.name ++ "=" ++ Word.decimal (pages.count zone)

theorem zoneField_inj :
    pages.zoneField zone = other.zoneField zone ↔ pages.count zone = other.count zone := by
  rw [zoneField, zoneField, String.append_right_inj, Word.decimal_inj]

theorem notMem_zoneField {c : Char} (hc : c.isAlphanum = false) (hmark : c ≠ '=')
    (pages : GuardPages) (zone : GuardZone) : c ∉ (pages.zoneField zone).toList := by
  have hname : Plain zone.name := by
    cases zone <;> exact List.all_eq_true.1 rfl
  have hcount := Word.plain_decimal (pages.count zone)
  simp only [zoneField, String.toList_append, List.mem_append, not_or]
  exact ⟨⟨hname.notMem hc, by simpa using hmark⟩, hcount.notMem hc⟩

theorem render_eq (pages : GuardPages) : pages.render = (String.ofList [' ']).intercalate
    (pages.zoneField .yellow :: [.red, .reserved, .shadow].map pages.zoneField) := by
  rw [← String.toList_inj]
  simp [render, zoneField, GuardZone.name, count]

theorem render_inj : pages.render = other.render ↔ pages = other := by
  constructor
  · intro heq
    have hblank : ∀ pages : GuardPages,
        ∀ text ∈ [.red, .reserved, .shadow].map pages.zoneField, ' ' ∉ text.toList := by
      intro pages
      exact List.forall_mem_map.2 fun zone _ => notMem_zoneField rfl (by decide) pages zone
    rw [render_eq, render_eq] at heq
    have hlength : ([.red, .reserved, .shadow].map pages.zoneField).length =
        ([.red, .reserved, .shadow].map other.zoneField).length := by
      rw [List.length_map, List.length_map]
    obtain ⟨hyellow, hothers⟩ :=
      (intercalate_cons_inj hlength (hblank pages) (hblank other)).1 heq
    have hzones := List.map_inj_left.1 hothers
    apply eq_of_count
    intro zone
    cases zone with
    | yellow => exact zoneField_inj.1 hyellow
    | red => exact zoneField_inj.1 (hzones .red (by simp))
    | reserved => exact zoneField_inj.1 (hzones .reserved (by simp))
    | shadow => exact zoneField_inj.1 (hzones .shadow (by simp))
  · rintro rfl
    rfl

theorem newline_notMem_render (pages : GuardPages) : '\n' ∉ pages.render.toList := by
  have hcount : ∀ count, '\n' ∉ (Word.decimal count).toList :=
    fun count => (Word.plain_decimal count).notMem rfl
  simp [render, hcount]

end GuardPages

namespace Target

variable {t u : Target}

/-! ## Rows -/

theorem rows_injective : Function.Injective rows := by
  intro t u heq
  obtain ⟨_, _, _, _, _, _, _, _, _, ⟨_, _, _, _, _, _⟩⟩ := t
  obtain ⟨_, _, _, _, _, _, _, _, _, ⟨_, _, _, _, _, _⟩⟩ := u
  simpa only [rows, List.cons.injEq, Prod.mk.injEq, Word.decimal_inj, Layout.renderFlag_inj,
    renderAlignment_injective.eq_iff, GuardPages.render_inj, Target.mk.injEq,
    Defaults.mk.injEq, true_and, and_true] using heq

/-- All sheets have the same labels. -/
theorem labels_rows (t u : Target) : t.rows.map Prod.fst = u.rows.map Prod.fst := by
  simp only [rows, List.map_cons, List.map_nil]

/-- The line of a row. -/
def line (row : String × String) : String := padLabel row.1 ++ row.2

theorem sheet_eq (t : Target) : t.sheet = (String.ofList ['\n']).intercalate
    (line ("arch", t.name) :: t.rows.tail.map line) := rfl

theorem notMem_padLabel {c : Char} {label : String} (hlabel : c ∉ label.toList)
    (hc : c ≠ ' ') : c ∉ (padLabel label).toList := by
  simp only [padLabel, String.toList_append, List.mem_append, not_or]
  refine ⟨hlabel, ?_⟩
  rw [String.toList_ofList, List.mem_replicate]
  exact fun h => hc h.2

theorem newline_notMem_tail (t : Target) : ∀ row ∈ t.rows.tail,
    '\n' ∉ row.1.toList ∧ '\n' ∉ row.2.toList := by
  have hword := fun a => (Word.plain_decimal a).notMem (c := '\n') rfl
  have hflag := fun b => (Layout.plain_renderFlag b).notMem (c := '\n') rfl
  have halignment := (plain_renderAlignment t.classSpaceAlignment).notMem (c := '\n') rfl
  simp [rows, hword, hflag, halignment, GuardPages.newline_notMem_render]

theorem newline_notMem_line (t : Target) :
    ∀ text ∈ t.rows.tail.map line, '\n' ∉ text.toList := by
  rw [List.forall_mem_map]
  intro row hrow
  obtain ⟨hlabel, hvalue⟩ := newline_notMem_tail t row hrow
  rw [line, String.toList_append, List.mem_append, not_or]
  exact ⟨notMem_padLabel hlabel (by decide), hvalue⟩

/-- Rows with the same labels have the same lines only if they have the same values. -/
theorem eq_of_map_line_eq {rows others : List (String × String)}
    (hlabels : rows.map Prod.fst = others.map Prod.fst) (hlines : rows.map line = others.map line) :
    rows = others := by
  induction rows generalizing others with
  | nil => exact (List.map_eq_nil_iff.1 hlines.symm).symm
  | cons row rows ih =>
      cases others with
      | nil => cases hlines
      | cons other others =>
          obtain ⟨hlabel, hlabels⟩ := List.cons.inj hlabels
          obtain ⟨hline, hlines⟩ := List.cons.inj hlines
          rw [line, line, hlabel, String.append_right_inj] at hline
          rw [Prod.ext hlabel hline, ih hlabels hlines]

/-- Two targets have one sheet only if they are the same in every fact, whatever their
names hold. -/
theorem sheet_inj {t u : Target} : t.sheet = u.sheet ↔ t = u := by
  constructor
  · intro heq
    have hlength : (t.rows.tail.map line).length = (u.rows.tail.map line).length := by
      simp only [rows, List.tail_cons, List.map_cons, List.length_cons]
    rw [sheet_eq, sheet_eq,
      intercalate_cons_inj hlength (newline_notMem_line t) (newline_notMem_line u)] at heq
    apply rows_injective
    apply eq_of_map_line_eq (labels_rows t u)
    exact congrArg₂ List.cons heq.1 heq.2
  · rintro rfl
    rfl

end Target

end RuntimeTargets
