import Mathlib
import RuntimeTargets.Text.Hex
import RuntimeTargets.Word

/-!
# Fields of a text

Facts are written one after the other with a character between them.  Numbers are
written in letters and digits only, so they hold no such character, and no two numbers
are written alike.  Fields that hold none are found again from the end of the text, so
the first of them may hold anything.
-/

namespace RuntimeTargets

/-! ## Numbers -/

namespace Hex

theorem number?_concat (digits : List Char) (c : Char) :
    number? (digits ++ [c]) = (number? digits).bind fun n => (digit? c).map (16 * n + ·) := by
  rw [number?, List.foldlM_append]
  refine Option.bind_congr fun n _ => ?_
  exact Option.bind_fun_some _

theorem number?_digitChar {n : ℕ} (hn : n < 16) : number? [Nat.digitChar n] = some n := by
  rw [← List.nil_append [_], number?_concat, digit?_digitChar hn]
  simp [number?]

/-- The digits of a number name it, however many they are. -/
theorem number?_toDigits (n : ℕ) : number? (Nat.toDigits 16 n) = some n := by
  induction n using Nat.strongRecOn with
  | ind n ih =>
      rcases Nat.lt_or_ge n 16 with hsmall | hlarge
      · rw [Nat.toDigits_eq_if (by decide), if_pos hsmall, number?_digitChar hsmall]
      · rw [Nat.toDigits_of_base_le (by decide) hlarge, number?_concat, ih (n / 16) (by omega),
          digit?_digitChar (Nat.mod_lt n (by decide))]
        exact congrArg some (Nat.div_add_mod n 16)

theorem isAlphanum_digitChar {n : ℕ} (hn : n < 16) : (Nat.digitChar n).isAlphanum = true := by
  revert n
  decide

theorem isAlphanum_of_mem_toDigits {n : ℕ} : ∀ c ∈ Nat.toDigits 16 n, c.isAlphanum = true := by
  induction n using Nat.strongRecOn with
  | ind n ih =>
      rcases Nat.lt_or_ge n 16 with hsmall | hlarge
      · rw [Nat.toDigits_eq_if (by decide), if_pos hsmall, List.forall_mem_singleton]
        exact isAlphanum_digitChar hsmall
      · rw [Nat.toDigits_of_base_le (by decide) hlarge, List.forall_mem_append,
          List.forall_mem_singleton]
        exact ⟨ih (n / 16) (by omega), isAlphanum_digitChar (Nat.mod_lt n (by decide))⟩

end Hex

/-- The text is made of letters and digits only. -/
def Plain (text : String) : Prop := ∀ c ∈ text.toList, c.isAlphanum = true

theorem Plain.notMem {text : String} (h : Plain text) {c : Char} (hc : c.isAlphanum = false) :
    c ∉ text.toList := by
  intro hmem
  rw [h c hmem] at hc
  cases hc

namespace Word

variable {a b : Word}

theorem decimal_inj : decimal a = decimal b ↔ a = b := by
  rw [decimal, decimal, Nat.repr_inj, UInt64.toNat_inj]

theorem hexadecimal_inj : hexadecimal a = hexadecimal b ↔ a = b := by
  constructor
  · intro heq
    rw [hexadecimal, hexadecimal, String.append_right_inj, String.ofList_inj] at heq
    have hnumber := congrArg Hex.number? heq
    rw [Hex.number?_toDigits, Hex.number?_toDigits, Option.some.injEq] at hnumber
    exact UInt64.toNat_inj.1 hnumber
  · rintro rfl
    rfl

theorem plain_decimal (a : Word) : Plain (decimal a) := by
  intro c hc
  rw [decimal, Nat.toList_repr] at hc
  have hdigit := Nat.isDigit_of_mem_toDigits (by decide) (by decide) hc
  rw [Char.isAlphanum, hdigit, Bool.or_true]

theorem plain_hexadecimal (a : Word) : Plain (hexadecimal a) := by
  have hmark : Plain "0x" := List.all_eq_true.1 rfl
  intro c hc
  rw [hexadecimal, String.toList_append, List.mem_append] at hc
  rcases hc with hc | hdigit
  · exact hmark c hc
  · rw [String.toList_ofList] at hdigit
    exact Hex.isAlphanum_of_mem_toDigits c hdigit

end Word

/-! ## Fields -/

variable {separator : Char}

theorem splitOn_intercalate_cons (first : List Char) {fields : List (List Char)}
    (hfields : ∀ field ∈ fields, separator ∉ field) :
    ([separator].intercalate (first :: fields)).splitOn separator =
      first.splitOn separator ++ fields := by
  cases fields with
  | nil => rw [List.intercalate_singleton, List.append_nil]
  | cons field fields =>
      rw [List.intercalate_cons_cons, List.append_assoc, List.singleton_append,
        List.splitOn_append_cons_self,
        List.splitOn_intercalate separator hfields (List.cons_ne_nil _ _)]

/-- All fields but the first hold no separator, so that as many are cut off from the end
and what is left is the first. -/
theorem intercalate_cons_inj {first other : String} {fields others : List String}
    (hlength : fields.length = others.length)
    (hfields : ∀ field ∈ fields, separator ∉ field.toList)
    (hothers : ∀ field ∈ others, separator ∉ field.toList) :
    (String.ofList [separator]).intercalate (first :: fields) =
        (String.ofList [separator]).intercalate (other :: others) ↔
      first = other ∧ fields = others := by
  constructor
  · intro heq
    have hpieces := congrArg (fun text => text.toList.splitOn separator) heq
    simp only [String.toList_intercalate, String.toList_ofList, List.map_cons] at hpieces
    rw [splitOn_intercalate_cons _ (List.forall_mem_map.2 hfields),
      splitOn_intercalate_cons _ (List.forall_mem_map.2 hothers)] at hpieces
    obtain ⟨hfirst, hrest⟩ := List.append_inj' hpieces (by simpa using hlength)
    constructor
    · have hchars := congrArg [separator].intercalate hfirst
      rw [List.intercalate_splitOn, List.intercalate_splitOn] at hchars
      exact String.toList_inj.1 hchars
    · exact (List.map_inj_right fun _ _ hsame => String.toList_inj.1 hsame).1 hrest
  · rintro ⟨rfl, rfl⟩
    rfl

end RuntimeTargets
