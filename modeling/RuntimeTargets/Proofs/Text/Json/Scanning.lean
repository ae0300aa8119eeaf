import Mathlib
import RuntimeTargets.Text.Json.Token

/-!
# Texts that spell tokens

A text spells a list of tokens if the scanner, coming to it between two tokens,
reads these and stands between two tokens again.  A literal or a number ends only
where something follows that could not belong to it, so texts may be put together
where the second one is `Separated`.
-/

namespace RuntimeTargets

open JsonToken

/-! ## Scanning from a state -/

namespace JsonScan

/-- The tokens read so far and those of a text, if it may end there. -/
def scan (s : JsonScan) (text : List Char) : Option (List JsonToken) :=
  (text.foldlM step s).bind finish?

theorem ofChars?_eq_scan (text : List Char) : ofChars? text = start.scan text := rfl

theorem scan_nil (s : JsonScan) : s.scan [] = s.finish? := rfl

theorem scan_cons (s : JsonScan) (c : Char) (text : List Char) :
    s.scan (c :: text) = (s.step c).bind (scan · text) := by
  rw [scan, List.foldlM_cons]
  cases s.step c <;> rfl

theorem scan_of_step {s next : JsonScan} {c : Char} (hstep : s.step c = some next)
    (text : List Char) : s.scan (c :: text) = next.scan text := by
  rw [scan_cons, hstep, Option.bind_some]

/-- What follows a token cannot belong to a literal or a number. -/
def Separated (text : List Char) : Prop := ∀ c ∈ text.head?, isBare c = false

theorem separated_nil : Separated [] := by
  intro c hc
  cases hc

theorem separated_cons {c : Char} {text : List Char} (hc : isBare c = false) :
    Separated (c :: text) := by
  intro first hfirst
  cases hfirst
  exact hc

theorem Separated.append {text rest : List Char} (htext : Separated text)
    (hrest : Separated rest) : Separated (text ++ rest) := by
  cases text with
  | nil => exact hrest
  | cons c text => exact separated_cons (htext c rfl)

/-- The text writes the tokens. -/
def Spells (text : List Char) (tokens : List JsonToken) : Prop :=
  ∀ (done : List JsonToken) (rest : List Char), Separated rest →
    scan ⟨done, .between⟩ (text ++ rest) = scan ⟨tokens.reverse ++ done, .between⟩ rest

variable {text rest : List Char} {tokens later : List JsonToken} {done : List JsonToken}
  {c : Char} {chars : List Char}

theorem Spells.ofChars?_eq (h : Spells text tokens) : ofChars? text = some tokens := by
  have hscan := h [] [] separated_nil
  rw [List.append_nil, List.append_nil] at hscan
  rw [ofChars?_eq_scan, start, hscan, scan_nil, finish?, List.reverse_reverse]

theorem spells_nil : Spells [] [] := fun _ _ _ => rfl

theorem Spells.append (h : Spells text tokens) (hrest : Spells rest later)
    (hseparated : Separated rest) : Spells (text ++ rest) (tokens ++ later) := by
  intro done further hfurther
  rw [List.append_assoc, h done _ (hseparated.append hfurther), hrest _ _ hfurther,
    List.reverse_append, List.append_assoc]

/-! ## Blanks and marks -/

theorem isBare_of_isBlank (hc : isBlank c = true) : isBare c = false := by
  simp only [isBlank, Bool.or_eq_true, decide_eq_true_eq] at hc
  obtain ((rfl | rfl) | rfl) | rfl := hc <;> rfl

theorem Spells.blank (hc : isBlank c = true) (h : Spells text tokens) :
    Spells (c :: text) tokens := by
  intro done further hfurther
  rw [List.cons_append, scan_cons, step, begin?, if_pos hc]
  exact h done further hfurther

theorem Spells.blanks {blanks : List Char} (hblanks : ∀ c ∈ blanks, isBlank c = true)
    (h : Spells text tokens) : Spells (blanks ++ text) tokens := by
  induction blanks with
  | nil => exact h
  | cons c blanks ih =>
      rw [List.forall_mem_cons] at hblanks
      exact (ih hblanks.2).blank hblanks.1

theorem begin?_of_ofChar? {token : JsonToken} (hc : ofChar? c = some token) (s : JsonScan) :
    s.begin? c = some (s.push token) := by
  unfold ofChar? at hc
  split at hc <;> cases hc <;> rfl

theorem Spells.mark {token : JsonToken} (hc : ofChar? c = some token)
    (h : Spells text tokens) : Spells (c :: text) (token :: tokens) := by
  intro done further hfurther
  rw [List.cons_append, scan_cons, step, begin?_of_ofChar? hc, List.reverse_cons,
    List.append_assoc]
  exact h (token :: done) further hfurther

/-! ## Literals and numbers -/

theorem begin?_of_isBare (hc : isBare c = true) (s : JsonScan) :
    s.begin? c = some { s with state := .bare [c] } := by
  have hblank : ¬ isBlank c = true := by
    intro hblank
    rw [isBare_of_isBlank hblank] at hc
    cases hc
  have hquote : c ≠ '"' := by
    rintro rfl
    cases hc
  rw [begin?, if_neg hblank, if_neg hquote, if_pos hc]

theorem scan_bare (hchars : ∀ c ∈ chars, isBare c = true) (before : List Char) :
    scan ⟨done, .bare before⟩ (chars ++ rest) =
      scan ⟨done, .bare (chars.reverse ++ before)⟩ rest := by
  induction chars generalizing before with
  | nil => rfl
  | cons c chars ih =>
      rw [List.forall_mem_cons] at hchars
      have hstep : step ⟨done, .bare before⟩ c = some ⟨done, .bare (c :: before)⟩ :=
        if_pos hchars.1
      rw [List.cons_append, scan_of_step hstep, ih hchars.2, List.reverse_cons,
        List.append_assoc]
      rfl

/-- A literal or a number ends where the text does or something else follows. -/
theorem scan_bare_end {value : Json} (hvalue : bare? chars.reverse = some value)
    (hrest : Separated rest) :
    scan ⟨done, .bare chars⟩ rest = scan ⟨.scalar value :: done, .between⟩ rest := by
  have hend : endBare? ⟨done, .bare chars⟩ chars =
      some ⟨.scalar value :: done, .between⟩ := by
    rw [endBare?, hvalue]
    rfl
  cases rest with
  | nil =>
      have hfinish : finish? ⟨done, .bare chars⟩ =
          (endBare? ⟨done, .bare chars⟩ chars).map fun s => s.tokens.reverse := rfl
      rw [scan_nil, hfinish, hend]
      rfl
  | cons c rest =>
      have hc : ¬ isBare c = true := by
        rw [hrest c rfl]
        exact Bool.false_ne_true
      have hstep : step ⟨done, .bare chars⟩ c =
          (endBare? ⟨done, .bare chars⟩ chars).bind (·.begin? c) := if_neg hc
      rw [scan_cons, hstep, hend, scan_cons]
      rfl

theorem spells_bare {value : Json} (hne : chars ≠ [])
    (hchars : ∀ c ∈ chars, isBare c = true) (hvalue : bare? chars = some value) :
    Spells chars [.scalar value] := by
  intro done further hfurther
  cases chars with
  | nil => exact absurd rfl hne
  | cons c chars =>
      obtain ⟨hfirst, hothers⟩ := List.forall_mem_cons.1 hchars
      have hstep : step ⟨done, .between⟩ c = some ⟨done, .bare [c]⟩ :=
        begin?_of_isBare hfirst _
      rw [List.cons_append, scan_of_step hstep, scan_bare hothers]
      apply scan_bare_end _ hfurther
      rw [List.reverse_append, List.reverse_reverse]
      exact hvalue

/-! ## Strings -/

theorem number?_hexPair (hc : c.toNat < 0x20) :
    Hex.number? (['0', '0'] ++ Json.hexPair c) = some c.toNat := by
  have hzero : Hex.digit? '0' = some 0 := rfl
  have hhigh : Hex.digit? (Nat.digitChar (c.toNat / 16)) = some (c.toNat / 16) :=
    Hex.digit?_digitChar (by omega)
  have hlow : Hex.digit? (Nat.digitChar (c.toNat % 16)) = some (c.toNat % 16) :=
    Hex.digit?_digitChar (by omega)
  simp only [Hex.number?, Json.hexPair, List.cons_append, List.nil_append, List.foldlM_cons,
    List.foldlM_nil, hzero, hhigh, hlow, Option.map_some, Option.bind_eq_bind,
    Option.bind_some, Option.pure_def, Option.some.injEq]
  omega

theorem endUnit?_of_number? (hc : c.toNat < 0x20) {digits : List Char}
    (hnumber : Hex.number? digits.reverse = some c.toNat) (chars : List Char) :
    endUnit? chars none digits = some (.inside (c :: chars)) := by
  have hhalf : ¬ Hex.IsHighHalf c.toNat := by
    intro hhalf
    have hle := hhalf.1
    omega
  have hchar : Hex.char? c.toNat = some c := by
    rw [Hex.char?, Char.ofNat_toNat]
    exact if_pos c.valid
  simp only [endUnit?, hnumber, Option.bind_eq_bind, Option.bind_some, if_neg hhalf, hchar,
    Option.pure_def]

/-- A control character is written by its number. -/
theorem scan_escape_control (hc : c.toNat < 0x20) :
    scan ⟨done, .inside chars⟩ (['\\', 'u', '0', '0'] ++ Json.hexPair c ++ rest) =
      scan ⟨done, .inside (c :: chars)⟩ rest := by
  let last := Nat.digitChar (c.toNat % 16)
  let digits := [Nat.digitChar (c.toNat / 16), '0', '0']
  have hdigits : scan ⟨done, .inside chars⟩ (['\\', 'u', '0', '0'] ++ Json.hexPair c ++ rest) =
      scan ⟨done, .unit chars none digits⟩ (last :: rest) := rfl
  have hnumber : Hex.number? (last :: digits).reverse = some c.toNat := number?_hexPair hc
  have hstep : step ⟨done, .unit chars none digits⟩ last =
      (endUnit? chars none (last :: digits)).map fun state => ⟨done, state⟩ := rfl
  rw [endUnit?_of_number? hc hnumber chars] at hstep
  rw [hdigits, scan_of_step hstep]

/-- Escapes are undone one by one. -/
theorem scan_escape (c : Char) (chars rest : List Char) :
    scan ⟨done, .inside chars⟩ (Json.escape c ++ rest) =
      scan ⟨done, .inside (c :: chars)⟩ rest := by
  unfold Json.escape
  split
  case h_8 hquote hbackslash _ _ _ _ _ =>
    split
    · rename_i hcontrol
      exact scan_escape_control hcontrol
    · rename_i hplain
      have hstep : step ⟨done, .inside chars⟩ c = some ⟨done, .inside (c :: chars)⟩ := by
        simp only [step, if_neg hquote, if_neg hbackslash, if_neg hplain]
      exact scan_of_step hstep rest
  all_goals rfl

theorem scan_escapes (text chars rest : List Char) :
    scan ⟨done, .inside chars⟩ (text.flatMap Json.escape ++ rest) =
      scan ⟨done, .inside (text.reverse ++ chars)⟩ rest := by
  induction text generalizing chars with
  | nil => rfl
  | cons c text ih =>
      rw [List.flatMap_cons, List.append_assoc, scan_escape, ih, List.reverse_cons,
        List.append_assoc]
      rfl

theorem spells_quote (text : String) : Spells (Json.quote text) [.scalar (.string text)] := by
  intro done further hfurther
  have hopen : step ⟨done, .between⟩ '"' = some ⟨done, .inside []⟩ := rfl
  have hclose : step ⟨done, .inside text.toList.reverse⟩ '"' =
      some ⟨.scalar (.string text) :: done, .between⟩ := by
    have hpush : step ⟨done, .inside text.toList.reverse⟩ '"' =
        some ⟨.scalar (.string (String.ofList text.toList.reverse.reverse)) :: done,
          .between⟩ := rfl
    rw [hpush, List.reverse_reverse, String.ofList_toList]
  rw [Json.quote, List.cons_append, List.cons_append, scan_of_step hopen,
    List.append_assoc, scan_escapes, List.append_nil, List.singleton_append,
    scan_of_step hclose]
  rfl

end JsonScan

end RuntimeTargets
