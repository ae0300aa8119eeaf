import RuntimeTargets.Text.Json.Reader
import RuntimeTargets.Proofs.Text.Json.Scanning

/-!
# Written JSON reads back

The tokens of a value stand between its text and its structure.  The printer
writes a text that spells them, and the reader makes the value of them again, so
a value is read from its own text.  This holds for values whose numbers are words
and whose nesting the reader puts up with.
-/

namespace RuntimeTargets

/-! ## Decimal digits -/

namespace NumberParts

/-- A number that is not zero does not start with a zero. -/
theorem head?_toDigits_ne {n : ℕ} (hn : 0 < n) : (Nat.toDigits 10 n).head? ≠ some '0' := by
  induction n using Nat.strongRecOn with
  | ind n ih =>
      rw [Nat.toDigits_eq_if (by decide)]
      split
      · rename_i hsmall
        interval_cases n <;> decide
      · rw [List.head?_append_of_ne_nil _ Nat.toDigits_ne_nil]
        exact ih (n / 10) (by omega) (by omega)

theorem someDigits?_of_isDigit {digits : List Char} (hne : digits ≠ [])
    (hdigits : ∀ c ∈ digits, c.isDigit = true) : someDigits? digits = some (digits, []) := by
  have hspan : spanDigits digits = (digits, []) := by
    rw [spanDigits, List.takeWhile_eq_self_iff.2 hdigits, List.dropWhile_eq_nil_iff.2 hdigits]
  cases digits with
  | nil => exact absurd rfl hne
  | cons c digits =>
      rw [someDigits?, hspan]

theorem isDigit_of_mem_toDigits {n : ℕ} : ∀ c ∈ Nat.toDigits 10 n, c.isDigit = true :=
  fun _ => Nat.isDigit_of_mem_toDigits (by decide) (by decide)

theorem whole?_toDigits (n : ℕ) :
    whole? (Nat.toDigits 10 n) = some (Nat.toDigits 10 n, []) := by
  obtain rfl | hn := Nat.eq_zero_or_pos n
  · rfl
  have hfirst := head?_toDigits_ne hn
  rw [whole?]
  · exact someDigits?_of_isDigit Nat.toDigits_ne_nil isDigit_of_mem_toDigits
  · intro rest hzero
    rw [hzero] at hfirst
    exact hfirst rfl

theorem ofChars?_toDigits (n : ℕ) : ofChars? (Nat.toDigits 10 n) =
    some { negative := false, whole := Nat.toDigits 10 n, fraction := [], exponent := 0,
           isWhole := true } := by
  unfold ofChars?
  split
  rename_i negative unsigned hsign
  split at hsign
  · rename_i rest hminus
    have hdigit := isDigit_of_mem_toDigits '-' (hminus ▸ List.mem_cons_self)
    cases hdigit
  · cases hsign
    rw [whole?_toDigits]
    rfl

end NumberParts

namespace JsonNumber

theorem ofChars?_writeNumber (value : Word) :
    ofChars? (Json.writeNumber (.word value)) = some (.word value) := by
  have hparts := NumberParts.ofChars?_toDigits value.toNat
  have hvalue : Nat.ofDigitChars 10 (Nat.toDigits 10 value.toNat) 0 = value.toNat :=
    Nat.ofDigitChars_ten_toDigits
  rw [Json.writeNumber, ofChars?, hparts, Option.bind_eq_bind, Option.bind_some]
  simp [hvalue, UInt64.toNat_lt_size]

end JsonNumber

/-! ## Tokens of a value -/

namespace Json

mutual

/-- The tokens that a value is written by. -/
def tokens : Json → List JsonToken
  | .array items => .openArray :: itemTokens items
  | .object members => .openObject :: memberTokens members
  | value => [.scalar value]

/-- The items of an array, each with the comma or bracket after it. -/
def itemTokens : List Json → List JsonToken
  | [] => [.closeArray]
  | [item] => tokens item ++ [.closeArray]
  | item :: items => tokens item ++ .comma :: itemTokens items

/-- The members of an object, each with the comma or brace after it. -/
def memberTokens : List (String × Json) → List JsonToken
  | [] => [.closeObject]
  | [(name, value)] => .scalar (.string name) :: .colon :: tokens value ++ [.closeObject]
  | (name, value) :: members =>
    .scalar (.string name) :: .colon :: tokens value ++ .comma :: memberTokens members

end

theorem itemTokens_cons_cons (item next : Json) (items : List Json) :
    itemTokens (item :: next :: items) =
      tokens item ++ .comma :: itemTokens (next :: items) := rfl

mutual

/-- Numbers are words, and arrays and objects are nested no deeper than `room`. -/
def Readable (room : ℕ) : Json → Prop
  | .number (.other _) => False
  | .array items => 0 < room ∧ ItemsReadable (room - 1) items
  | .object members => 0 < room ∧ MembersReadable (room - 1) members
  | _ => True

def ItemsReadable (room : ℕ) : List Json → Prop
  | [] => True
  | item :: items => Readable room item ∧ ItemsReadable room items

def MembersReadable (room : ℕ) : List (String × Json) → Prop
  | [] => True
  | (_, value) :: members => Readable room value ∧ MembersReadable room members

end

/-! ## The printer spells the tokens -/

section Spelling

open JsonScan

theorem writeNumber_ne {text : List Char} (htext : ∃ c ∈ text, c.isDigit = false)
    (value : Word) : writeNumber (.word value) ≠ text := by
  obtain ⟨c, hmem, hc⟩ := htext
  rintro rfl
  rw [NumberParts.isDigit_of_mem_toDigits c hmem] at hc
  cases hc

theorem bare?_writeNumber (value : Word) :
    JsonToken.bare? (writeNumber (.word value)) = some (.number (.word value)) := by
  have hnull : writeNumber (.word value) ≠ writeNull :=
    writeNumber_ne ⟨'n', by decide, rfl⟩ value
  have htrue : writeNumber (.word value) ≠ writeBoolean true :=
    writeNumber_ne ⟨'t', by decide, rfl⟩ value
  have hfalse : writeNumber (.word value) ≠ writeBoolean false :=
    writeNumber_ne ⟨'f', by decide, rfl⟩ value
  rw [JsonToken.bare?, if_neg hnull, if_neg htrue, if_neg hfalse,
    JsonNumber.ofChars?_writeNumber, Option.map_some]

theorem spells_word (value : Word) :
    Spells (writeNumber (.word value)) [.scalar (.number (.word value))] := by
  apply spells_bare Nat.toDigits_ne_nil _ (bare?_writeNumber value)
  intro c hc
  have hdigit := NumberParts.isDigit_of_mem_toDigits c hc
  simp [JsonToken.isBare, Char.isAlphanum, hdigit]

theorem spells_boolean (value : Bool) :
    Spells (writeBoolean value) [.scalar (.boolean value)] := by
  cases value
  · exact spells_bare (by decide) (List.all_eq_true.1 rfl) rfl
  · exact spells_bare (by decide) (List.all_eq_true.1 rfl) rfl

theorem spells_null : Spells writeNull [.scalar .null] :=
  spells_bare (by decide) (List.all_eq_true.1 rfl) rfl

/-- A line break ends whatever stands before it. -/
theorem separated_newLine (depth : ℕ) (text : List Char) : Separated (newLine depth ++ text) :=
  separated_cons rfl

theorem spells_newLine {text : List Char} {tokens : List JsonToken} (depth : ℕ)
    (h : Spells text tokens) : Spells (newLine depth ++ text) tokens := by
  apply h.blanks
  intro c hc
  obtain rfl | hc := List.mem_cons.1 hc
  · rfl
  · rw [List.eq_of_mem_replicate hc]
    rfl

/-- A member up to its value. -/
theorem spells_name {text : List Char} {tokens : List JsonToken} (depth : ℕ) (name : String)
    (h : Spells text tokens) : Spells (newLine depth ++ quote name ++ [':', ' '] ++ text)
      (.scalar (.string name) :: .colon :: tokens) := by
  have hvalue : Spells (':' :: ' ' :: text) (.colon :: tokens) := (h.blank rfl).mark rfl
  have hname := (spells_quote name).append hvalue (separated_cons rfl)
  simpa only [List.append_assoc, List.cons_append, List.nil_append] using
    spells_newLine depth hname

mutual

theorem spells_prettyChars (room depth : ℕ) : ∀ value : Json, Readable room value →
    Spells (prettyChars depth value) (tokens value)
  | .null, _ => spells_null
  | .boolean value, _ => spells_boolean value
  | .number (.word value), _ => spells_word value
  | .string text, _ => spells_quote text
  | .array [], _ => (spells_nil.mark rfl).mark rfl
  | .array (item :: items), h =>
    (spells_prettyItems (room - 1) depth (item :: items) (List.cons_ne_nil _ _) h.2).mark rfl
  | .object [], _ => (spells_nil.mark rfl).mark rfl
  | .object (member :: members), h =>
    (spells_prettyMembers (room - 1) depth (member :: members) (List.cons_ne_nil _ _) h.2).mark
      rfl

theorem spells_prettyItems (room depth : ℕ) : ∀ items : List Json, items ≠ [] →
    ItemsReadable room items → Spells (prettyItems depth items) (itemTokens items)
  | [item], _, h => by
    have hitem := spells_prettyChars room (depth + 1) item h.1
    have hend : Spells (newLine depth ++ [']']) [.closeArray] :=
      spells_newLine depth (spells_nil.mark rfl)
    have hall := spells_newLine (depth + 1) (hitem.append hend (separated_newLine depth _))
    simpa only [prettyItems, itemTokens, List.append_assoc] using hall
  | item :: next :: items, _, h => by
    have hitem := spells_prettyChars room (depth + 1) item h.1
    have hitems := spells_prettyItems room depth (next :: items) (List.cons_ne_nil _ _) h.2
    have hcomma : Spells (',' :: prettyItems depth (next :: items))
        (.comma :: itemTokens (next :: items)) := hitems.mark rfl
    have hall := spells_newLine (depth + 1) (hitem.append hcomma (separated_cons rfl))
    simpa only [prettyItems, itemTokens, List.append_assoc] using hall

theorem spells_prettyMembers (room depth : ℕ) : ∀ members : List (String × Json), members ≠ [] →
    MembersReadable room members → Spells (prettyMembers depth members) (memberTokens members)
  | [(name, value)], _, h => by
    have hvalue := spells_prettyChars room (depth + 1) value h.1
    have hend : Spells (newLine depth ++ ['}']) [.closeObject] :=
      spells_newLine depth (spells_nil.mark rfl)
    have hall := spells_name (depth + 1) name (hvalue.append hend (separated_newLine depth _))
    simpa only [prettyMembers, memberTokens, List.append_assoc, List.cons_append] using hall
  | (name, value) :: next :: members, _, h => by
    have hvalue := spells_prettyChars room (depth + 1) value h.1
    have hmembers := spells_prettyMembers room depth (next :: members) (List.cons_ne_nil _ _) h.2
    have hcomma : Spells (',' :: prettyMembers depth (next :: members))
        (.comma :: memberTokens (next :: members)) := hmembers.mark rfl
    have hall := spells_name (depth + 1) name (hvalue.append hcomma (separated_cons rfl))
    simpa only [prettyMembers, memberTokens, List.append_assoc, List.cons_append] using hall

end

end Spelling

end Json

/-! ## The reader makes the value -/

namespace JsonProgress

/-- Read tokens one by one. -/
def run (progress : JsonProgress) (tokens : List JsonToken) : Option JsonProgress :=
  tokens.foldlM step progress

theorem run_cons (progress : JsonProgress) (token : JsonToken) (tokens : List JsonToken) :
    progress.run (token :: tokens) = (progress.step token).bind (·.run tokens) := rfl

theorem run_singleton (progress : JsonProgress) (token : JsonToken) :
    progress.run [token] = progress.step token := by
  rw [run_cons]
  exact Option.bind_fun_some _

theorem run_append (progress : JsonProgress) (tokens later : List JsonToken) :
    progress.run (tokens ++ later) = (progress.run tokens).bind (·.run later) :=
  List.foldlM_append

variable {frames : List JsonFrame} {frame : JsonFrame} {expected : JsonExpected}

theorem push_of_lt (hroom : frames.length < mostFrames) :
    push frame expected frames = some (.inside (frame :: frames) expected) := if_pos hroom

open Json

/-! ### Where the first item or member stands -/

theorem run_tokens_valueOrEnd (value : Json) (frames : List JsonFrame) (rest : List JsonToken) :
    run (.inside frames .valueOrEnd) (tokens value ++ rest) =
      run (.inside frames .value) (tokens value ++ rest) := by
  cases value <;> rfl

theorem run_itemTokens_valueOrEnd (item : Json) (items : List Json) (frames : List JsonFrame) :
    run (.inside frames .valueOrEnd) (itemTokens (item :: items)) =
      run (.inside frames .value) (itemTokens (item :: items)) := by
  cases items <;> exact run_tokens_valueOrEnd item frames _

theorem run_memberTokens_nameOrEnd (member : String × Json) (members : List (String × Json))
    (frames : List JsonFrame) :
    run (.inside frames .nameOrEnd) (memberTokens (member :: members)) =
      run (.inside frames .name) (memberTokens (member :: members)) := by
  cases members <;> rfl

/-! ### Values -/

mutual

/-- A value is read where one may stand, and given to the innermost frame. -/
theorem run_tokens (room : ℕ) (frames : List JsonFrame)
    (hframes : frames.length + room ≤ mostFrames) :
    ∀ value : Json, Readable room value →
      run (.inside frames .value) (tokens value) = complete value frames
  | .null, _ => run_singleton _ _
  | .boolean _, _ => run_singleton _ _
  | .number _, _ => run_singleton _ _
  | .string _, _ => run_singleton _ _
  | .array items, h => by
    have hroom : frames.length < mostFrames := by have hpos := h.1; omega
    have hopen : run (.inside frames .value) (tokens (.array items)) =
        (push (.array []) .valueOrEnd frames).bind (·.run (itemTokens items)) := rfl
    rw [hopen, push_of_lt hroom, Option.bind_some]
    cases items with
    | nil => exact run_singleton _ _
    | cons item items =>
        rw [run_itemTokens_valueOrEnd]
        exact run_itemTokens (room - 1) frames (by omega) [] (item :: items)
          (List.cons_ne_nil _ _) h.2
  | .object members, h => by
    have hroom : frames.length < mostFrames := by have hpos := h.1; omega
    have hopen : run (.inside frames .value) (tokens (.object members)) =
        (push (.object []) .nameOrEnd frames).bind (·.run (memberTokens members)) := rfl
    rw [hopen, push_of_lt hroom, Option.bind_some]
    cases members with
    | nil => exact run_singleton _ _
    | cons member members =>
        rw [run_memberTokens_nameOrEnd]
        exact run_memberTokens (room - 1) frames (by omega) [] (member :: members)
          (List.cons_ne_nil _ _) h.2

theorem run_itemTokens (room : ℕ) (frames : List JsonFrame)
    (hframes : frames.length + 1 + room ≤ mostFrames) (before : List Json) :
    ∀ items : List Json, items ≠ [] → ItemsReadable room items →
      run (.inside (.array before :: frames) .value) (itemTokens items) =
        complete (.array (before.reverse ++ items)) frames
  | [item], _, h => by
    have hitem := run_tokens room (.array before :: frames) hframes item h.1
    have hend : step (.inside (.array (item :: before) :: frames) .commaOrEnd) .closeArray =
        complete (.array (item :: before).reverse) frames := rfl
    rw [itemTokens, run_append, hitem, complete, Option.bind_some, run_singleton, hend,
      List.reverse_cons]
  | item :: next :: items, _, h => by
    have hitem := run_tokens room (.array before :: frames) hframes item h.1
    have hrest := run_itemTokens room frames hframes (item :: before) (next :: items)
      (List.cons_ne_nil _ _) h.2
    have hcomma : step (.inside (.array (item :: before) :: frames) .commaOrEnd) .comma =
        some (.inside (.array (item :: before) :: frames) .value) := rfl
    rw [itemTokens_cons_cons, run_append, hitem, complete, Option.bind_some, run_cons, hcomma,
      Option.bind_some, hrest, List.reverse_cons, List.append_assoc, List.singleton_append]

theorem run_memberTokens (room : ℕ) (frames : List JsonFrame)
    (hframes : frames.length + 1 + room ≤ mostFrames) (before : List (String × Json)) :
    ∀ members : List (String × Json), members ≠ [] → MembersReadable room members →
      run (.inside (.object before :: frames) .name) (memberTokens members) =
        complete (.object (before.reverse ++ members)) frames
  | [(name, value)], _, h => by
    have hname : run (.inside (.object before :: frames) .name) (memberTokens [(name, value)]) =
        run (.inside (.member name before :: frames) .value)
          (tokens value ++ [.closeObject]) := rfl
    have hvalue := run_tokens room (.member name before :: frames) hframes value h.1
    have hend : step (.inside (.object ((name, value) :: before) :: frames) .commaOrEnd)
        .closeObject = complete (.object ((name, value) :: before).reverse) frames := rfl
    rw [hname, run_append, hvalue, complete, Option.bind_some, run_singleton, hend,
      List.reverse_cons]
  | (name, value) :: next :: members, _, h => by
    have hname : run (.inside (.object before :: frames) .name)
          (memberTokens ((name, value) :: next :: members)) =
        run (.inside (.member name before :: frames) .value)
          (tokens value ++ .comma :: memberTokens (next :: members)) := rfl
    have hvalue := run_tokens room (.member name before :: frames) hframes value h.1
    have hcomma : step (.inside (.object ((name, value) :: before) :: frames) .commaOrEnd)
        .comma = some (.inside (.object ((name, value) :: before) :: frames) .name) := rfl
    have hrest := run_memberTokens room frames hframes ((name, value) :: before)
      (next :: members) (List.cons_ne_nil _ _) h.2
    rw [hname, run_append, hvalue, complete, Option.bind_some, run_cons, hcomma,
      Option.bind_some, hrest, List.reverse_cons, List.append_assoc, List.singleton_append]

end

end JsonProgress

/-! ## Round trip -/

namespace Json

theorem ofTokens?_tokens {value : Json} (h : Readable JsonProgress.mostFrames value) :
    ofTokens? (tokens value) = some value := by
  have hrun := JsonProgress.run_tokens JsonProgress.mostFrames [] (by simp) value h
  rw [JsonProgress.run] at hrun
  rw [ofTokens?, JsonProgress.start, hrun]
  rfl

/-- A value is read from any text that spells its tokens. -/
theorem ofChars?_of_spells {text : List Char} {value : Json}
    (htext : JsonScan.Spells text (tokens value))
    (h : Readable JsonProgress.mostFrames value) : ofChars? text = some value := by
  rw [ofChars?, htext.ofChars?_eq]
  exact ofTokens?_tokens h

/-- A value is read from its pretty form, with any blanks after it. -/
theorem ofChars?_pretty {value : Json} (h : Readable JsonProgress.mostFrames value)
    {blanks : List Char} (hblanks : ∀ c ∈ blanks, JsonToken.isBlank c = true) :
    ofChars? (value.pretty.toList ++ blanks) = some value := by
  have hvalue := spells_prettyChars JsonProgress.mostFrames 0 value h
  have hend : JsonScan.Spells blanks [] := by
    simpa only [List.append_nil] using JsonScan.spells_nil.blanks hblanks
  have hseparated : JsonScan.Separated blanks := by
    intro c hc
    exact JsonScan.isBare_of_isBlank (hblanks c (List.mem_of_mem_head? hc))
  have htext := hvalue.append hend hseparated
  rw [List.append_nil] at htext
  rw [pretty, String.toList_ofList]
  exact ofChars?_of_spells htext h

end Json

end RuntimeTargets
