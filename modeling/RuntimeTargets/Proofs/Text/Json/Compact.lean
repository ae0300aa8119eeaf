import RuntimeTargets.Proofs.Text.Json.RoundTrip

/-!
# The compact form reads back

Without blanks the end of each token shows by what follows it: a quote ends a string,
and a mark ends a literal or a number.  The compact form of a value therefore spells its
tokens as the pretty form does, the value is read from it, and two values have one
compact form only if they are the same.
-/

namespace RuntimeTargets.Json

open JsonScan

/-- A member, given what its value spells. -/
theorem spells_compactMember {text : List Char} {tokens : List JsonToken} (name : String)
    (h : Spells text tokens) :
    Spells (quote name ++ ':' :: text) (.scalar (.string name) :: .colon :: tokens) :=
  (spells_quote name).append (h.mark rfl) (separated_cons rfl)

mutual

theorem spells_compactChars (room : ℕ) : ∀ value : Json, Readable room value →
    Spells (compactChars value) (tokens value)
  | .null, _ => spells_null
  | .boolean value, _ => spells_boolean value
  | .number (.word value), _ => spells_word value
  | .string text, _ => spells_quote text
  | .array items, h => (spells_compactItems (room - 1) items h.2).mark rfl
  | .object members, h => (spells_compactMembers (room - 1) members h.2).mark rfl

theorem spells_compactItems (room : ℕ) : ∀ items : List Json, ItemsReadable room items →
    Spells (compactItems items) (itemTokens items)
  | [], _ => spells_nil.mark rfl
  | [item], h => by
    have hitem := spells_compactChars room item h.1
    exact hitem.append (spells_nil.mark rfl) (separated_cons rfl)
  | item :: next :: items, h => by
    have hitem := spells_compactChars room item h.1
    have hitems := spells_compactItems room (next :: items) h.2
    exact hitem.append (hitems.mark rfl) (separated_cons rfl)

theorem spells_compactMembers (room : ℕ) : ∀ members : List (String × Json),
    MembersReadable room members → Spells (compactMembers members) (memberTokens members)
  | [], _ => spells_nil.mark rfl
  | [(name, value)], h => by
    have hvalue := spells_compactChars room value h.1
    have hend : Spells ['}'] [.closeObject] := spells_nil.mark rfl
    exact (spells_compactMember name hvalue).append hend (separated_cons rfl)
  | (name, value) :: next :: members, h => by
    have hvalue := spells_compactChars room value h.1
    have hmembers := spells_compactMembers room (next :: members) h.2
    have hcomma : Spells (',' :: compactMembers (next :: members))
        (.comma :: memberTokens (next :: members)) := hmembers.mark rfl
    exact (spells_compactMember name hvalue).append hcomma (separated_cons rfl)

end

/-- A value is read from its compact form. -/
theorem ofChars?_compact {value : Json} (h : Readable JsonProgress.mostFrames value) :
    ofChars? value.compact.toList = some value := by
  rw [compact, String.toList_ofList]
  exact ofChars?_of_spells (spells_compactChars JsonProgress.mostFrames value h) h

theorem compact_inj {value other : Json} (hvalue : Readable JsonProgress.mostFrames value)
    (hother : Readable JsonProgress.mostFrames other) :
    value.compact = other.compact ↔ value = other := by
  constructor
  · intro heq
    have hread := ofChars?_compact hvalue
    rw [heq, ofChars?_compact hother, Option.some.injEq] at hread
    exact hread.symm
  · rintro rfl
    rfl

end RuntimeTargets.Json
