import RuntimeTargets.Target.Record
import RuntimeTargets.Proofs.Text.Json.Compact

/-!
# A record shows every fact

The record of a target is nested far less deeply than a reader puts up with and has no
number but words, so it is read back from its text.  Each fact is the value of a member
of its own, and so no two targets have one text.
-/

namespace RuntimeTargets

namespace Json

theorem ofWord_inj {a b : Word} : ofWord a = ofWord b ↔ a = b := by
  rw [ofWord, ofWord, number.injEq, JsonNumber.word.injEq]

theorem ofWord?_injective : Function.Injective ofWord? := by
  rw [Option.injective_iff]
  constructor
  · intro a b heq
    exact ofWord_inj.1 heq
  · rintro ⟨a, hnull⟩
    cases hnull

end Json

theorem GuardPages.toJson_inj {pages other : GuardPages} :
    pages.toJson = other.toJson ↔ pages = other := by
  cases pages
  cases other
  simp only [toJson, Json.object.injEq, List.cons.injEq, Prod.mk.injEq, Json.ofWord_inj,
    GuardPages.mk.injEq, true_and, and_true]

theorem Defaults.toJson_inj {d other : Defaults} : d.toJson = other.toJson ↔ d = other := by
  cases d
  cases other
  simp only [toJson, Json.object.injEq, List.cons.injEq, Prod.mk.injEq, Json.ofWord_inj,
    GuardPages.toJson_inj, Defaults.mk.injEq, true_and, and_true]

namespace Target

variable {t u : Target}

theorem toJson_inj : t.toJson = u.toJson ↔ t = u := by
  cases t
  cases u
  simp only [toJson, Json.object.injEq, List.cons.injEq, Prod.mk.injEq, Json.string.injEq,
    Json.boolean.injEq, Json.ofWord_inj, Json.ofWord?_injective.eq_iff, Defaults.toJson_inj,
    Target.mk.injEq, true_and, and_true]

theorem readable_ofWord? (room : ℕ) : ∀ w : Option Word, Json.Readable room (Json.ofWord? w)
  | none => trivial
  | some _ => trivial

theorem readable_toJson (t : Target) : Json.Readable JsonProgress.mostFrames t.toJson := by
  simp [toJson, Defaults.toJson, GuardPages.toJson, Json.Readable, Json.MembersReadable,
    Json.ofWord, readable_ofWord?, JsonProgress.mostFrames]

/-- Two targets have one compact text only if they are the same in every fact, whatever
their names hold. -/
theorem compact_toJson_inj {t u : Target} : t.toJson.compact = u.toJson.compact ↔ t = u := by
  rw [Json.compact_inj t.readable_toJson u.readable_toJson, toJson_inj]

end Target

end RuntimeTargets
