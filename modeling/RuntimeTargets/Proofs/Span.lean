import Mathlib
import RuntimeTargets.Span

/-!
# Spans laid end to end

A row of spans that leaves no gap holds every address between its two ends, and no
address twice.  Looking for the first span that holds an address is then looking for
the only one.
-/

namespace RuntimeTargets.Span

variable {low high address : Word} {spans : List Span}

theorem mem_iff {s : Span} : address ∈ s ↔ s.start ≤ address ∧ address < s.stop :=
  Iff.rfl

/-- Bytes of a span. -/
def size (s : Span) : ℕ := s.stop.toNat - s.start.toNat

/-- The span is the `bytes` bytes from `start`. -/
def RunsFrom (s : Span) (start : Word) (bytes : ℕ) : Prop :=
  s.start = start ∧ s.stop.toNat = start.toNat + bytes

namespace RunsFrom

variable {s : Span} {start : Word} {bytes : ℕ}

theorem start_le_stop (h : s.RunsFrom start bytes) : s.start ≤ s.stop := by
  rw [UInt64.le_iff_toNat_le, h.1, h.2]
  exact Nat.le_add_right _ _

theorem size_eq (h : s.RunsFrom start bytes) : s.size = bytes := by
  rw [size, h.1, h.2, Nat.add_sub_cancel_left]

end RunsFrom

/-- The spans lie end to end from `low` to `high`. -/
def Tile : List Span → Word → Word → Prop
  | [], low, high => low = high
  | s :: spans, low, high => s.start = low ∧ s.start ≤ s.stop ∧ Tile spans s.stop high

namespace Tile

theorem le (h : Tile spans low high) : low ≤ high := by
  induction spans generalizing low with
  | nil => exact UInt64.le_of_eq h
  | cons s spans ih =>
      obtain ⟨hstart, hle, htail⟩ := h
      rw [← hstart]
      exact UInt64.le_trans hle (ih htail)

theorem exists_mem_iff (h : Tile spans low high) :
    (∃ s ∈ spans, address ∈ s) ↔ low ≤ address ∧ address < high := by
  induction spans generalizing low with
  | nil =>
      have hends : low = high := h
      grind
  | cons s spans ih =>
      obtain ⟨hstart, hle, htail⟩ := h
      have hbelow := htail.le
      rw [List.exists_mem_cons_iff, ih htail, mem_iff]
      grind

/-- The parts after the first lie above it. -/
theorem stop_le_of_mem {head : Span} (h : Tile (head :: spans) low high) {s : Span}
    (hs : s ∈ spans) (hmem : address ∈ s) : head.stop ≤ address :=
  (h.2.2.exists_mem_iff.1 ⟨s, hs, hmem⟩).1

theorem find?_eq_some_iff {α : Type} {parts : List (α × Span)} {part : α × Span}
    (h : Tile (parts.map Prod.snd) low high) :
    parts.find? (fun part => address ∈ part.2) = some part ↔
      part ∈ parts ∧ address ∈ part.2 := by
  induction parts generalizing low with
  | nil => simp
  | cons head parts ih =>
      by_cases hhead : address ∈ head.2
      · rw [List.find?_cons_of_pos (by simpa using hhead), Option.some.injEq,
          List.mem_cons]
        constructor
        · rintro rfl
          exact ⟨Or.inl rfl, hhead⟩
        · rintro ⟨rfl | htail, hmem⟩
          · rfl
          -- a later part that holds the address would start beyond it
          · have habove := h.stop_le_of_mem (List.mem_map_of_mem htail) hmem
            exact absurd hhead.2 (UInt64.not_lt.2 habove)
      · rw [List.find?_cons_of_neg (by simpa using hhead), ih h.2.2, List.mem_cons]
        constructor
        · rintro ⟨htail, hmem⟩
          exact ⟨Or.inr htail, hmem⟩
        · rintro ⟨rfl | htail, hmem⟩
          · exact absurd hmem hhead
          · exact ⟨htail, hmem⟩

end Tile

end RuntimeTargets.Span
