import RuntimeTargets.ClassSpace.Candidates
import RuntimeTargets.Proofs.ClassSpace.Narrowing

/-!
# The addresses that a walk visits

A walk is a state that is advanced, but which addresses it visits can be said
without its state: those that are multiples of the stride in force where they
lie.  This `grid` is the alignment itself up to `zeroBasedLimit`, and at least
`unscaledLimit` beyond it for a walk that started before.  The invariant `Walks`
ties the stored stride to the grid, so that one step is known to skip nothing,
and the list of all steps is then determined up to its order, which ascends.
-/

namespace RuntimeTargets.Candidates

open ClassSpace

variable {c rest : Candidates} {address : Word}

/-! ## Single steps -/

/-- The stride with which a walk leaves its position. -/
def nextStride (c : Candidates) : Word :=
  if c.position = zeroBasedLimit ∧ c.stride < unscaledLimit then unscaledLimit
  else c.stride

/-- A walk one step on. -/
def moved (c : Candidates) : Candidates where
  detour := none
  position := Word.addSaturating c.position c.nextStride
  stride := c.nextStride

theorem toNat_position_moved (c : Candidates) : c.moved.position.toNat =
    min (c.position.toNat + c.nextStride.toNat) (2 ^ 64 - 1) :=
  Word.toNat_addSaturating _ _

theorem advance_detour (hdetour : c.detour = some address) :
    c.advance = (some address, { c with detour := none }) := by
  rw [advance, hdetour]

theorem advance_ended (hdetour : c.detour = none)
    (hended : c.stride = 0 ∨ searchLimit ≤ c.position) : c.advance = (none, c) := by
  simp only [advance, hdetour, if_pos hended]

theorem advance_moved (hdetour : c.detour = none)
    (hwalking : ¬ (c.stride = 0 ∨ searchLimit ≤ c.position)) :
    c.advance = (some c.position, c.moved) := by
  simp only [advance, hdetour, if_neg hwalking]
  rfl

/-- A walk that has no next address stays as it is. -/
theorem eq_of_advance_none (hadvance : c.advance = (none, rest)) : rest = c := by
  cases hdetour : c.detour with
  | some address =>
      rw [advance_detour hdetour] at hadvance
      cases hadvance
  | none =>
      by_cases hended : c.stride = 0 ∨ searchLimit ≤ c.position
      · rw [advance_ended hdetour hended] at hadvance
        cases hadvance
        rfl
      · rw [advance_moved hdetour hended] at hadvance
        cases hadvance

/-! ## All steps -/

theorem toList_of_advance_none (hadvance : c.advance = (none, rest)) : c.toList = [] := by
  rw [toList]
  split
  · rfl
  · rename_i hsome
    rw [hadvance] at hsome
    cases hsome

theorem toList_of_advance_some (hadvance : c.advance = (some address, rest)) :
    c.toList = address :: rest.toList := by
  rw [toList]
  split
  · rename_i hnone
    rw [hadvance] at hnone
    cases hnone
  · rename_i hsome
    rw [hadvance] at hsome
    cases hsome
    rfl

/-- The detour comes before everything else. -/
theorem toList_eq_append (c : Candidates) :
    c.toList = c.detour.toList ++ { c with detour := none }.toList := by
  cases hdetour : c.detour with
  | some address =>
      rw [toList_of_advance_some (advance_detour hdetour)]
      rfl
  | none =>
      obtain ⟨detour, position, stride⟩ := c
      cases hdetour
      rfl

/-- What the call of `advance` with this index answers, the first one having
index zero. -/
def answer (c : Candidates) : ℕ → Option Word
  | 0 => c.advance.1
  | index + 1 => c.advance.2.answer index

theorem answer_eq_getElem? (c : Candidates) (index : ℕ) :
    c.answer index = c.toList[index]? := by
  induction index generalizing c with
  | zero =>
      match hadvance : c.advance with
      | (none, rest) => simp [answer, hadvance, toList_of_advance_none hadvance]
      | (some address, rest) => simp [answer, hadvance, toList_of_advance_some hadvance]
  | succ index ih =>
      match hadvance : c.advance with
      | (none, rest) =>
          rw [answer, hadvance, eq_of_advance_none hadvance, ih,
            toList_of_advance_none hadvance]
          simp
      | (some address, rest) =>
          rw [answer, hadvance, ih, toList_of_advance_some hadvance,
            List.getElem?_cons_succ]

/-- Once there was no answer there is none later. -/
theorem answer_none_of_le {index later : ℕ} (hle : index ≤ later)
    (hnone : c.answer index = none) : c.answer later = none := by
  rw [answer_eq_getElem?, List.getElem?_eq_none_iff] at hnone ⊢
  exact hnone.trans hle

/-! ## The grid -/

/-- The stride in force at an address: a walk that starts in reach of a zero base
takes longer steps beyond it. -/
def grid (alignment start address : ℕ) : ℕ :=
  if start ≤ 2 ^ 35 ∧ 2 ^ 35 < address then max alignment (2 ^ 32) else alignment

theorem grid_self (alignment start : ℕ) : grid alignment start start = alignment := by
  rw [grid, if_neg (by omega)]

theorem grid_of_le {alignment start m : ℕ} (hle : m ≤ 2 ^ 35) :
    grid alignment start m = alignment := by
  rw [grid, if_neg (by omega)]

theorem grid_of_lt {alignment start m : ℕ} (hstart : start ≤ 2 ^ 35) (hlt : 2 ^ 35 < m) :
    grid alignment start m = max alignment (2 ^ 32) := by
  rw [grid, if_pos ⟨hstart, hlt⟩]

/-- The walk stands on its grid, or past the end of the search. -/
structure Walks (alignment start : ℕ) (c : Candidates) : Prop where
  detour : c.detour = none
  start_le : start ≤ c.position.toNat
  stride_eq : c.stride.toNat = grid alignment start c.position.toNat
  dvd : c.position.toNat < 2 ^ 40 →
    grid alignment start c.position.toNat ∣ c.position.toNat

theorem add_le_of_dvd {d m n : ℕ} (hm : d ∣ m) (hn : d ∣ n) (hlt : m < n) :
    m + d ≤ n :=
  Nat.le_of_lt_add_of_dvd (Nat.add_lt_add_right hlt d) (Nat.dvd_add hm (Nat.dvd_refl d)) hn

section Grid

variable {alignment start m n : ℕ} (hpower : alignment.isPowerOfTwo)
include hpower

theorem dvd_max : alignment ∣ max alignment (2 ^ 32) := by
  rcases Nat.le_total alignment (2 ^ 32) with hle | hle
  · rw [max_eq_right hle]
    exact Alignment.dvd_of_isPowerOfTwo hpower ⟨32, rfl⟩ hle
  · rw [max_eq_left hle]

theorem dvd_grid : alignment ∣ grid alignment start m := by
  unfold grid
  split
  · exact dvd_max hpower
  · exact Nat.dvd_refl _

theorem grid_pos : 0 < grid alignment start m := by
  have hpos := Nat.pos_of_isPowerOfTwo hpower
  unfold grid
  split <;> omega

theorem grid_dvd_grid (hle : m ≤ n) : grid alignment start m ∣ grid alignment start n := by
  by_cases hcoarse : start ≤ 2 ^ 35 ∧ 2 ^ 35 < m
  · rw [grid_of_lt hcoarse.1 hcoarse.2, grid_of_lt hcoarse.1 (hcoarse.2.trans_le hle)]
  · rw [grid, if_neg hcoarse]
    exact dvd_grid hpower

end Grid

/-! ## One step skips nothing -/

theorem toNat_nextStride (c : Candidates) :
    c.nextStride.toNat =
      if c.position.toNat = 2 ^ 35 ∧ c.stride.toNat < 2 ^ 32 then 2 ^ 32
      else c.stride.toNat := by
  simp only [nextStride, apply_ite UInt64.toNat, ← UInt64.toNat_inj,
    UInt64.lt_iff_toNat_lt, toNat_zeroBasedLimit, toNat_unscaledLimit]

namespace Walks

variable {alignment start : ℕ}

theorem toNat_nextStride (h : Walks alignment start c) :
    c.nextStride.toNat =
      if c.position.toNat = 2 ^ 35 then max alignment (2 ^ 32)
      else grid alignment start c.position.toNat := by
  have hstride := h.stride_eq
  rw [Candidates.toNat_nextStride]
  by_cases hturn : c.position.toNat = 2 ^ 35
  · rw [grid_of_le hturn.le] at hstride
    rw [if_pos hturn]
    split <;> omega
  · rw [if_neg hturn, if_neg (by omega), hstride]

theorem nextStride_dvd_position (h : Walks alignment start c)
    (hposition : c.position.toNat < 2 ^ 40) :
    c.nextStride.toNat ∣ c.position.toNat := by
  have hdvd := h.dvd hposition
  rw [h.toNat_nextStride]
  split
  · rename_i hturn
    rw [grid_of_le hturn.le, hturn] at hdvd
    rw [hturn]
    rcases Nat.le_total alignment (2 ^ 32) with hle | hle
    · rw [max_eq_right hle]
      exact Nat.pow_dvd_pow 2 (by decide)
    · rw [max_eq_left hle]
      exact hdvd
  · exact hdvd

/-- Whatever lies on the grid further on is a multiple of the stride taken. -/
theorem nextStride_dvd_grid (h : Walks alignment start c)
    (hpower : alignment.isPowerOfTwo) {m : ℕ} (hlt : c.position.toNat < m) :
    c.nextStride.toNat ∣ grid alignment start m := by
  have hstart := h.start_le
  rw [h.toNat_nextStride]
  split
  · rw [grid_of_lt (by omega) (by omega)]
  · exact grid_dvd_grid hpower hlt.le

/-- The stride taken is the one in force where the walk comes to stand: only a
walk with a long stride, or none that starts in reach of a zero base, gets past
`zeroBasedLimit` without standing on it. -/
theorem nextStride_eq_grid (h : Walks alignment start c)
    (hpower : alignment.isPowerOfTwo) (hposition : c.position.toNat < 2 ^ 40)
    {m : ℕ} (hlt : c.position.toNat < m) (hle : m ≤ c.position.toNat + c.nextStride.toNat) :
    c.nextStride.toNat = grid alignment start m := by
  have hstart := h.start_le
  have hdvd := h.nextStride_dvd_position hposition
  have hnext := h.toNat_nextStride
  by_cases hturn : c.position.toNat = 2 ^ 35
  · rw [if_pos hturn] at hnext
    rw [hnext, grid_of_lt (by omega) (by omega)]
  rw [if_neg hturn] at hnext
  by_cases hcross : c.position.toNat < 2 ^ 35 ∧ 2 ^ 35 < m
  · rw [grid_of_le hcross.1.le] at hnext
    rw [hnext] at hdvd hle
    have hlong : 2 ^ 32 ≤ alignment := by
      by_contra hshort
      have hlimit : alignment ∣ 2 ^ 35 :=
        Alignment.dvd_of_isPowerOfTwo hpower ⟨35, rfl⟩ (by omega)
      have hbefore := add_le_of_dvd hdvd hlimit hcross.1
      omega
    rw [hnext, grid_of_lt (by omega) hcross.2, max_eq_left hlong]
  · rw [hnext, grid, grid]
    congr 1
    rw [eq_iff_iff]
    omega

theorem of_dvd {position stride : Word}
    (hdvd : position.toNat < 2 ^ 40 → stride.toNat ∣ position.toNat) :
    Walks stride.toNat position.toNat ⟨none, position, stride⟩ where
  detour := rfl
  start_le := le_rfl
  stride_eq := (grid_self _ _).symm
  dvd := by
    rw [grid_self]
    exact hdvd

theorem advance_of_le (h : Walks alignment start c) (hend : 2 ^ 40 ≤ c.position.toNat) :
    c.advance = (none, c) :=
  advance_ended h.detour (Or.inr hend)

section Step

variable (h : Walks alignment start c) (hpower : alignment.isPowerOfTwo)
variable (hposition : c.position.toNat < 2 ^ 40)
include h hpower

theorem stride_pos : 0 < c.stride.toNat := by
  rw [h.stride_eq]
  exact grid_pos hpower

include hposition

theorem advance_of_lt : c.advance = (some c.position, c.moved) := by
  have hstride := h.stride_pos hpower
  apply advance_moved h.detour
  rintro (hzero | hend)
  · rw [hzero] at hstride
    exact absurd hstride (by decide)
  · exact absurd hposition (Nat.not_lt_of_le hend)

/-- The walk moves on, and by no more than its stride. -/
theorem moved_position : c.position.toNat < c.moved.position.toNat ∧
    c.moved.position.toNat ≤ c.position.toNat + c.nextStride.toNat := by
  have hmoved := c.toNat_position_moved
  have hnext : 0 < c.nextStride.toNat := by
    have hstride := h.stride_pos hpower
    rw [Candidates.toNat_nextStride]
    split <;> omega
  omega

theorem moved : Walks alignment start c.moved := by
  obtain ⟨hlt, hle⟩ := h.moved_position hpower hposition
  have hgrid := h.nextStride_eq_grid hpower hposition hlt hle
  refine ⟨rfl, h.start_le.trans hlt.le, hgrid, ?_⟩
  intro hwithin
  have hexact : c.moved.position.toNat = c.position.toNat + c.nextStride.toNat := by
    have hmoved := c.toNat_position_moved
    omega
  rw [← hgrid, hexact]
  exact Nat.dvd_add (h.nextStride_dvd_position hposition) (Nat.dvd_refl _)

/-- Nothing on the grid lies between one address of the walk and the next. -/
theorem moved_le {m : ℕ} (hlt : c.position.toNat < m) (hgrid : grid alignment start m ∣ m) :
    c.moved.position.toNat ≤ m := by
  have hskip := add_le_of_dvd (h.nextStride_dvd_position hposition)
    ((h.nextStride_dvd_grid hpower hlt).trans hgrid) hlt
  exact (h.moved_position hpower hposition).2.trans hskip

end Step

/-! ## Whole walks -/

/-- Induction on the addresses that are left of a walk. -/
theorem induct (hpower : alignment.isPowerOfTwo)
    {motive : ∀ c, Walks alignment start c → Prop}
    (ended : ∀ c h, 2 ^ 40 ≤ c.position.toNat → c.toList = [] → motive c h)
    (step : ∀ c h (hposition : c.position.toNat < 2 ^ 40),
      c.toList = c.position :: c.moved.toList →
      motive c.moved (h.moved hpower hposition) → motive c h)
    {c : Candidates} (h : Walks alignment start c) : motive c h := by
  induction c using toList.induct with
  | case1 c rest hadvance =>
      refine ended c h ?_ (toList_of_advance_none hadvance)
      by_contra hposition
      rw [h.advance_of_lt hpower (Nat.lt_of_not_le hposition)] at hadvance
      cases hadvance
  | case2 c first rest hadvance ih =>
      have hposition : c.position.toNat < 2 ^ 40 := by
        by_contra hend
        rw [h.advance_of_le (Nat.le_of_not_lt hend)] at hadvance
        cases hadvance
      have hmoved := h.advance_of_lt hpower hposition
      rw [hadvance] at hmoved
      cases hmoved
      exact step c h hposition (toList_of_advance_some hadvance) (ih _)

/-- A walk visits its grid from its position to the end of the search, and
nothing else. -/
theorem mem_toList_iff (h : Walks alignment start c) (hpower : alignment.isPowerOfTwo) :
    address ∈ c.toList ↔ c.position.toNat ≤ address.toNat ∧ address.toNat < 2 ^ 40 ∧
      grid alignment start address.toNat ∣ address.toNat := by
  induction h using induct hpower with
  | ended c h hend hlist =>
      rw [hlist]
      refine iff_of_false (List.not_mem_nil) ?_
      rintro ⟨hfrom, hwithin, -⟩
      omega
  | step c h hposition hlist ih =>
      rw [hlist, List.mem_cons, ih]
      constructor
      · rintro (rfl | ⟨hfrom, hwithin, hgrid⟩)
        · exact ⟨le_rfl, hposition, h.dvd hposition⟩
        · have hlt := (h.moved_position hpower hposition).1
          exact ⟨by omega, hwithin, hgrid⟩
      · rintro ⟨hfrom, hwithin, hgrid⟩
        rcases hfrom.eq_or_lt with hhere | hlt
        · exact Or.inl (UInt64.toNat_inj.1 hhere.symm)
        · exact Or.inr ⟨h.moved_le hpower hposition hlt hgrid, hwithin, hgrid⟩

theorem pairwise_toList (h : Walks alignment start c) (hpower : alignment.isPowerOfTwo) :
    c.toList.Pairwise (· < ·) := by
  induction h using induct hpower with
  | ended c h hend hlist =>
      rw [hlist]
      exact List.Pairwise.nil
  | step c h hposition hlist ih =>
      rw [hlist, List.pairwise_cons]
      refine ⟨?_, ih⟩
      intro later hlater
      have hfrom := (((h.moved hpower hposition).mem_toList_iff hpower).1 hlater).1
      have hlt := (h.moved_position hpower hposition).1
      exact UInt64.lt_iff_toNat_lt.2 (hlt.trans_le hfrom)

/-- The first address of a walk is its position. -/
theorem head?_toList (h : Walks alignment start c) (hpower : alignment.isPowerOfTwo)
    (hposition : c.position.toNat < 2 ^ 40) : c.toList.head? = some c.position := by
  rw [toList_of_advance_some (h.advance_of_lt hpower hposition), List.head?_cons]

end Walks

end RuntimeTargets.Candidates
