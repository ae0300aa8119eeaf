import RuntimeTargets.Target.Catalog
import RuntimeTargets.Proofs.ClassSpace.Walk
import RuntimeTargets.Proofs.Target.Laws

/-!
# The candidates of a request

A request is rounded up to where its walk begins, and comes before the walk
itself if its space would be a low one.  Together with the grid of the walk this
determines the candidates: they ascend, they leave out no address at which a
better encoding could be had, and none of them comes twice.
-/

namespace RuntimeTargets.Candidates

open ClassSpace

variable {c : Candidates} {address : Word} {t : Target} {requested size : Word}

/-! ## The first candidate -/

/-- The request is for a space that needs neither base nor scale where it is. -/
def IsLow (requested size : Word) : Prop := requested.toNat + size.toNat < 2 ^ 32

theorem isLow_iff :
    Word.addSaturating requested size < unscaledLimit ↔ IsLow requested size := by
  rw [UInt64.lt_iff_toNat_lt, Word.toNat_addSaturating, toNat_unscaledLimit, IsLow]
  omega

/-- How a walk over the multiples of `alignment` begins. -/
structure Begins (c : Candidates) (alignment requested size : Word) : Prop where
  detour_some : ∀ address, c.detour = some address ↔
    address = requested ∧ IsLow requested size ∧ ¬ alignment.toNat ∣ requested.toNat
  walks : Walks alignment.toNat c.position.toNat { c with detour := none }
  /-- No multiple is passed over before the first step. -/
  position_le_iff : ∀ m, alignment.toNat ∣ m → m < 2 ^ 40 →
    (c.position.toNat ≤ m ↔ requested.toNat ≤ m)

theorem ofTarget_of_none (hnone : t.classSpaceAlignment = none) :
    ofTarget t requested size =
      .ok { detour := some requested, position := 0, stride := 0 } := by
  rw [ofTarget, hnone]

/-- Where a walk begins once the request has been rounded up, or could not be. -/
def opening (requested size alignment : Word) (aligned : Option Word) : Candidates where
  detour :=
    if Word.addSaturating requested size < unscaledLimit ∧ aligned ≠ some requested then
      some requested
    else none
  position := aligned.getD searchLimit
  stride := alignment

theorem ofTarget_of_roundUp? {alignment : Word} {aligned : Option Word}
    (halignment : t.classSpaceAlignment = some alignment)
    (hround : Alignment.roundUp? requested alignment = .ok aligned) :
    ofTarget t requested size = .ok (opening requested size alignment aligned) := by
  simp only [ofTarget, halignment, hround]
  rfl

theorem detour_opening_iff {alignment : Word} {aligned : Option Word} :
    (opening requested size alignment aligned).detour = some address ↔
      address = requested ∧ IsLow requested size ∧ aligned ≠ some requested := by
  rw [opening, ← isLow_iff]
  split
  · rename_i hfirst
    rw [Option.some.injEq]
    exact ⟨fun heq => ⟨heq.symm, hfirst⟩, fun h => h.1.symm⟩
  · rename_i hwalk
    constructor
    · intro hnone
      cases hnone
    · rintro ⟨-, hfirst⟩
      exact absurd hfirst hwalk

theorem begins_of_roundsUp {alignment rounded : Word}
    (hup : Alignment.RoundsUp requested alignment rounded) :
    (opening requested size alignment (some rounded)).Begins alignment requested size where
  detour_some address := by
    rw [detour_opening_iff, ne_eq, Option.some.injEq, ← hup.toNat_eq_iff,
      UInt64.toNat_inj]
  walks := Walks.of_dvd fun _ => hup.dvd
  position_le_iff m hdvd _ := hup.le_iff m hdvd

theorem begins_of_not_roundsUp {alignment : Word}
    (hnone : ∀ m, alignment.toNat ∣ m → requested.toNat ≤ m → 2 ^ 64 ≤ m) :
    (opening requested size alignment none).Begins alignment requested size where
  detour_some address := by
    have hrequested : ¬ alignment.toNat ∣ requested.toNat := by
      intro hdvd
      have hlarge := hnone _ hdvd le_rfl
      have hword := requested.toNat_lt
      omega
    simp [detour_opening_iff, hrequested]
  walks := Walks.of_dvd fun hwithin => absurd hwithin (lt_irrefl (2 ^ 40))
  position_le_iff m hdvd hwithin := by
    have hend : (opening requested size alignment none).position.toNat = 2 ^ 40 := rfl
    have hlarge := hnone m hdvd
    omega

theorem ofTarget_of_some (requested size : Word) {alignment : Word}
    (hpower : Word.IsPowerOfTwo alignment)
    (halignment : t.classSpaceAlignment = some alignment) :
    ∃ c, ofTarget t requested size = .ok c ∧ c.Begins alignment requested size := by
  obtain ⟨rounded, hround, hup⟩ | ⟨hround, hnone⟩ :=
    Alignment.roundUp?_cases hpower requested
  · exact ⟨_, ofTarget_of_roundUp? halignment hround, begins_of_roundsUp hup⟩
  · exact ⟨_, ofTarget_of_roundUp? halignment hround, begins_of_not_roundsUp hnone⟩

/-- A sound target never fails to name its candidates. -/
theorem exists_ofTarget (ht : t.Sound) (requested size : Word) :
    ∃ c, ofTarget t requested size = .ok c := by
  cases halignment : t.classSpaceAlignment with
  | none => exact ⟨_, ofTarget_of_none halignment⟩
  | some alignment =>
      have hpower := ht.isPowerOfTwo_classSpaceAlignment halignment
      obtain ⟨c, hc, -⟩ := ofTarget_of_some requested size hpower halignment
      exact ⟨c, hc⟩

/-! ## All candidates -/

namespace Begins

variable {alignment : Word}

theorem mem_toList_iff (h : c.Begins alignment requested size)
    (hpower : Word.IsPowerOfTwo alignment) :
    address ∈ c.toList ↔
      (address = requested ∧ IsLow requested size ∧ ¬ alignment.toNat ∣ requested.toNat) ∨
      (c.position.toNat ≤ address.toNat ∧ address.toNat < 2 ^ 40 ∧
        grid alignment.toNat c.position.toNat address.toNat ∣ address.toNat) := by
  rw [toList_eq_append, List.mem_append, Option.mem_toList, h.walks.mem_toList_iff hpower,
    h.detour_some]

/-- An address on the grid is a multiple of the alignment from the request on. -/
theorem dvd_of_mem_grid (h : c.Begins alignment requested size)
    (hpower : Word.IsPowerOfTwo alignment)
    (hfrom : c.position.toNat ≤ address.toNat) (hwithin : address.toNat < 2 ^ 40)
    (hgrid : grid alignment.toNat c.position.toNat address.toNat ∣ address.toNat) :
    alignment.toNat ∣ address.toNat ∧ requested.toNat ≤ address.toNat := by
  have hdvd : alignment.toNat ∣ address.toNat := (dvd_grid hpower).trans hgrid
  exact ⟨hdvd, (h.position_le_iff _ hdvd hwithin).1 hfrom⟩

theorem pairwise_toList (h : c.Begins alignment requested size)
    (hpower : Word.IsPowerOfTwo alignment) : c.toList.Pairwise (· < ·) := by
  rw [toList_eq_append, List.pairwise_append]
  refine ⟨?_, h.walks.pairwise_toList hpower, ?_⟩
  · cases c.detour <;> simp
  · intro first hfirst later hlater
    rw [Option.mem_toList, h.detour_some] at hfirst
    obtain ⟨rfl, -, hunaligned⟩ := hfirst
    obtain ⟨hfrom, hwithin, hgrid⟩ := (h.walks.mem_toList_iff hpower).1 hlater
    obtain ⟨hdvd, hle⟩ := h.dvd_of_mem_grid hpower hfrom hwithin hgrid
    refine UInt64.lt_iff_toNat_lt.2 (lt_of_le_of_ne hle ?_)
    intro heq
    exact hunaligned (heq ▸ hdvd)

/-- An aligned request is where the walk begins. -/
theorem position_eq (h : c.Begins alignment requested size)
    (hdvd : alignment.toNat ∣ requested.toNat) (hwithin : requested.toNat < 2 ^ 40) :
    c.position = requested := by
  have hle : c.position.toNat ≤ requested.toNat :=
    (h.position_le_iff _ hdvd hwithin).2 le_rfl
  have haligned : alignment.toNat ∣ c.position.toNat := by
    have hgrid := h.walks.dvd (hle.trans_lt hwithin)
    rwa [grid_self] at hgrid
  have hge : requested.toNat ≤ c.position.toNat :=
    (h.position_le_iff _ haligned (hle.trans_lt hwithin)).1 le_rfl
  exact UInt64.toNat_inj.1 (le_antisymm hle hge)

/-- A low request is the first candidate, by the detour or by the walk. -/
theorem head?_toList (h : c.Begins alignment requested size)
    (hpower : Word.IsPowerOfTwo alignment) (hlow : IsLow requested size) :
    c.toList.head? = some requested := by
  rw [toList_eq_append]
  by_cases hdvd : alignment.toNat ∣ requested.toNat
  · have hwithin : requested.toNat < 2 ^ 40 := by
      unfold IsLow at hlow
      omega
    have hposition := h.position_eq hdvd hwithin
    have hdetour : c.detour = none := by
      rw [Option.eq_none_iff_forall_ne_some]
      intro address hsome
      exact ((h.detour_some address).1 hsome).2.2 hdvd
    rw [hdetour]
    refine (h.walks.head?_toList hpower ?_).trans (congrArg some hposition)
    exact hposition ▸ hwithin
  · rw [(h.detour_some requested).2 ⟨rfl, hlow, hdvd⟩]
    rfl

theorem mem_toList_of_grid_dvd (h : c.Begins alignment requested size)
    (hpower : Word.IsPowerOfTwo alignment) (hle : requested.toNat ≤ address.toNat)
    (hwithin : address.toNat < 2 ^ 40)
    (hgrid : grid alignment.toNat c.position.toNat address.toNat ∣ address.toNat) :
    address ∈ c.toList := by
  rw [h.mem_toList_iff hpower]
  have hdvd : alignment.toNat ∣ address.toNat := (dvd_grid hpower).trans hgrid
  exact Or.inr ⟨(h.position_le_iff _ hdvd hwithin).2 hle, hwithin, hgrid⟩

end Begins

/-- What the candidates owe to a request on a target that prefers an alignment. -/
structure Serves (c : Candidates) (alignment requested size : Word) : Prop where
  /-- The calls of `advance` answer the list from its start, and then nothing. -/
  answer_eq : ∀ index, c.answer index = c.toList[index]?
  answer_none : ∀ index later, index ≤ later →
    c.answer index = none → c.answer later = none
  ascending : c.toList.Pairwise (· < ·)
  low_first : requested.toNat + size.toNat < 2 ^ 32 → c.toList.head? = some requested
  bounded : ∀ address ∈ c.toList,
    requested.toNat ≤ address.toNat ∧ address.toNat < 2 ^ 40
  /-- Only the first candidate may be unaligned, and only if it is a low request. -/
  aligned : ∀ address ∈ c.toList, alignment.toNat ∣ address.toNat ∨
    (address = requested ∧ c.toList.head? = some requested ∧
      requested.toNat + size.toNat < 2 ^ 32)
  complete_zeroBased : ∀ address : Word, alignment.toNat ∣ address.toNat →
    requested.toNat ≤ address.toNat → address.toNat ≤ 2 ^ 35 → address ∈ c.toList
  complete : ∀ address : Word, max alignment.toNat (2 ^ 32) ∣ address.toNat →
    requested.toNat ≤ address.toNat → address.toNat < 2 ^ 40 → address ∈ c.toList

theorem Begins.serves {alignment : Word} (h : c.Begins alignment requested size)
    (hpower : Word.IsPowerOfTwo alignment) : c.Serves alignment requested size where
  answer_eq := c.answer_eq_getElem?
  answer_none _ _ := answer_none_of_le
  ascending := h.pairwise_toList hpower
  low_first := h.head?_toList hpower
  bounded address hmem := by
    obtain ⟨rfl, hlow, -⟩ | ⟨hfrom, hwithin, hgrid⟩ := (h.mem_toList_iff hpower).1 hmem
    · unfold IsLow at hlow
      omega
    · exact ⟨(h.dvd_of_mem_grid hpower hfrom hwithin hgrid).2, hwithin⟩
  aligned address hmem := by
    obtain ⟨rfl, hlow, -⟩ | ⟨hfrom, hwithin, hgrid⟩ := (h.mem_toList_iff hpower).1 hmem
    · exact Or.inr ⟨rfl, h.head?_toList hpower hlow, hlow⟩
    · exact Or.inl (h.dvd_of_mem_grid hpower hfrom hwithin hgrid).1
  complete_zeroBased address hdvd hle hlimit := by
    apply h.mem_toList_of_grid_dvd hpower hle (by omega)
    rw [grid_of_le hlimit]
    exact hdvd
  complete address hdvd hle hwithin := by
    apply h.mem_toList_of_grid_dvd hpower hle hwithin
    unfold grid
    split
    · exact hdvd
    · exact (dvd_max hpower).trans hdvd

theorem serves_of_ofTarget {alignment : Word} (ht : t.Sound)
    (halignment : t.classSpaceAlignment = some alignment)
    (hc : ofTarget t requested size = .ok c) : c.Serves alignment requested size := by
  have hpower := ht.isPowerOfTwo_classSpaceAlignment halignment
  obtain ⟨c', hc', hbegins⟩ := ofTarget_of_some requested size hpower halignment
  rw [hc] at hc'
  cases hc'
  exact hbegins.serves hpower

/-- The start of the address space is a candidate when it is requested. -/
theorem zero_mem_toList (ht : t.Sound) (hc : ofTarget t 0 size = .ok c) :
    0 ∈ c.toList := by
  cases halignment : t.classSpaceAlignment with
  | none =>
      rw [ofTarget_of_none halignment] at hc
      cases hc
      rw [toList_of_advance_some (advance_detour rfl)]
      exact List.mem_cons_self
  | some alignment =>
      apply (serves_of_ofTarget ht halignment hc).complete_zeroBased
      · exact Nat.dvd_zero _
      · exact Nat.le_refl _
      · exact Nat.zero_le _

/-- The candidates of every request on a sound target. -/
theorem ofTarget_serves (t : Target) (requested size : Word) :
    (∀ alignment, t.Sound → t.classSpaceAlignment = some alignment →
      ∃ c, ofTarget t requested size = .ok c ∧ c.Serves alignment requested size) ∧
    (t.classSpaceAlignment = none →
      ∃ c, ofTarget t requested size = .ok c ∧ c.toList = [requested] ∧
        ∀ index, c.answer index = [requested][index]?) := by
  constructor
  · intro alignment hsound halignment
    have hpower := hsound.isPowerOfTwo_classSpaceAlignment halignment
    obtain ⟨c, hc, hbegins⟩ := ofTarget_of_some requested size hpower halignment
    exact ⟨c, hc, hbegins.serves hpower⟩
  · intro hnone
    have hlist : toList ⟨some requested, 0, 0⟩ = [requested] := by
      rw [toList_of_advance_some (advance_detour rfl),
        toList_of_advance_none (advance_ended rfl (Or.inl rfl))]
    refine ⟨_, ofTarget_of_none hnone, hlist, ?_⟩
    intro index
    rw [answer_eq_getElem?, hlist]

/-- An unaligned request for a low space, and the same one without an alignment. -/
theorem ofTarget_serves_low :
    (∃ c, ofTarget Target.mips64 0x80001000 gibibyte = .ok c ∧
      c.Serves gibibyte 0x80001000 gibibyte) ∧
    ∃ c, ofTarget Target.riscv64 0x80001000 gibibyte = .ok c ∧ c.toList = [0x80001000] ∧
      ∀ index, c.answer index = [(0x80001000 : Word)][index]? :=
  ⟨(ofTarget_serves Target.mips64 0x80001000 gibibyte).1 gibibyte
      (Target.sound_of_mem_all _ (by simp [Target.all])) rfl,
    (ofTarget_serves Target.riscv64 0x80001000 gibibyte).2 rfl⟩

end RuntimeTargets.Candidates
