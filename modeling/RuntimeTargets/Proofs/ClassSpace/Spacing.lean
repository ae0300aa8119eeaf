import RuntimeTargets.Proofs.ClassSpace.Candidates

/-!
# How far apart candidates lie

From `zeroBasedLimit` on every base costs the same, and a walk should not spend
many steps there.  It takes up a long stride where it stands on that limit, and
nowhere else: a walk that starts beyond it keeps the stride it was given.  So
whether candidates spread out depends on the request, and the exact condition is
stated here.
-/

namespace RuntimeTargets.Candidates

open ClassSpace

variable {c rest : Candidates} {address later : Word} {alignment requested size : Word}

/-! ## Neighbours -/

theorem answer_zero_of_advance (hadvance : c.advance = (some address, rest)) :
    c.answer 0 = some address := by
  rw [answer, hadvance]

theorem answer_succ_of_advance (hadvance : c.advance = (some address, rest)) (index : ℕ) :
    c.answer (index + 1) = rest.answer index := by
  rw [answer, hadvance]

theorem mem_toList_of_answer {index : ℕ} (hanswer : c.answer index = some address) :
    address ∈ c.toList := by
  rw [answer_eq_getElem?] at hanswer
  exact List.mem_of_getElem? hanswer

/-- Two addresses of a walk that follow each other are one stride apart, the one
in force at the second. -/
theorem Walks.toNat_answer_succ {start : ℕ} (h : Walks alignment.toNat start c)
    (hpower : Word.IsPowerOfTwo alignment) {index : ℕ}
    (haddress : c.answer index = some address) (hlater : c.answer (index + 1) = some later) :
    later.toNat = address.toNat + grid alignment.toNat start later.toNat := by
  induction index generalizing c with
  | zero =>
      have hposition : c.position.toNat < 2 ^ 40 := by
        by_contra hend
        rw [answer, h.advance_of_le (Nat.le_of_not_lt hend)] at haddress
        cases haddress
      have hadvance := h.advance_of_lt hpower hposition
      rw [answer_zero_of_advance hadvance] at haddress
      cases haddress
      have hmoved := h.moved hpower hposition
      have hwithin : c.moved.position.toNat < 2 ^ 40 := by
        by_contra hend
        rw [answer_succ_of_advance hadvance, answer,
          hmoved.advance_of_le (Nat.le_of_not_lt hend)] at hlater
        cases hlater
      rw [answer_succ_of_advance hadvance,
        answer_zero_of_advance (hmoved.advance_of_lt hpower hwithin)] at hlater
      cases hlater
      obtain ⟨hlt, hle⟩ := h.moved_position hpower hposition
      rw [← h.nextStride_eq_grid hpower hposition hlt hle]
      have hexact := c.toNat_position_moved
      omega
  | succ index ih =>
      have hposition : c.position.toNat < 2 ^ 40 := by
        by_contra hend
        have hnone : c.answer 0 = none := by
          rw [answer, h.advance_of_le (Nat.le_of_not_lt hend)]
        rw [answer_none_of_le (Nat.zero_le _) hnone] at haddress
        cases haddress
      have hadvance := h.advance_of_lt hpower hposition
      rw [answer_succ_of_advance hadvance] at haddress hlater
      exact ih (h.moved hpower hposition) haddress hlater

theorem Begins.walks_of_no_detour (h : c.Begins alignment requested size)
    (hdetour : c.detour = none) : Walks alignment.toNat c.position.toNat c := by
  have hwalk : { c with detour := none } = c := by rw [← hdetour]
  exact hwalk ▸ h.walks

/-- Beyond the reach of a zero base only the walk is left. -/
theorem Begins.toNat_answer_succ (h : c.Begins alignment requested size)
    (hpower : Word.IsPowerOfTwo alignment) {index : ℕ}
    (haddress : c.answer index = some address) (hlater : c.answer (index + 1) = some later)
    (hhigh : 2 ^ 35 ≤ address.toNat) :
    later.toNat = address.toNat + grid alignment.toNat c.position.toNat later.toNat := by
  cases hdetour : c.detour with
  | none => exact (h.walks_of_no_detour hdetour).toNat_answer_succ hpower haddress hlater
  | some first =>
      have hadvance := advance_detour hdetour
      cases index with
      | zero =>
          rw [answer_zero_of_advance hadvance] at haddress
          cases haddress
          obtain ⟨rfl, hlow, -⟩ := (h.detour_some address).1 hdetour
          rw [IsLow] at hlow
          omega
      | succ index =>
          rw [answer_succ_of_advance hadvance] at haddress hlater
          exact h.walks.toNat_answer_succ hpower haddress hlater

/-! ## Candidates that spread out -/

/-- From `zeroBasedLimit` on, the later address lies at least `unscaledLimit` past
the other. -/
def Apart (address later : Word) : Prop :=
  2 ^ 35 ≤ address.toNat → address.toNat + 2 ^ 32 ≤ later.toNat

instance : Trans Apart Apart Apart where
  trans {x y z} hxy hyz hx := by
    have hy := hxy hx
    have hz := hyz (by omega)
    omega

/-- Candidates that follow each other lie apart. -/
def SpreadsOut (c : Candidates) : Prop :=
  ∀ (index : ℕ) (address later : Word), c.answer index = some address →
    c.answer (index + 1) = some later → Apart address later

/-- The walk comes by `zeroBasedLimit`, or its stride is long from the start, or
there are fewer than two addresses for it. -/
def MustSpread (alignment requested : Word) : Prop :=
  requested.toNat ≤ 2 ^ 35 ∨ 2 ^ 32 ≤ alignment.toNat ∨
    2 ^ 40 < requested.toNat + 2 * alignment.toNat

theorem Begins.requested_le_position (h : c.Begins alignment requested size)
    (hwithin : c.position.toNat < 2 ^ 40) : requested.toNat ≤ c.position.toNat := by
  have hgrid := h.walks.dvd hwithin
  rw [grid_self] at hgrid
  exact (h.position_le_iff _ hgrid hwithin).1 le_rfl

section Spread

variable (h : c.Begins alignment requested size) (hpower : Word.IsPowerOfTwo alignment)
include h hpower

theorem Begins.spreadsOut (hmust : MustSpread alignment requested) : c.SpreadsOut := by
  intro index address later haddress hlater hhigh
  have hstep := h.toNat_answer_succ hpower haddress hlater hhigh
  have hstride : alignment.toNat ≤ grid alignment.toNat c.position.toNat later.toNat :=
    Nat.le_of_dvd (grid_pos hpower) (dvd_grid hpower)
  have hpos := Nat.pos_of_isPowerOfTwo hpower
  by_cases hlong : 2 ^ 32 ≤ alignment.toNat
  · omega
  obtain hrequested | hlong' | hfew := hmust
  · have hlimit : alignment.toNat ∣ 2 ^ 35 :=
      Alignment.dvd_of_isPowerOfTwo hpower ⟨35, rfl⟩ (by omega)
    have hstart : c.position.toNat ≤ 2 ^ 35 :=
      (h.position_le_iff _ hlimit (by decide)).2 hrequested
    rw [grid_of_lt hstart (by omega)] at hstep
    omega
  · exact absurd hlong' hlong
  · -- Two candidates would have to lie within one stride of the end of the search.
    exfalso
    have hserves := h.serves hpower
    obtain ⟨hfirst, -⟩ := hserves.bounded address (mem_toList_of_answer haddress)
    obtain ⟨-, hwithin⟩ := hserves.bounded later (mem_toList_of_answer hlater)
    obtain haligned | ⟨-, -, hlow⟩ := hserves.aligned later (mem_toList_of_answer hlater)
    · have hend : alignment.toNat ∣ 2 ^ 40 :=
        Alignment.dvd_of_isPowerOfTwo hpower ⟨40, rfl⟩ (by omega)
      have hroom := add_le_of_dvd haligned hend hwithin
      omega
    · omega

/-- Otherwise the first two candidates are only the alignment apart. -/
theorem Begins.mustSpread (hspreads : c.SpreadsOut) : MustSpread alignment requested := by
  by_contra hclose
  simp only [MustSpread, not_or, not_le, not_lt] at hclose
  obtain ⟨hrequested, hshort, hroom⟩ := hclose
  have hpos := Nat.pos_of_isPowerOfTwo hpower
  have hend : alignment.toNat ∣ 2 ^ 40 :=
    Alignment.dvd_of_isPowerOfTwo hpower ⟨40, rfl⟩ (by omega)
  have hstart : c.position.toNat ≤ 2 ^ 40 - 2 * alignment.toNat :=
    (h.position_le_iff _ (Nat.dvd_sub hend (Nat.dvd_mul_left _ _)) (by omega)).2 (by omega)
  have hposition : c.position.toNat < 2 ^ 40 := by omega
  have hhigh := h.requested_le_position hposition
  have hdetour : c.detour = none := by
    rw [Option.eq_none_iff_forall_ne_some]
    intro first hfirst
    obtain ⟨-, hlow, -⟩ := (h.detour_some first).1 hfirst
    rw [IsLow] at hlow
    omega
  have hwalks := h.walks_of_no_detour hdetour
  have hstride : c.nextStride.toNat = alignment.toNat := by
    rw [hwalks.toNat_nextStride, if_neg (by omega), grid_self]
  have hmoved := c.toNat_position_moved
  have hfirst := hwalks.advance_of_lt hpower hposition
  have hsecond := (hwalks.moved hpower hposition).advance_of_lt hpower (by omega)
  have hlater : c.answer 1 = some c.moved.position := by
    rw [answer_succ_of_advance hfirst, answer_zero_of_advance hsecond]
  have hapart := hspreads 0 c.position c.moved.position (answer_zero_of_advance hfirst)
    hlater (by omega)
  omega

end Spread

/-! ## How many there are -/

/-- Addresses that keep a distance from each other and from the end have room for
only so many of them. -/
theorem length_mul_le_of_pairwise {low high distance : ℕ} {addresses : List Word}
    (hapart : addresses.Pairwise fun x y => x.toNat + distance ≤ y.toNat)
    (hlow : ∀ x ∈ addresses, low ≤ x.toNat)
    (hhigh : ∀ x ∈ addresses, x.toNat + distance ≤ high) :
    addresses.length * distance ≤ high - low := by
  induction addresses generalizing low with
  | nil => simp
  | cons first others ih =>
      obtain ⟨hfirst, hothers⟩ := List.pairwise_cons.1 hapart
      have hroom := ih hothers hfirst fun x hx => hhigh x (List.mem_cons_of_mem _ hx)
      have hstart := hlow first List.mem_cons_self
      have hend := hhigh first List.mem_cons_self
      rw [List.length_cons, Nat.succ_mul]
      omega

/-- The distance between neighbours is one between any two. -/
theorem SpreadsOut.pairwise (hspreads : c.SpreadsOut) : c.toList.Pairwise Apart := by
  rw [← List.isChain_iff_pairwise, List.isChain_iff_getElem]
  intro index hindex
  apply hspreads index <;> rw [answer_eq_getElem?, List.getElem?_eq_getElem]

theorem SpreadsOut.length_le (hspreads : c.SpreadsOut)
    (hbounded : ∀ address ∈ c.toList, address.toNat < 2 ^ 40) :
    (c.toList.filter (zeroBasedLimit ≤ ·)).length ≤ 248 := by
  have hhigh : ∀ x ∈ c.toList.filter (zeroBasedLimit ≤ ·),
      2 ^ 35 ≤ x.toNat ∧ x.toNat < 2 ^ 40 := by
    intro x hx
    obtain ⟨hmem, hlimit⟩ := List.mem_filter.1 hx
    exact ⟨of_decide_eq_true hlimit, hbounded x hmem⟩
  have hapart : (c.toList.filter (zeroBasedLimit ≤ ·)).Pairwise fun x y =>
      x.toNat + 2 ^ 32 ≤ y.toNat :=
    (hspreads.pairwise.filter _).imp_of_mem fun hx _ hxy => hxy (hhigh _ hx).1
  have hroom : ∀ x ∈ c.toList.filter (zeroBasedLimit ≤ ·),
      x.toNat + 2 ^ 32 ≤ 2 ^ 40 + 2 ^ 32 - 1 := by
    intro x hx
    have hend := (hhigh x hx).2
    omega
  have hcount := length_mul_le_of_pairwise hapart (fun x hx => (hhigh x hx).1) hroom
  omega

/-- Candidates spread out for exactly the requests that leave the walk no other
choice, and then there are few of them beyond the reach of a zero base. -/
theorem ofTarget_spreadsOut_iff {t : Target} (ht : t.Sound)
    (halignment : t.classSpaceAlignment = some alignment) (requested size : Word) :
    ∃ c, ofTarget t requested size = .ok c ∧
      (c.SpreadsOut ↔ MustSpread alignment requested) ∧
      (MustSpread alignment requested →
        (c.toList.filter (zeroBasedLimit ≤ ·)).length ≤ 248) := by
  have hpower := ht.isPowerOfTwo_classSpaceAlignment halignment
  obtain ⟨c, hc, hbegins⟩ := ofTarget_of_some requested size hpower halignment
  have hbounded := (hbegins.serves hpower).bounded
  refine ⟨c, hc, ⟨hbegins.mustSpread hpower, hbegins.spreadsOut hpower⟩, ?_⟩
  intro hmust
  exact (hbegins.spreadsOut hpower hmust).length_le fun address hmem => (hbounded address hmem).2

/-- A walk that starts just below the limit. -/
theorem ofTarget_spreadsOut_iff_below : MustSpread gibibyte (31 * gibibyte) ∧
    ∃ c, ofTarget Target.mips64 (31 * gibibyte) gibibyte = .ok c ∧
      (c.SpreadsOut ↔ MustSpread gibibyte (31 * gibibyte)) ∧
      (MustSpread gibibyte (31 * gibibyte) →
        (c.toList.filter (zeroBasedLimit ≤ ·)).length ≤ 248) :=
  ⟨Or.inl (by decide),
    ofTarget_spreadsOut_iff (Target.sound_of_mem_all _ (by simp [Target.all])) rfl _ _⟩

/-- One that starts just above it goes on in short steps. -/
theorem exists_request_not_spreadsOut :
    ¬ ∀ (t : Target) (alignment requested size : Word), t.Sound →
      t.classSpaceAlignment = some alignment →
      ∃ c, ofTarget t requested size = .ok c ∧ c.SpreadsOut := by
  intro hall
  have hsound : Target.mips64.Sound := Target.sound_of_mem_all _ (by simp [Target.all])
  obtain ⟨c, hc, hspreads⟩ :=
    hall Target.mips64 gibibyte (33 * gibibyte) gibibyte hsound rfl
  have hstart : ofTarget Target.mips64 (33 * gibibyte) gibibyte =
      .ok ⟨none, 33 * gibibyte, gibibyte⟩ := by decide
  rw [hstart] at hc
  cases hc
  have hapart := hspreads 0 (33 * gibibyte) (34 * gibibyte) (by decide) (by decide) (by decide)
  exact absurd hapart (by decide)

end RuntimeTargets.Candidates
