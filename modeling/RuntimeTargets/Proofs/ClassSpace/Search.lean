import RuntimeTargets.ClassSpace.Placement
import RuntimeTargets.Target.Catalog
import RuntimeTargets.Proofs.ClassSpace.Candidates

/-!
# The search takes the first candidate that it can

Seen from the list of its candidates, a search is a recursion on that list.
Against a routine that answers by the address alone it takes the first free
address, which is the least one since candidates ascend; and since the candidates
leave out no cheap address, the encoding it returns is as cheap as any free
address allows.
-/

namespace RuntimeTargets.ClassSpace

variable {σ : Type}

/-! ## Search on a list -/

/-- `search` over addresses that are written down. -/
def searchList (reserve : Reserve σ) (size : Word) :
    List Word → σ → Checked (Option ClassEncoding × σ)
  | [], state => .ok (none, state)
  | address :: addresses, state =>
    match ClassEncoding.ofSpace address size with
    | .error fault => .error fault
    | .ok none => searchList reserve size addresses state
    | .ok (some encoding) =>
      match reserve state address size with
      | (true, state) => .ok (some encoding, state)
      | (false, state) => searchList reserve size addresses state

section Step

variable {reserve : Reserve σ} {size address : Word} {e : ClassEncoding} {state next : σ}

theorem searchList_skip (hnone : ClassEncoding.ofSpace address size = .ok none)
    (addresses : List Word) (state : σ) :
    searchList reserve size (address :: addresses) state =
      searchList reserve size addresses state := by
  rw [searchList, hnone]

theorem searchList_take (he : ClassEncoding.ofSpace address size = .ok (some e))
    (htake : reserve state address size = (true, next)) (addresses : List Word) :
    searchList reserve size (address :: addresses) state = .ok (some e, next) := by
  simp only [searchList, he, htake]

theorem searchList_decline (he : ClassEncoding.ofSpace address size = .ok (some e))
    (hdecline : reserve state address size = (false, next)) (addresses : List Word) :
    searchList reserve size (address :: addresses) state =
      searchList reserve size addresses next := by
  simp only [searchList, he, hdecline]

end Step

theorem search_of_advance_none (reserve : Reserve σ) (size : Word) {c rest : Candidates}
    (hadvance : c.advance = (none, rest)) (state : σ) :
    search reserve size c state = .ok (none, state) := by
  rw [search]
  split
  · rfl
  · rename_i hsome
    rw [hadvance] at hsome
    cases hsome

theorem search_of_advance_some (reserve : Reserve σ) (size : Word) {c rest : Candidates}
    {address : Word} (hadvance : c.advance = (some address, rest)) (state : σ) :
    search reserve size c state =
      match ClassEncoding.ofSpace address size with
      | .error fault => .error fault
      | .ok none => search reserve size rest state
      | .ok (some encoding) =>
        match reserve state address size with
        | (true, state) => .ok (some encoding, state)
        | (false, state) => search reserve size rest state := by
  rw [search]
  split
  · rename_i hnone
    rw [hadvance] at hnone
    cases hnone
  · rename_i hsome
    rw [hadvance] at hsome
    cases hsome
    rfl

theorem search_eq_searchList (reserve : Reserve σ) (size : Word) (c : Candidates)
    (state : σ) : search reserve size c state = searchList reserve size c.toList state := by
  induction c using Candidates.toList.induct generalizing state with
  | case1 c rest hadvance =>
      rw [search_of_advance_none reserve size hadvance,
        Candidates.toList_of_advance_none hadvance, searchList]
  | case2 c address rest hadvance ih =>
      rw [search_of_advance_some reserve size hadvance,
        Candidates.toList_of_advance_some hadvance, searchList]
      simp only [ih]

/-! ## Routines that answer by the address -/

/-- The routine takes a range exactly if its address is free. -/
def AnswersBy (reserve : Reserve σ) (size : Word) (free : Word → Bool) : Prop :=
  ∀ state address, (reserve state address size).1 = free address

theorem AnswersBy.recording {reserve : Reserve σ} {size : Word} {free : Word → Bool}
    (h : AnswersBy reserve size free) : AnswersBy reserve.recording size free := by
  intro state address
  exact h state.1 address

/-! ## The least free address -/

/-- The least of the addresses that are free. -/
structure IsLeastFree (addresses : List Word) (free : Word → Bool) (address : Word) :
    Prop where
  mem : address ∈ addresses
  free_eq : free address = true
  le : ∀ other ∈ addresses, free other = true → address ≤ other

theorem isLeastFree_head {free : Word → Bool} {address : Word} {addresses : List Word}
    (hascending : (address :: addresses).Pairwise (· < ·)) (hfree : free address = true) :
    IsLeastFree (address :: addresses) free address where
  mem := List.mem_cons_self
  free_eq := hfree
  le other hother _ := by
    rcases List.mem_cons.1 hother with rfl | hlater
    · exact UInt64.le_refl _
    · exact UInt64.le_of_lt ((List.pairwise_cons.1 hascending).1 other hlater)

theorem IsLeastFree.cons {free : Word → Bool} {address found : Word}
    {addresses : List Word} (h : IsLeastFree addresses free found)
    (hrefused : free address = false) : IsLeastFree (address :: addresses) free found where
  mem := List.mem_cons_of_mem _ h.mem
  free_eq := h.free_eq
  le other hother hfree := by
    rcases List.mem_cons.1 hother with rfl | hlater
    · rw [hrefused] at hfree
      cases hfree
    · exact h.le other hlater hfree

/-- The encoding of the least free address, or none where no address is free. -/
inductive TakesLeast (addresses : List Word) (size : Word) (free : Word → Bool) :
    Option ClassEncoding → Prop where
  | taken {address : Word} {e : ClassEncoding}
      (least : IsLeastFree addresses free address)
      (encoded : ClassEncoding.ofSpace address size = .ok (some e)) :
      TakesLeast addresses size free (some e)
  | nothing (refused : ∀ address ∈ addresses, free address = false) :
      TakesLeast addresses size free none

theorem TakesLeast.cons {size : Word} {free : Word → Bool} {address : Word}
    {addresses : List Word} {encoding : Option ClassEncoding}
    (h : TakesLeast addresses size free encoding) (hrefused : free address = false) :
    TakesLeast (address :: addresses) size free encoding := by
  cases h with
  | taken least encoded => exact .taken (least.cons hrefused) encoded
  | nothing refused => exact .nothing (List.forall_mem_cons.2 ⟨hrefused, refused⟩)

/-- Where the addresses ascend and all of them fit, the least free one is taken. -/
theorem searchList_takesLeast {reserve : Reserve σ} {size : Word} {free : Word → Bool}
    (hanswers : AnswersBy reserve size free) {addresses : List Word}
    (hascending : addresses.Pairwise (· < ·))
    (hfits : ∀ address ∈ addresses, Fits address size) (state : σ) :
    ∃ encoding final, searchList reserve size addresses state = .ok (encoding, final) ∧
      TakesLeast addresses size free encoding := by
  induction addresses generalizing state with
  | nil => exact ⟨none, state, rfl, .nothing (by simp)⟩
  | cons address addresses ih =>
      obtain ⟨hfit, hfits⟩ := List.forall_mem_cons.1 hfits
      obtain ⟨e, he, -⟩ := ClassEncoding.ofSpace_of_fits hfit
      have hanswer := hanswers state address
      rcases hreserve : reserve state address size with ⟨taken, next⟩
      rw [hreserve] at hanswer
      cases taken with
      | true =>
          exact ⟨some e, next, searchList_take he hreserve addresses,
            .taken (isLeastFree_head hascending hanswer.symm) he⟩
      | false =>
          obtain ⟨encoding, final, hsearch, htakes⟩ :=
            ih (List.pairwise_cons.1 hascending).2 hfits next
          refine ⟨encoding, final, ?_, htakes.cons hanswer.symm⟩
          rw [searchList_decline he hreserve, hsearch]

/-! ## Cheap encodings -/

/-- A space needs neither base nor scale below `unscaledLimit`, and no base up to
`zeroBasedLimit`. -/
theorem base_and_shift_eq_zero {e : ClassEncoding} {address size : Word}
    (he : ClassEncoding.ofSpace address size = .ok (some e))
    (hlow : address.toNat + size.toNat < 2 ^ 32) : e.base = 0 ∧ e.shift = 0 := by
  have hdescribes := (ClassEncoding.ofSpace_eq_some he).2
  have hbase := hdescribes.base_eq
  have hstop := hdescribes.stop_eq
  have hshift := hdescribes.shift_eq
  rw [if_pos (by omega)] at hbase
  rw [if_pos (by omega)] at hshift
  exact ⟨UInt64.toNat_inj.1 hbase, UInt64.toNat_inj.1 hshift⟩

theorem isZeroBased_of_le {e : ClassEncoding} {address size : Word}
    (he : ClassEncoding.ofSpace address size = .ok (some e))
    (hlow : address.toNat + size.toNat ≤ 2 ^ 35) : e.IsZeroBased := by
  have hbase := (ClassEncoding.ofSpace_eq_some he).2.base_eq
  rw [if_pos hlow] at hbase
  exact UInt64.toNat_inj.1 hbase

/-- The best that can be had for `size` bytes among addresses some of which are
free: the encoding of the least of them, and hence a cheap one if there is any. -/
structure IsBest (candidates : List Word) (alignment requested size : Word)
    (free : Word → Bool) (encoding : Option ClassEncoding) : Prop where
  least : TakesLeast candidates size free encoding
  unscaled : ∀ address : Word, alignment.toNat ∣ address.toNat →
    requested.toNat ≤ address.toNat → free address = true →
    address.toNat + size.toNat < 2 ^ 32 →
    ∃ e, encoding = some e ∧ e.base = 0 ∧ e.shift = 0
  zeroBased : ∀ address : Word, alignment.toNat ∣ address.toNat →
    requested.toNat ≤ address.toNat → free address = true →
    address.toNat + size.toNat ≤ 2 ^ 35 → ∃ e, encoding = some e ∧ e.IsZeroBased
  exhausted : encoding = none → ∀ address : Word,
    max alignment.toNat (2 ^ 32) ∣ address.toNat → requested.toNat ≤ address.toNat →
    address.toNat < 2 ^ 40 → free address = false

/-- A free candidate bounds the address of the encoding that is taken. -/
theorem TakesLeast.exists_le {addresses : List Word} {size : Word} {free : Word → Bool}
    {encoding : Option ClassEncoding} (h : TakesLeast addresses size free encoding)
    {address : Word} (hmem : address ∈ addresses) (hfree : free address = true) :
    ∃ taken e, taken.toNat ≤ address.toNat ∧
      ClassEncoding.ofSpace taken size = .ok (some e) ∧ encoding = some e := by
  cases h with
  | taken least encoded =>
      exact ⟨_, _, UInt64.le_iff_toNat_le.1 (least.le address hmem hfree), encoded, rfl⟩
  | nothing refused =>
      rw [refused address hmem] at hfree
      cases hfree

theorem TakesLeast.isBest {c : Candidates} {alignment requested size : Word}
    {free : Word → Bool} {encoding : Option ClassEncoding}
    (h : TakesLeast c.toList size free encoding)
    (hserves : c.Serves alignment requested size) (hpos : 0 < size.toNat) :
    IsBest c.toList alignment requested size free encoding where
  least := h
  unscaled address hdvd hle hfree hlow := by
    have hmem := hserves.complete_zeroBased address hdvd hle (by omega)
    obtain ⟨taken, e, htaken, he, hencoding⟩ := h.exists_le hmem hfree
    exact ⟨e, hencoding, base_and_shift_eq_zero he (by omega)⟩
  zeroBased address hdvd hle hfree hlow := by
    have hmem := hserves.complete_zeroBased address hdvd hle (by omega)
    obtain ⟨taken, e, htaken, he, hencoding⟩ := h.exists_le hmem hfree
    exact ⟨e, hencoding, isZeroBased_of_le he (by omega)⟩
  exhausted hnone address hdvd hle hwithin := by
    have hmem := hserves.complete address hdvd hle hwithin
    by_contra hfree
    obtain ⟨taken, e, -, -, hencoding⟩ :=
      h.exists_le hmem (Bool.eq_true_of_not_eq_false hfree)
    rw [hnone] at hencoding
    cases hencoding

/-! ## Placement -/

/-- A placement is its search, with the offers in the order in which they were
made. -/
theorem place_eq_of_search {t : Target} {requested size : Word} {reserve : Reserve σ}
    {state final : σ} {c : Candidates} {encoding : Option ClassEncoding}
    {made : List Offer} (hsize : Encodable size)
    (hc : Candidates.ofTarget t requested size = .ok c)
    (hsearch : search reserve.recording size c (state, []) = .ok (encoding, final, made)) :
    place t requested size reserve state = .ok
      { encoding
        state := final
        offers := made.reverse
        journal := made.reverse.map (offerEntry t.name) } := by
  rw [place, if_pos hsize, hc]
  simp only [bind, Except.bind, hsearch]
  rfl

theorem place_of_search {t : Target} {requested size : Word} {reserve : Reserve σ}
    {state : σ} {c : Candidates} {encoding : Option ClassEncoding}
    {final : σ × List Offer} (hsize : Encodable size)
    (hc : Candidates.ofTarget t requested size = .ok c)
    (hsearch : search reserve.recording size c (state, []) = .ok (encoding, final)) :
    ∃ p, place t requested size reserve state = .ok p ∧ p.encoding = encoding :=
  ⟨_, place_eq_of_search hsize hc hsearch, rfl⟩

/-- On a sound target that prefers an alignment, a placement against a routine
that answers by the address alone is the best one that the free addresses allow. -/
theorem place_isBest {t : Target} (hsound : t.Sound) {alignment : Word}
    (halignment : t.classSpaceAlignment = some alignment) (requested : Word)
    {size : Word} (hpos : 0 < size.toNat) (hle : size.toNat ≤ 2 ^ 35)
    (free : Word → Bool) {reserve : Reserve σ} (hanswers : AnswersBy reserve size free)
    (state : σ) :
    ∃ c p, Candidates.ofTarget t requested size = .ok c ∧
      place t requested size reserve state = .ok p ∧
      IsBest c.toList alignment requested size free p.encoding := by
  have hsize : Encodable size := encodable_iff.2 ⟨hpos, hle⟩
  have hpower := hsound.isPowerOfTwo_classSpaceAlignment halignment
  obtain ⟨c, hc, hbegins⟩ := Candidates.ofTarget_of_some requested size hpower halignment
  have hserves := hbegins.serves hpower
  have hfits : ∀ address ∈ c.toList, Fits address size := by
    intro address hmem
    have hbounded := hserves.bounded address hmem
    exact ⟨hpos, hle, by omega⟩
  obtain ⟨encoding, final, hsearch, htakes⟩ :=
    searchList_takesLeast hanswers.recording hserves.ascending hfits (state, [])
  rw [← search_eq_searchList] at hsearch
  obtain ⟨p, hp, rfl⟩ := place_of_search hsize hc hsearch
  exact ⟨c, p, hc, hp, htakes.isBest hserves hpos⟩

/-- An unaligned request for a low space where only the addresses from eight
gibibytes on are free. -/
theorem place_isBest_mips64 :
    ∃ c p, Candidates.ofTarget Target.mips64 0x80001000 gibibyte = .ok c ∧
      place Target.mips64 0x80001000 gibibyte
        (fun (_ : Unit) address _ => (decide (0x200000000 ≤ address), ())) () = .ok p ∧
      IsBest c.toList gibibyte 0x80001000 gibibyte
        (fun address => decide (0x200000000 ≤ address)) p.encoding :=
  place_isBest (Target.sound_of_mem_all _ (by simp [Target.all])) rfl 0x80001000
    (by decide) (by decide) _ (fun _ _ => rfl) ()

end RuntimeTargets.ClassSpace
