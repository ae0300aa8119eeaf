import RuntimeTargets.ClassSpace.AddressSpace
import RuntimeTargets.Proofs.ClassSpace.Coverage
import RuntimeTargets.Proofs.ClassSpace.Search

/-!
# The offers of a placement

A reservation routine answers from a state that its earlier answers may have
changed, so nothing is known of an answer but that it was given.  Against every
such routine a placement is the same walk: it makes the offers that have an
encoding, in the order of the candidates, and stops at the first one that is
taken.  `Answers` ties the recorded offers to the routine, `Concludes` ties them
to the candidates.  Whatever space a routine takes, its class structures are then
covered by the encoding, as long as the target aligns class spaces at all.
-/

namespace RuntimeTargets

variable {σ : Type}

/-- Asked for these offers one after another, starting in the first state, the
routine answers each of them as recorded and is left in the last state. -/
inductive Reserve.Answers (reserve : Reserve σ) : σ → List Offer → σ → Prop where
  | nil (state : σ) : Reserve.Answers reserve state [] state
  | cons {state next final : σ} {address size : Word} {taken : Bool} {offers : List Offer}
      (answer : reserve state address size = (taken, next))
      (later : Reserve.Answers reserve next offers final) :
      Reserve.Answers reserve state (⟨address, size, taken⟩ :: offers) final

namespace ClassSpace

variable {address size : Word} {addresses : List Word} {offers : List Offer}
variable {encoding : Option ClassEncoding}

/-! ## Spaces that have an encoding -/

def HasEncoding (size address : Word) : Prop :=
  ∃ e, ClassEncoding.ofSpace address size = .ok (some e)

theorem hasEncoding_iff : HasEncoding size address ↔
    Encodable size ∧ address.toNat + size.toNat < 2 ^ 64 := by
  rw [encodable_iff, and_assoc]
  constructor
  · rintro ⟨e, he⟩
    exact (ClassEncoding.ofSpace_eq_some he).1
  · intro hfits
    obtain ⟨e, he, -⟩ := ClassEncoding.ofSpace_of_fits hfits
    exact ⟨e, he⟩

instance (size address : Word) : Decidable (HasEncoding size address) :=
  decidable_of_iff _ hasEncoding_iff.symm

theorem ofSpace_of_not_hasEncoding (hnone : ¬ HasEncoding size address) :
    ClassEncoding.ofSpace address size = .ok none := by
  apply ClassEncoding.ofSpace_of_not_fits
  intro hfits
  obtain ⟨e, he, -⟩ := ClassEncoding.ofSpace_of_fits hfits
  exact hnone ⟨e, he⟩

/-! ## One search -/

/-- The addresses are offered in their order until one is taken.  The encoding is
that of the address taken, and there is none where all were declined. -/
inductive Concludes (size : Word) (addresses : List Word) :
    List Offer → Option ClassEncoding → Prop where
  | taken {before after : List Word} {address : Word} {e : ClassEncoding}
      (split : addresses = before ++ address :: after)
      (encoded : ClassEncoding.ofSpace address size = .ok (some e)) :
      Concludes size addresses
        (before.map (⟨·, size, false⟩) ++ [⟨address, size, true⟩]) (some e)
  | declined : Concludes size addresses (addresses.map (⟨·, size, false⟩)) none

namespace Concludes

/-- One more address is declined before. -/
theorem cons (h : Concludes size addresses offers encoding) (address : Word) :
    Concludes size (address :: addresses) (⟨address, size, false⟩ :: offers)
      encoding := by
  cases h with
  | @taken before after start e split encoded =>
      have hsplit : address :: addresses = (address :: before) ++ start :: after :=
        congrArg (address :: ·) split
      exact .taken hsplit encoded
  | declined => exact .declined

/-- Something is offered if there is anything to offer. -/
theorem offers_ne_nil (h : Concludes size addresses offers encoding)
    (hne : addresses ≠ []) : offers ≠ [] := by
  cases h with
  | taken split encoded => simp
  | declined => simpa using hne

end Concludes

theorem recording_eq {reserve : Reserve σ} {state next : σ} {taken : Bool}
    (hanswer : reserve state address size = (taken, next)) (made : List Offer) :
    reserve.recording (state, made) address size =
      (taken, next, ⟨address, size, taken⟩ :: made) := by
  rw [Reserve.recording, hanswer]

/-- The offers made before stay at the end of the record, the new ones come on top
of them, the latest first. -/
theorem searchList_recording (reserve : Reserve σ) (size : Word)
    (addresses : List Word) (state : σ) (made : List Offer) :
    ∃ offers encoding final,
      searchList reserve.recording size addresses (state, made) =
        .ok (encoding, final, offers.reverse ++ made) ∧
      reserve.Answers state offers final ∧
      Concludes size (addresses.filter (HasEncoding size)) offers encoding := by
  induction addresses generalizing state made with
  | nil => exact ⟨[], none, state, rfl, .nil state, .declined⟩
  | cons address addresses ih =>
      by_cases hencoding : HasEncoding size address
      · rw [List.filter_cons_of_pos (by simpa using hencoding)]
        obtain ⟨e, he⟩ := hencoding
        rcases hreserve : reserve state address size with ⟨taken, next⟩
        have hrecord := recording_eq hreserve made
        cases taken with
        | true =>
            exact ⟨[⟨address, size, true⟩], some e, next,
              searchList_take he hrecord addresses, .cons hreserve (.nil next),
              .taken (List.nil_append _).symm he⟩
        | false =>
            obtain ⟨offers, encoding, final, hsearch, hanswers, hconcludes⟩ :=
              ih next (⟨address, size, false⟩ :: made)
            refine ⟨⟨address, size, false⟩ :: offers, encoding, final, ?_,
              .cons hreserve hanswers, hconcludes.cons address⟩
            rw [searchList_decline he hrecord, hsearch, List.reverse_cons,
              List.append_assoc, List.singleton_append]
      -- an address without an encoding is passed over: the routine is not asked
      · rw [List.filter_cons_of_neg (by simpa using hencoding)]
        obtain ⟨offers, encoding, final, hsearch, hrest⟩ := ih state made
        refine ⟨offers, encoding, final, ?_, hrest⟩
        rw [searchList_skip (ofSpace_of_not_hasEncoding hencoding), hsearch]

/-! ## Placement -/

theorem place_of_not_encodable {t : Target} {requested : Word} {reserve : Reserve σ}
    {state : σ} (hsize : ¬ Encodable size) :
    place t requested size reserve state = .ok
      { encoding := none, state, offers := [], journal := [sizeEntry t.name size] } :=
  if_neg hsize

/-- A placement on a sound target comes to an end, whatever the routine answers. -/
theorem exists_place {t : Target} (ht : t.Sound) (requested : Word)
    (hsize : Encodable size) (reserve : Reserve σ) (state : σ) :
    ∃ c p, Candidates.ofTarget t requested size = .ok c ∧
      place t requested size reserve state = .ok p ∧
      reserve.Answers state p.offers p.state ∧
      Concludes size (c.toList.filter (HasEncoding size)) p.offers p.encoding := by
  obtain ⟨c, hc⟩ := Candidates.exists_ofTarget ht requested size
  obtain ⟨offers, encoding, final, hsearch, hanswers, hconcludes⟩ :=
    searchList_recording reserve size c.toList state []
  rw [← search_eq_searchList, List.append_nil] at hsearch
  have hplace := place_eq_of_search hsize hc hsearch
  rw [List.reverse_reverse] at hplace
  exact ⟨c, _, hc, hplace, hanswers, hconcludes⟩

/-- Placement against an arbitrary routine on a sound target: nothing is offered
for a size that no encoding covers, and for any other size the candidates that have
an encoding are offered in their order until one is taken. -/
theorem place_concludes {t : Target} (ht : t.Sound) (requested size : Word)
    (reserve : Reserve σ) (state : σ) :
    ∃ c p, Candidates.ofTarget t requested size = .ok c ∧
      place t requested size reserve state = .ok p ∧
      reserve.Answers state p.offers p.state ∧
      (size.toNat = 0 ∨ 2 ^ 35 < size.toNat → p.offers = [] ∧ p.encoding = none) ∧
      (0 < size.toNat ∧ size.toNat ≤ 2 ^ 35 →
        Concludes size (c.toList.filter (HasEncoding size)) p.offers p.encoding) := by
  by_cases hsize : Encodable size
  · obtain ⟨c, p, hc, hp, hanswers, hconcludes⟩ :=
      exists_place ht requested hsize reserve state
    refine ⟨c, p, hc, hp, hanswers, ?_, fun _ => hconcludes⟩
    intro hrefused
    have hbounds := encodable_iff.1 hsize
    omega
  · obtain ⟨c, hc⟩ := Candidates.exists_ofTarget ht requested size
    refine ⟨c, _, hc, place_of_not_encodable hsize, .nil state, fun _ => ⟨rfl, rfl⟩, ?_⟩
    intro hbounds
    exact absurd (encodable_iff.2 hbounds) hsize

/-- A routine that declines two offers before it reserves anything, and a size that
is offered to nobody. -/
theorem place_concludes_decliningFirst :
    (∃ c p, Candidates.ofTarget Target.mips64 0x80001000 gibibyte = .ok c ∧
      place Target.mips64 0x80001000 gibibyte AddressSpace.reserve.decliningFirst
        (2, ⟨none, []⟩) = .ok p ∧
      AddressSpace.reserve.decliningFirst.Answers (2, ⟨none, []⟩) p.offers p.state ∧
      Concludes gibibyte (c.toList.filter (HasEncoding gibibyte)) p.offers p.encoding) ∧
    ∃ p, place Target.riscv64 0 (40 * gibibyte) AddressSpace.reserve.decliningFirst
        (2, ⟨none, []⟩) = .ok p ∧ p.offers = [] ∧ p.encoding = none := by
  constructor
  · obtain ⟨c, p, hc, hp, hanswers, -, hconcludes⟩ :=
      place_concludes (Target.sound_of_mem_all Target.mips64 (by simp [Target.all]))
        0x80001000 gibibyte AddressSpace.reserve.decliningFirst (2, ⟨none, []⟩)
    exact ⟨c, p, hc, hp, hanswers, hconcludes (by decide)⟩
  · obtain ⟨-, p, -, hp, -, hrefused, -⟩ :=
      place_concludes (Target.sound_of_mem_all Target.riscv64 (by simp [Target.all]))
        0 (40 * gibibyte) AddressSpace.reserve.decliningFirst (2, ⟨none, []⟩)
    exact ⟨p, hp, hrefused (by decide)⟩

/-! ## The class structures of a placed space -/

/-- An encoding comes from the last offer, which is the only one taken. -/
theorem Concludes.exists_last {e : ClassEncoding}
    (h : Concludes size addresses offers (some e)) :
    ∃ declined start, offers = declined ++ [⟨start, size, true⟩] ∧
      (∀ offer ∈ declined, offer.taken = false) ∧ start ∈ addresses ∧
      ClassEncoding.ofSpace start size = .ok (some e) := by
  cases h with
  | @taken before after start e split encoded =>
      refine ⟨_, start, rfl, ?_, by simp [split], encoded⟩
      intro offer hoffer
      obtain ⟨address, -, rfl⟩ := List.mem_map.1 hoffer
      rfl

/-- The one candidate that need not be aligned is a low request, which gets a zero
base, so no candidate loses the alignment of class structures. -/
theorem keepsAlignment_of_mem_toList {t : Target} (ht : t.Sound) {alignment : Word}
    (halignment : t.classSpaceAlignment = some alignment)
    (hclass : classAlignment ≤ alignment.toNat) {requested start : Word}
    {c : Candidates} (hc : Candidates.ofTarget t requested size = .ok c)
    (hmem : start ∈ c.toList) : KeepsAlignment start size := by
  have hserves := Candidates.serves_of_ofTarget ht halignment hc
  obtain haligned | ⟨rfl, -, hlow⟩ := hserves.aligned start hmem
  · have hunit : classAlignment ∣ alignment.toNat :=
      Alignment.dvd_of_isPowerOfTwo ⟨3, rfl⟩
        (ht.isPowerOfTwo_classSpaceAlignment halignment) hclass
    exact Or.inr (Or.inr (hunit.trans haligned))
  · exact Or.inl (by omega)

/-- Where a sound target aligns class spaces at least as strictly as class
structures, each class structure of a space that was taken can be narrowed and
widened again, wherever the space was requested and whatever the routine answers. -/
theorem place_keeps_classes {t : Target} (ht : t.Sound) {alignment : Word}
    (halignment : t.classSpaceAlignment = some alignment)
    (hclass : classAlignment ≤ alignment.toNat) (requested size : Word)
    (reserve : Reserve σ) (state : σ) :
    ∃ p, place t requested size reserve state = .ok p ∧
      reserve.Answers state p.offers p.state ∧
      ∀ e, p.encoding = some e →
        ∃ declined start, p.offers = declined ++ [⟨start, size, true⟩] ∧
          (∀ offer ∈ declined, offer.taken = false) ∧
          ∀ address, HoldsClass start size address →
            ∃ narrow, e.encode address = .ok (some narrow) ∧
              e.decode narrow = .ok address := by
  by_cases hsize : Encodable size
  · obtain ⟨c, p, hc, hp, hanswers, hconcludes⟩ :=
      exists_place ht requested hsize reserve state
    refine ⟨p, hp, hanswers, ?_⟩
    intro e hencoding
    rw [hencoding] at hconcludes
    obtain ⟨declined, start, hoffers, hdeclined, hmem, he⟩ := hconcludes.exists_last
    refine ⟨declined, start, hoffers, hdeclined, ?_⟩
    have hkeeps : KeepsAlignment start size :=
      keepsAlignment_of_mem_toList ht halignment hclass hc (List.mem_filter.1 hmem).1
    intro address hholds
    exact ClassEncoding.exists_narrow_of_keepsAlignment he hkeeps hholds
  · refine ⟨_, place_of_not_encodable hsize, .nil state, ?_⟩
    intro e hencoding
    cases hencoding

/-- A request that no class structure could start at, taken at once. -/
theorem place_keeps_classes_unaligned :
    ∃ p, place Target.mips64 0x80001004 gibibyte (fun _ _ _ => (true, ())) () = .ok p ∧
      p.offers = [⟨0x80001004, gibibyte, true⟩] ∧ p.encoding = some ⟨0, 0, 0xc0001004⟩ ∧
      ∀ address, HoldsClass 0x80001004 gibibyte address →
        ∃ narrow, ClassEncoding.encode ⟨0, 0, 0xc0001004⟩ address = .ok (some narrow) ∧
          ClassEncoding.decode ⟨0, 0, 0xc0001004⟩ narrow = .ok address := by
  have hc : Candidates.ofTarget Target.mips64 0x80001004 gibibyte =
      .ok ⟨some 0x80001004, 0xc0000000, gibibyte⟩ := by decide
  have hsearch : search (Reserve.recording fun _ _ _ => (true, ())) gibibyte
      ⟨some 0x80001004, 0xc0000000, gibibyte⟩ ((), []) =
        .ok (some ⟨0, 0, 0xc0001004⟩, (), [⟨0x80001004, gibibyte, true⟩]) := by
    have he : ClassEncoding.ofSpace 0x80001004 gibibyte = .ok (some ⟨0, 0, 0xc0001004⟩) := by
      decide
    rw [search_of_advance_some _ _ (Candidates.advance_detour rfl), he]
    rfl
  have hplace := place_eq_of_search (by decide) hc hsearch
  obtain ⟨p, hp, -, hkeeps⟩ :=
    place_keeps_classes (Target.sound_of_mem_all Target.mips64 (by simp [Target.all])) rfl
      (by decide) 0x80001004 gibibyte (fun _ _ _ => (true, ())) ()
  rw [hplace] at hp
  cases hp
  obtain ⟨declined, start, hoffers, -, hclasses⟩ := hkeeps _ rfl
  refine ⟨_, hplace, rfl, rfl, ?_⟩
  obtain rfl : 0x80001004 = start := by simpa using congrArg List.getLast? hoffers
  exact hclasses

end ClassSpace

end RuntimeTargets
