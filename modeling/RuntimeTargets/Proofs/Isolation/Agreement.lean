import RuntimeTargets.Cell
import RuntimeTargets.Stack.Guard
import RuntimeTargets.ClassSpace.Placement
import RuntimeTargets.Proofs.Layout.Resolution
import RuntimeTargets.Proofs.NativeCall.Signature

/-!
# What each consumer reads of a target

A consumer gets the whole target and reads a few of its fields.  Two targets that agree
in those fields get the same results from it, however much they differ otherwise, and
their journals make the same remarks under two names.
-/

namespace RuntimeTargets

variable {t u : Target}

/-! ## Remarks -/

/-- What an entry says, whatever target it is about. -/
structure Remark where
  severity : Severity
  text : String

def Remark.about (name : String) (remark : Remark) : Entry :=
  .about remark.severity name remark.text

/-- The journals make the same remarks, each about the target of one name. -/
def SameRemarks (name other : String) (left right : Journal) : Prop :=
  ∃ remarks : List Remark,
    left = remarks.map (Remark.about name) ∧ right = remarks.map (Remark.about other)

namespace SameRemarks

variable {name other : String} {left right left' right' : Journal}

theorem nil : SameRemarks name other [] [] := ⟨[], rfl, rfl⟩

theorem single (severity : Severity) (text : String) :
    SameRemarks name other [.about severity name text] [.about severity other text] :=
  ⟨[⟨severity, text⟩], rfl, rfl⟩

theorem append (h : SameRemarks name other left right)
    (h' : SameRemarks name other left' right') :
    SameRemarks name other (left ++ left') (right ++ right') := by
  obtain ⟨remarks, rfl, rfl⟩ := h
  obtain ⟨remarks', rfl, rfl⟩ := h'
  exact ⟨remarks ++ remarks', List.map_append.symm, List.map_append.symm⟩

theorem ite (p : Prop) [Decidable p] (h : SameRemarks name other left right) :
    SameRemarks name other (if p then left else []) (if p then right else []) := by
  by_cases hp : p
  · rw [if_pos hp, if_pos hp]
    exact h
  · rw [if_neg hp, if_neg hp]
    exact nil

end SameRemarks

/-- The results are the same, but for the name under which remarks were made. -/
structure Noted.Agree {α : Type} (name other : String) (left right : Noted α) : Prop where
  value_eq : left.value = right.value
  remarks : SameRemarks name other left.journal right.journal

/-! ## Calls -/

/-- The targets call every method in the same way. -/
def CallsAlike (t u : Target) : Prop := ∀ kinds isStatic,
  Noted.Agree t.name u.name (NativeSignature.resolve t kinds isStatic)
    (NativeSignature.resolve u kinds isStatic)

namespace NativeSignature

variable {kinds : List ValueKind} {isStatic : Bool} {s : NativeSignature}

theorem ofKind_congr (hword : t.wordSize = u.wordSize) (hwidens : t.widensInts = u.widensInts) :
    NativeArgument.ofKind t = NativeArgument.ofKind u := by
  funext kind
  simp only [NativeArgument.ofKind, hword, hwidens]

theorem ofMethod_congr (hword : t.wordSize = u.wordSize)
    (hwidens : t.widensInts = u.widensInts) (kinds : List ValueKind) (isStatic : Bool) :
    ofMethod t kinds isStatic = ofMethod u kinds isStatic := by
  simp only [ofMethod, ofKinds, ofKind_congr hword hwidens]

theorem callsAlike (hword : t.wordSize = u.wordSize) (hwidens : t.widensInts = u.widensInts) :
    CallsAlike t u := by
  intro kinds isStatic
  refine ⟨ofMethod_congr hword hwidens kinds isStatic, ?_⟩
  rw [resolve, resolve, ofMethod_congr hword hwidens]
  cases ofMethod u kinds isStatic with
  | error failure => exact .nil
  | ok s => exact .single _ _

end NativeSignature

/-! ## Layouts -/

/-- The same error about a target of another name. -/
def LayoutError.about (name : String) : LayoutError → LayoutError
  | .classPointersRequireCompressedOops _ => .classPointersRequireCompressedOops name
  | .compressedPointersOn32Bit _ => .compressedPointersOn32Bit name
  | .heapTooLargeForCompressedOops heap limit => .heapTooLargeForCompressedOops heap limit
  | .classSpaceTooLarge size most => .classSpaceTooLarge size most

/-- The targets resolve every request in the same way and accept the same layouts. -/
structure LaysOutAlike (t u : Target) : Prop where
  resolve : ∀ request,
    Noted.Agree t.name u.name (Layout.resolve t request) (Layout.resolve u request)
  validate : ∀ layout : Layout,
    layout.validate u = (layout.validate t).mapError (LayoutError.about u.name)

namespace Layout

variable {request : LayoutRequest}

theorem settleOops_agree (t u : Target) (request : LayoutRequest) :
    Noted.Agree t.name u.name (settleOops t request) (settleOops u request) := by
  unfold settleOops
  split
  · exact ⟨rfl, .nil⟩
  · exact ⟨rfl, .ite _ (.single _ _)⟩

theorem settleClassPointers_agree (hneeds : t.classPointersNeedOops = u.classPointersNeedOops)
    (request : LayoutRequest) (oops : Bool) :
    Noted.Agree t.name u.name (settleClassPointers t request oops)
      (settleClassPointers u request oops) := by
  unfold settleClassPointers
  rw [hneeds]
  split
  · exact ⟨rfl, .ite _ (.single _ _)⟩
  · dsimp only
    split
    · exact ⟨rfl, .single _ _⟩
    · exact ⟨rfl, .nil⟩

/-- On narrow targets nothing is compressed, whatever needs what. -/
theorem laysOutAlike_of_isNarrow (ht : IsNarrow t) (hu : IsNarrow u) : LaysOutAlike t u where
  resolve request := by
    rw [resolve, resolve, if_pos ht, if_pos hu]
    exact ⟨rfl, .ite _ (.single _ _)⟩
  validate layout := by
    by_cases hany : layout.compressedOops ∨ layout.compressedClassPointers
    · rw [validate, validate, if_pos ⟨hu, hany⟩, if_pos ⟨ht, hany⟩]
      rfl
    · obtain ⟨hoops, hclass⟩ := not_or.1 hany
      simp [validate, hoops, hclass, Except.mapError]

theorem laysOutAlike_of_not_isNarrow (ht : ¬ IsNarrow t) (hu : ¬ IsNarrow u)
    (hneeds : t.classPointersNeedOops = u.classPointersNeedOops) : LaysOutAlike t u where
  resolve request := by
    have hoops := settleOops_agree t u request
    have hclass := settleClassPointers_agree hneeds request (settleOops u request).value
    rw [resolve, resolve, if_neg ht, if_neg hu]
    simp only [hoops.value_eq, hclass.value_eq]
    exact ⟨rfl, (hoops.remarks.append hclass.remarks).append (.single _ _)⟩
  validate layout := by
    simp only [validate, ht, hu, hneeds, apply_ite (Except.mapError (LayoutError.about u.name))]
    rfl

theorem isNarrow_congr (hword : t.wordSize = u.wordSize) : IsNarrow t ↔ IsNarrow u := by
  rw [IsNarrow, IsNarrow, hword]

theorem laysOutAlike (hword : t.wordSize = u.wordSize)
    (hneeds : t.classPointersNeedOops = u.classPointersNeedOops) : LaysOutAlike t u := by
  have hnarrow := isNarrow_congr hword
  by_cases ht : IsNarrow t
  · exact laysOutAlike_of_isNarrow ht (hnarrow.1 ht)
  · exact laysOutAlike_of_not_isNarrow ht (mt hnarrow.2 ht) hneeds

end Layout

/-! ## Guard pages -/

/-- The targets resolve every request for guard pages in the same way. -/
def GuardsAlike (t u : Target) : Prop := ∀ request,
  Noted.Agree t.name u.name (StackGuard.resolve t request) (StackGuard.resolve u request)

namespace StackRequest

variable {request : StackRequest}

theorem wantedReserved_congr (hpages : t.defaults.stackPages = u.defaults.stackPages) :
    request.wantedReserved t = request.wantedReserved u := by
  rw [wantedReserved, wantedReserved, hpages]

theorem dropsReserved_congr (hreserves : t.reservesStack = u.reservesStack)
    (hpages : t.defaults.stackPages = u.defaults.stackPages) :
    request.DropsReserved t ↔ request.DropsReserved u := by
  rw [DropsReserved, DropsReserved, hreserves, wantedReserved_congr hpages]

theorem effective_congr (hreserves : t.reservesStack = u.reservesStack)
    (hpages : t.defaults.stackPages = u.defaults.stackPages) :
    request.effective t = request.effective u := by
  simp only [effective, hpages, dropsReserved_congr hreserves hpages,
    wantedReserved_congr hpages]

end StackRequest

namespace StackGuard

theorem ofPages_congr (hpages : t.defaults.stackPages = u.defaults.stackPages)
    (hmin : t.defaults.minStackPages = u.defaults.minStackPages) :
    ofPages t = ofPages u := by
  have hcount : countFor t = countFor u := by
    funext wanted zone
    simp only [countFor, hpages, hmin]
  funext wanted
  simp only [ofPages, hcount]

theorem guardsAlike (hreserves : t.reservesStack = u.reservesStack)
    (hpages : t.defaults.stackPages = u.defaults.stackPages)
    (hmin : t.defaults.minStackPages = u.defaults.minStackPages) : GuardsAlike t u := by
  intro request
  have hresolved : ofPages t (request.effective t) = ofPages u (request.effective u) := by
    rw [ofPages_congr hpages hmin, StackRequest.effective_congr hreserves hpages]
  have hdrops : request.DropsReserved t ↔ request.DropsReserved u :=
    StackRequest.dropsReserved_congr hreserves hpages
  refine ⟨hresolved, ?_⟩
  simp only [resolve, hresolved, hdrops]
  apply SameRemarks.append
  · rw [droppedEntry, droppedEntry, StackRequest.wantedReserved_congr hpages]
    exact .ite _ (.single _ _)
  · cases ofPages u (request.effective u) with
    | error failure => exact .nil
    | ok guard => exact .single _ _

end StackGuard

/-! ## Class spaces -/

/-- Both placements end in the same fault, or both come to the same encoding by the same
offers. -/
inductive Placement.Agree {σ : Type} (name other : String) :
    Checked (Placement σ) → Checked (Placement σ) → Prop where
  | faulted (cause : ArithmeticFault) : Placement.Agree name other (.error cause) (.error cause)
  | placed {p q : Placement σ} (encoding_eq : p.encoding = q.encoding)
      (state_eq : p.state = q.state) (offers_eq : p.offers = q.offers)
      (remarks : SameRemarks name other p.journal q.journal) :
      Placement.Agree name other (.ok p) (.ok q)

/-- The targets try class spaces at the same addresses, and place them alike with every
routine. -/
structure PlacesAlike (t u : Target) : Prop where
  candidates : ∀ requested size,
    Candidates.ofTarget t requested size = Candidates.ofTarget u requested size
  place : ∀ {σ : Type} (requested size : Word) (reserve : Reserve σ) (state : σ),
    Placement.Agree t.name u.name (ClassSpace.place t requested size reserve state)
      (ClassSpace.place u requested size reserve state)

namespace ClassSpace

theorem sameRemarks_offers (name other : String) (offers : List Offer) :
    SameRemarks name other (offers.map (offerEntry name)) (offers.map (offerEntry other)) := by
  induction offers with
  | nil => exact .nil
  | cons offer offers ih =>
      have hoffer : SameRemarks name other [offerEntry name offer] [offerEntry other offer] := by
        unfold offerEntry
        split <;> exact .single _ _
      exact hoffer.append ih

theorem ofTarget_congr (halignment : t.classSpaceAlignment = u.classSpaceAlignment)
    (requested size : Word) :
    Candidates.ofTarget t requested size = Candidates.ofTarget u requested size := by
  rw [Candidates.ofTarget, Candidates.ofTarget, halignment]

theorem place_agree {σ : Type} {requested size : Word}
    (hcandidates : Candidates.ofTarget t requested size = Candidates.ofTarget u requested size)
    (reserve : Reserve σ) (state : σ) :
    Placement.Agree t.name u.name (place t requested size reserve state)
      (place u requested size reserve state) := by
  unfold place
  split
  · rw [hcandidates]
    cases Candidates.ofTarget u requested size with
    | error cause => exact .faulted cause
    | ok c =>
        dsimp only [bind, Except.bind]
        cases search reserve.recording size c (state, []) with
        | error cause => exact .faulted cause
        | ok found => exact .placed rfl rfl rfl (sameRemarks_offers _ _ _)
  · exact .placed rfl rfl rfl (.single _ _)

theorem placesAlike (halignment : t.classSpaceAlignment = u.classSpaceAlignment) :
    PlacesAlike t u where
  candidates := ofTarget_congr halignment
  place requested size := place_agree (ofTarget_congr halignment requested size)

end ClassSpace

/-! ## Names and code generation -/

/-- The target under another name, and with other values for code generation. -/
def Target.retuned (t : Target) (name : String)
    (entryAlignment loopAlignment segmentSize inlineLimit : Word) : Target :=
  { t with
    name
    defaults :=
      { t.defaults with entryAlignment, loopAlignment, segmentSize, inlineLimit } }

/-- No consumer tells the targets apart, but for the name. -/
structure Indistinguishable (t u : Target) : Prop where
  calls : CallsAlike t u
  outgoing : ∀ s : NativeSignature, s.outgoingBytes t = s.outgoingBytes u
  layouts : LaysOutAlike t u
  guards : GuardsAlike t u
  places : PlacesAlike t u
  cells : ∀ value, Cell.ofTarget t value = Cell.ofTarget u value

theorem indistinguishable_retuned (t : Target) (name : String)
    (entryAlignment loopAlignment segmentSize inlineLimit : Word) :
    Indistinguishable t
      (t.retuned name entryAlignment loopAlignment segmentSize inlineLimit) where
  calls := NativeSignature.callsAlike rfl rfl
  outgoing _ := rfl
  layouts := Layout.laysOutAlike rfl rfl
  guards := StackGuard.guardsAlike rfl rfl rfl
  places := ClassSpace.placesAlike rfl
  cells _ := rfl

end RuntimeTargets
