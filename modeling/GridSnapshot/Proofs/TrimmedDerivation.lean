import GridSnapshot.Proofs.DerivationSteps
import GridSnapshot.Proofs.TableMatching
import GridSnapshot.Proofs.TrimmedArrays

namespace GridSnapshot

open Outcome (Paired)

/-- The same fault, up to which shapes did not go together. -/
inductive DerivationFault.Alike : DerivationFault → DerivationFault → Prop where
  | refl (e : DerivationFault) : Alike e e
  | shapes (f f' : ShapeFault) : Alike (.shapeMismatch f) (.shapeMismatch f')

/-- The same outcome, up to which shapes did not go together. -/
inductive Outcome.Agrees : Outcome → Outcome → Prop where
  | computed (names : List String) : Agrees (.computed names) (.computed names)
  | alreadyPresent : Agrees .alreadyPresent .alreadyPresent
  | failed {e e' : DerivationFault} : e.Alike e' → Agrees (.failed e) (.failed e')

/-- An array with the given last axes, and its cut. -/
abbrev Tensor.CutPair {α : Type} [Zero α] (spans : List Span) (extents : List Nat)
    (v v' : Tensor α) : Prop :=
  v' = v.sliceLast spans ∧ extents <:+ v.shape

namespace Thermodynamics

open Tensor (CutPair)

variable {α : Type} {x y x' y' : Tensor α}

theorem combine_of_shape_ne {g : α → α → α} (h : x.shape ≠ y.shape) :
    combine g x y = .error (.shapeMismatch (.inputs x.shape y.shape)) := by
  unfold combine Tensor.zipWith?
  simp only [dif_neg h]

variable [Zero α] {spans : List Span} {extents : List Nat}

theorem paired_required {o o' : Option (Tensor α)} (field : String) (alternatives : List String)
    (ho : o' = o.map fun t => t.sliceLast spans) (hsuffix : ∀ t, o = some t → extents <:+ t.shape) :
    Paired (CutPair spans extents) DerivationFault.Alike (required field alternatives o)
      (required field alternatives o') := by
  subst ho
  cases o with
  | none => exact .error (.refl _)
  | some t => exact .ok ⟨rfl, hsuffix t rfl⟩

theorem paired_combine (g : α → α → α) (hwithin : Cell.Within spans extents)
    (hx : CutPair spans extents x x') (hy : CutPair spans extents y y') :
    Paired (CutPair spans extents) DerivationFault.Alike (combine g x y) (combine g x' y') := by
  obtain ⟨rfl, hx⟩ := hx
  obtain ⟨rfl, hy⟩ := hy
  by_cases hshape : x.shape = y.shape
  · obtain ⟨v, hv⟩ := exists_combine g hshape
    rw [hv, combine_cut hx hy hwithin hv]
    exact .ok ⟨rfl, shape_combine hv ▸ hx⟩
  · rw [combine_of_shape_ne hshape,
      combine_of_shape_ne (mt (shape_eq_cut_iff hx hy hwithin).mp hshape)]
    exact .error (.shapes _ _)

end Thermodynamics

namespace Snapshot

variable {ω α : Type} [Zero α] {s s' : Snapshot ω α} {extents : List Nat} {name : String}

/-- The last axes of the tensor hold the bounds of the stored axes; a tensor is not cut outside of
its cells. They do if it has one axis more than are stored. -/
def HoldsBounds (s : Snapshot ω α) : Prop :=
  ∃ n lead extents, s.f.shape = n :: (lead ++ extents) ∧ Cell.Within s.trimSpans extents

theorem holdsBounds_of_trim (hrank : s.f.shape.length = s.layout.axes.length + 1)
    (h : s.trim = .ok s') : s.HoldsBounds :=
  ⟨s.f.shape.headD 0, [], s.cellShape, shape_eq_cons hrank,
    within_trimSpans hrank (trim_eq_ok_iff.mp h).1.2⟩

/-- A snapshot with its margins, and one without that differs in what failures say of shapes. -/
structure CutSnapshot (extents : List Nat) (s s' : Snapshot ω α) : Prop where
  shape_eq : ∃ n lead, s.f.shape = n :: (lead ++ extents)
  within : Cell.Within s.trimSpans extents
  fitted : s.Fitted
  trimmable : s.trimmed = false ∧ ¬ s.BoundExceeds
  rest_eq : s' = { s with
    f := s.f.sliceLast s.trimSpans
    derived := s'.derived
    coords := .ofFn fun a => (s.bounds.get a).slice (s.coords.get a)
    trimmed := true
    failures := s'.failures }
  derived_eq : s'.derived = s.derived.mapValues fun t => t.sliceLast s.trimSpans
  failures : Table.Matching DerivationFault.Alike s.failures.entries s'.failures.entries

theorem cutSnapshot_of_trim (hs : s.Fitted) (hbounds : s.HoldsBounds) (h : s.trim = .ok s') :
    ∃ extents, CutSnapshot extents s s' := by
  obtain ⟨n, lead, extents, hshape, hwithin⟩ := hbounds
  obtain ⟨htrimmable, rfl⟩ := trim_eq_ok_iff.mp h
  exact ⟨extents, ⟨n, lead, hshape⟩, hwithin, hs, htrimmable, rfl, rfl,
    Table.Matching.refl DerivationFault.Alike.refl _⟩

namespace CutSnapshot

theorem exists_trim (h : CutSnapshot extents s s') :
    s.trim = .ok { s' with failures := s.failures } := by
  refine trim_eq_ok_iff.mpr ⟨h.trimmable, ?_⟩
  rw [h.rest_eq, h.derived_eq]

theorem metadata_eq (h : CutSnapshot extents s s') : s'.metadata = s.metadata := by
  rw [h.rest_eq]

theorem has_eq (h : CutSnapshot extents s s') (name : String) : s'.has name = s.has name := by
  have hviews : s'.views = s.views := by rw [h.rest_eq]
  have hkeys : s'.derived.keys = s.derived.keys := by
    rw [h.derived_eq]
    exact Table.keys_mapValues _ _
  rw [has, has, hviews, Bool.eq_iff_iff, Bool.or_eq_true, Bool.or_eq_true, Table.contains_iff,
    Table.contains_iff, Table.contains_iff, hkeys]

theorem suffix_cellShape (h : CutSnapshot extents s s') : extents <:+ s.cellShape := by
  obtain ⟨n, lead, hshape⟩ := h.shape_eq
  rw [cellShape, hshape]
  exact List.suffix_append _ _

theorem view_eq (h : CutSnapshot extents s s') (slots : Span) :
    s'.view slots = (s.view slots).sliceLast s.trimSpans := by
  obtain ⟨n, lead, hshape⟩ := h.shape_eq
  have hf : s'.f = s.f.sliceLast s.trimSpans := by rw [h.rest_eq]
  have hvars : s'.f.shape.headD 0 = s.f.shape.headD 0 := by
    rw [hf, Tensor.shape_cut_cons hshape h.within, hshape]
    rfl
  rw [view, view, hvars, hf]
  split
  · exact Tensor.row_cut hshape h.within _
  · exact Tensor.sliceFirst_cut hshape h.within _

theorem lookup?_eq (h : CutSnapshot extents s s') (name : String) :
    s'.lookup? name = (s.lookup? name).map fun t => t.sliceLast s.trimSpans := by
  have hviews : s'.views = s.views := by rw [h.rest_eq]
  rw [lookup?, lookup?, field?, field?, hviews, h.derived_eq]
  cases s.views.get? name with
  | none => exact Table.get?_mapValues _ _ _
  | some slots => exact congrArg some (h.view_eq slots)

theorem suffix_lookup? (h : CutSnapshot extents s s') {t : Tensor α}
    (ht : s.lookup? name = some t) : extents <:+ t.shape :=
  h.suffix_cellShape.trans (h.fitted.suffix_lookup? ht)

theorem suffix_cut (h : CutSnapshot extents s s') {v : Tensor α} (hv : s.cellShape <:+ v.shape) :
    s'.cellShape <:+ (v.sliceLast s.trimSpans).shape := by
  obtain ⟨n, lead, hshape⟩ := h.shape_eq
  obtain ⟨first, hfirst⟩ := hv
  have hcells : s'.cellShape = lead ++ s.trimSpans.map Span.length := by
    rw [h.rest_eq, cellShape, Tensor.shape_cut_cons hshape h.within]
    rfl
  have hv : v.shape = (first ++ lead) ++ extents := by
    rw [← hfirst, cellShape, hshape, List.tail_cons, List.append_assoc]
  rw [hcells, Tensor.shape_cut hv h.within, List.append_assoc]
  exact List.suffix_append _ _

theorem noteFailure (h : CutSnapshot extents s s') (name : String) {e e' : DerivationFault}
    (he : e.Alike e') : CutSnapshot extents (s.noteFailure name e) (s'.noteFailure name e') where
  shape_eq := h.shape_eq
  within := h.within
  fitted := h.fitted
  trimmable := h.trimmable
  rest_eq := by
    rw [Snapshot.noteFailure, h.rest_eq]
    rfl
  derived_eq := h.derived_eq
  failures := h.failures.insertEntry name he

/-- An array stored on both. -/
theorem insert (h : CutSnapshot extents s s') {v : Tensor α} (hv : s.cellShape <:+ v.shape)
    (name : String) :
    CutSnapshot extents
      { s with derived := s.derived.insert name v, failures := s.failures.erase name }
      { s' with
        derived := s'.derived.insert name (v.sliceLast s.trimSpans)
        failures := s'.failures.erase name } where
  shape_eq := h.shape_eq
  within := h.within
  fitted := fun name' t ht => by
    rw [Table.get?_insert] at ht
    split at ht
    · cases ht
      exact hv
    · exact h.fitted name' t ht
  trimmable := h.trimmable
  rest_eq := by
    rw [h.rest_eq]
    rfl
  derived_eq := by
    have hinsert := Table.mapValues_insert (fun t => t.sliceLast s.trimSpans) s.derived name v
    rw [h.derived_eq]
    exact hinsert.symm
  failures := h.failures.filter fun name' => name' ≠ name

end CutSnapshot

end Snapshot

namespace Derivation

open Thermodynamics Snapshot Tensor

section Inputs

variable {ω α : Type} [RealOps α] {s s' : Snapshot ω α} {extents : List Nat}

theorem logField?_cut (h : CutSnapshot extents s s') (logarithm plain : String) :
    logField? s' logarithm plain =
      (logField? s logarithm plain).map fun t => t.sliceLast s.trimSpans := by
  rw [logField?, logField?, h.lookup?_eq, h.lookup?_eq]
  cases s.lookup? logarithm with
  | some t => rfl
  | none =>
    cases hplain : s.lookup? plain with
    | none => rfl
    | some t =>
      obtain ⟨lead, hlead⟩ := h.suffix_lookup? hplain
      exact congrArg some (Tensor.map_cut hlead.symm h.within RealOps.log)

theorem suffix_logField? (h : CutSnapshot extents s s') {logarithm plain : String} {t : Tensor α}
    (ht : logField? s logarithm plain = some t) : extents <:+ t.shape := by
  obtain ⟨name, -, x, hx, hshape⟩ := exists_shape_logField [logarithm, plain]
    List.mem_cons_self (List.mem_cons_of_mem _ List.mem_cons_self) ht
  rw [hshape]
  exact h.suffix_lookup? hx

theorem paired_lookup (h : CutSnapshot extents s s') (name field : String)
    (alternatives : List String) :
    Paired (CutPair s.trimSpans extents) DerivationFault.Alike
      (required field alternatives (s.lookup? name))
      (required field alternatives (s'.lookup? name)) :=
  paired_required field alternatives (h.lookup?_eq name) fun _ ht => h.suffix_lookup? ht

theorem paired_logField (h : CutSnapshot extents s s') (logarithm plain field : String)
    (alternatives : List String) :
    Paired (CutPair s.trimSpans extents) DerivationFault.Alike
      (required field alternatives (logField? s logarithm plain))
      (required field alternatives (logField? s' logarithm plain)) :=
  paired_required field alternatives (logField?_cut h logarithm plain) fun _ ht =>
    suffix_logField? h ht

theorem cutPair_exp (h : CutSnapshot extents s s') {t t' : Tensor α}
    (ht : CutPair s.trimSpans extents t t') :
    CutPair s.trimSpans extents (t.map RealOps.exp) (t'.map RealOps.exp) := by
  obtain ⟨rfl, lead, hlead⟩ := ht
  exact ⟨Tensor.map_cut hlead.symm h.within RealOps.exp, lead, hlead⟩

end Inputs

variable {ω α : Type} [RealOps ω] [RealOps α] [Narrowing ω α] {s s' : Snapshot ω α}
  {extents : List Nat} {q : DerivedQuantity}

theorem paired_value (h : CutSnapshot extents s s') (q : DerivedQuantity) :
    Paired (CutPair s.trimSpans extents) DerivationFault.Alike (value s q) (value s' q) := by
  cases q with
  | rho =>
    exact (paired_lookup h "lnrho" "rho" ["lnrho"]).bind fun t t' ht => .ok (cutPair_exp h ht)
  | tt =>
    simp only [value, temperature, h.lookup?_eq "lnTT"]
    cases hlnTT : s.lookup? "lnTT" with
    | some lnTT => exact .ok (cutPair_exp h ⟨rfl, h.suffix_lookup? hlnTT⟩)
    | none =>
      refine (paired_lookup h "ss" "tt" ["ss"]).bind fun ss ss' hss => ?_
      refine (paired_logField h "lnrho" "rho" "tt" ["lnrho", "rho"]).bind fun t t' ht => ?_
      rw [h.metadata_eq]
      exact paired_combine _ h.within hss ht
  | ss =>
    refine (paired_logField h "lnTT" "tt" "ss" ["lnTT", "tt"]).bind fun t t' ht => ?_
    refine (paired_logField h "lnrho" "rho" "ss" ["lnrho", "rho"]).bind fun u u' hu => ?_
    rw [h.metadata_eq]
    exact paired_combine _ h.within ht hu
  | pp =>
    refine (paired_logField h "lnrho" "rho" "pp" ["lnrho", "rho"]).bind fun u u' hu => ?_
    rw [h.metadata_eq, h.lookup?_eq "ss"]
    cases hss : s.lookup? "ss" with
    | some ss => exact paired_combine _ h.within ⟨rfl, h.suffix_lookup? hss⟩ hu
    | none =>
      refine (paired_logField h "lnTT" "tt" "pp" ["ss", "lnTT", "tt"]).bind fun t t' ht => ?_
      exact paired_combine _ h.within ht hu
  | bb | bbtest | jj | vort => exact .error (.refl _)

/-- One request, with the margins and without. -/
theorem derive_cut (op : CurlScheme ω α) (h : CutSnapshot extents s s')
    (hq : q.kind = .thermodynamic) :
    CutSnapshot extents (derive op s q).1 (derive op s' q).1 ∧
      Outcome.Agrees (derive op s q).2 (derive op s' q).2 := by
  cases hhas : s.has q.tag with
  | true =>
    rw [derive_of_has hq hhas, derive_of_has hq ((h.has_eq _).trans hhas)]
    exact ⟨h, .alreadyPresent⟩
  | false =>
    have hhas' := (h.has_eq q.tag).trans hhas
    have hvalue := paired_value h q
    cases hv : value s q with
    | error e =>
      rw [hv] at hvalue
      generalize hv' : value s' q = x' at hvalue
      cases hvalue with
      | error he =>
        rw [derive_of_error hq hhas hv, derive_of_error hq hhas' hv']
        exact ⟨h.noteFailure _ he, .failed he⟩
    | ok v =>
      rw [hv] at hvalue
      generalize hv' : value s' q = x' at hvalue
      cases hvalue with
      | ok hcut =>
        obtain ⟨rfl, -⟩ := hcut
        obtain ⟨name, -, x, hx, hshape⟩ := exists_shape_value hv
        have hsuffix : s.cellShape <:+ v.shape := hshape ▸ h.fitted.suffix_lookup? hx
        rw [derive_of_suffix hq hhas hv hsuffix,
          derive_of_suffix hq hhas' hv' (h.suffix_cut hsuffix)]
        exact ⟨h.insert hsuffix q.tag, .computed _⟩

/-- A list of requests, with the margins and without. -/
theorem deriveAll_cut (op : CurlScheme ω α) {fields : List DerivedQuantity}
    {log log' : DerivationLog} (h : CutSnapshot extents s s')
    (hfields : ∀ q ∈ fields, q.kind = .thermodynamic)
    (hlog : Table.Matching Outcome.Agrees log log') :
    CutSnapshot extents (deriveAll op fields s log).1 (deriveAll op fields s' log').1 ∧
      Table.Matching Outcome.Agrees (deriveAll op fields s log).2
        (deriveAll op fields s' log').2 := by
  induction fields generalizing s s' log log' with
  | nil => exact ⟨h, hlog⟩
  | cons q fields ih =>
    obtain ⟨hq, hfields⟩ := List.forall_mem_cons.mp hfields
    obtain ⟨hstep, houtcome⟩ := derive_cut op h hq
    rw [deriveAll, deriveAll, hlog.map_fst_eq]
    split
    · exact ih h hfields hlog
    · exact ih hstep hfields (List.rel_append hlog (.cons ⟨rfl, houtcome⟩ .nil))

/-- Deriving thermodynamic fields and dropping the margins, in either order. -/
theorem derive_trim_comm (op : CurlScheme ω α) (hs : s.Fitted) (hbounds : s.HoldsBounds)
    (htrim : s.trim = .ok s') (fields : List DerivedQuantity)
    (hfields : ∀ q ∈ fields, q.kind = .thermodynamic) :
    ∃ t, (s.derive op fields).1.trim = .ok t ∧
      t = { (s'.derive op fields).1 with failures := t.failures } ∧
      Table.Matching DerivationFault.Alike t.failures.entries
        (s'.derive op fields).1.failures.entries ∧
      Table.Matching Outcome.Agrees (s.derive op fields).2 (s'.derive op fields).2 := by
  obtain ⟨extents, hcut⟩ := cutSnapshot_of_trim hs hbounds htrim
  obtain ⟨hrun, hlog⟩ := deriveAll_cut op hcut hfields .nil
  exact ⟨_, hrun.exists_trim, rfl, hrun.failures, hlog⟩

/-- A gas with one cell between its margins. -/
def layeredContent : SnapshotContent Float Float where
  f := Tensor.fill [1, 3, 3, 3] 0
  layout := .full
  coords := .uniform [0, 1, 2]
  time := 0
  spacing := .uniform 1
  shearOffset := none
  bounds := .uniform ⟨1, 2⟩
  metadata := {
    dims := ⟨.uniform 3, .uniform 1, 1, 0, .double, .uniform 1, .uniform 0⟩
    params := ⟨none, false, false, false, false, .cartesian, ⟨1, 1, 1, 1⟩⟩
    index := .ofList [("lnrho", 1)] }
  persistence := .empty
  grid := none

/-- It has an earlier array of two temperatures. -/
def layeredGas : Snapshot Float Float :=
  { Snapshot.ofContent layeredContent with
    derived := .ofList [("tt", Tensor.fill [2, 3, 3, 3] 1)] }

theorem derive_trim_comm_layeredGas :
    let op : CurlScheme Float Float := CentralDifference.scheme
    let fields : List DerivedQuantity := [.rho, .ss, .rho]
    layeredGas.Fitted ∧ layeredGas.HoldsBounds ∧
      (layeredGas.derive op fields).2 = [(.rho, .computed ["rho"]),
        (.ss, .failed (.shapeMismatch (.inputs [2, 3, 3, 3] [3, 3, 3])))] ∧
      ∃ s' t, layeredGas.trim = .ok s' ∧ (layeredGas.derive op fields).1.trim = .ok t ∧
        t.f = (s'.derive op fields).1.f ∧ t.derived = (s'.derive op fields).1.derived := by
  intro op fields
  have hfitted : layeredGas.Fitted := by
    intro name t ht
    have ht : (Table.empty.insertMany [("tt", Tensor.fill [2, 3, 3, 3] (1 : Float))]).get? name =
        some t := ht
    rcases Table.mem_of_get?_insertMany ht with hmem | hnone
    · obtain ⟨-, rfl⟩ := Prod.mk.inj (List.mem_singleton.mp hmem)
      exact ⟨[2], rfl⟩
    · cases hnone
  have htrim : layeredGas.trimFault = none := by decide +kernel
  obtain ⟨s', hs'⟩ : ∃ s', layeredGas.trim = .ok s' :=
    ⟨_, trim_eq_ok_iff.mpr ⟨trimFault_eq_none_iff.mp htrim, rfl⟩⟩
  have hbounds := holdsBounds_of_trim rfl hs'
  obtain ⟨t, ht, hsame, -, -⟩ :=
    derive_trim_comm op hfitted hbounds hs' fields (by decide)
  refine ⟨hfitted, hbounds, by decide +kernel, s', t, hs', ht, ?_, ?_⟩
  · rw [hsame]
  · rw [hsame]

end Derivation

end GridSnapshot
