import GridSnapshot.Derivation
import GridSnapshot.Proofs.Cells
import GridSnapshot.Proofs.Outcome
import GridSnapshot.Proofs.Tables

namespace GridSnapshot

namespace Snapshot

variable {ω α : Type} [Zero α] {s t : Snapshot ω α} {name : String}

theorem has_eq_isSome (s : Snapshot ω α) (name : String) :
    s.has name = (s.lookup? name).isSome := by
  unfold has lookup? Table.contains field?
  cases s.views.get? name <;> simp

theorem lookup?_of_has_eq_false (h : s.has name = false) : s.lookup? name = none := by
  rw [has_eq_isSome] at h
  simpa using h

/-- What is found beside the tensor after a field was stored there. -/
theorem lookup?_insert {tag : String} (h : s.lookup? tag = none) (v : Tensor α)
    (failures : Table String DerivationFault) (name : String) :
    lookup? { s with derived := s.derived.insert tag v, failures := failures } name =
      if name = tag then some v else s.lookup? name := by
  have hfield (name : String) :
      field? { s with derived := s.derived.insert tag v, failures := failures } name =
        s.field? name := rfl
  simp only [lookup?, hfield] at h ⊢
  by_cases hname : name = tag
  · subst hname
    rw [if_pos rfl]
    cases hs : s.field? name with
    | none => rw [Table.get?_insert_self]
    | some x =>
      rw [hs] at h
      cases h
  · rw [if_neg hname, Table.get?_insert_of_ne hname]

end Snapshot

namespace Thermodynamics

section Steps

variable {α : Type} {v x y : Tensor α}

theorem required_eq_ok_iff {field : String} {alternatives : List String} {o : Option (Tensor α)} :
    required field alternatives o = .ok x ↔ o = some x := by
  cases o <;> simp [required]

theorem shape_combine {g : α → α → α} (h : combine g x y = .ok v) : v.shape = x.shape := by
  unfold combine Tensor.zipWith? at h
  by_cases hshape : x.shape = y.shape
  · simp only [dif_pos hshape] at h
    cases h
    rfl
  · simp only [dif_neg hshape] at h
    cases h

theorem shape_eq_of_combine {g : α → α → α} (h : combine g x y = .ok v) : x.shape = y.shape := by
  unfold combine Tensor.zipWith? at h
  by_cases hshape : x.shape = y.shape
  · exact hshape
  · simp only [dif_neg hshape] at h
    cases h

theorem exists_combine (g : α → α → α) (h : x.shape = y.shape) : ∃ v, combine g x y = .ok v := by
  unfold combine Tensor.zipWith?
  simp only [dif_pos h]
  exact ⟨_, rfl⟩

theorem get?_combine {g : α → α → α} (h : combine g x y = .ok v) (idx : List Nat) :
    v.get? idx = (x.get? idx).bind fun a => (y.get? idx).map (g a) := by
  unfold combine Tensor.zipWith? at h
  by_cases hshape : x.shape = y.shape
  · simp only [dif_pos hshape] at h
    cases h
    unfold Tensor.get?
    rw [← hshape]
    by_cases hinside : Cell.Inside x.shape idx
    · simp only [if_pos hinside, Array.getElem?_zipWith]
      cases x.cells[Cell.offset x.shape idx]? with
      | none => simp
      | some a => cases y.cells[Cell.offset x.shape idx]? <;> simp
    · simp only [if_neg hinside, Option.bind_none]
  · simp only [dif_neg hshape] at h
    cases h

/-- Combining with the same tensor a second time. -/
theorem combine_combine {f g k : α → α → α} (h : combine f x y = .ok v)
    (hshape : x.shape = y.shape)
    (hcell : ∀ idx a b, x.get? idx = some a → y.get? idx = some b → g (f a b) b = k a b) :
    combine g v y = combine k x y := by
  obtain ⟨w, hw⟩ := exists_combine g ((shape_combine h).trans hshape)
  obtain ⟨w', hw'⟩ := exists_combine k hshape
  have hsame : w = w' := by
    refine Tensor.ext_get? ?_ fun idx _ => ?_
    · rw [shape_combine hw, shape_combine h, shape_combine hw']
    · rw [get?_combine hw, get?_combine h, get?_combine hw']
      cases hx : x.get? idx with
      | none => simp only [Option.bind_none]
      | some a =>
        cases hy : y.get? idx with
        | none => simp only [Option.map_none, Option.bind_none, Option.bind_some]
        | some b => simp only [Option.map_some, Option.bind_some, hcell idx a b hx hy]
  rw [hw, hw', hsame]

end Steps

variable {ω α : Type} [RealOps α] {s : Snapshot ω α} {x : Tensor α}

/-- The fields that others are derived from have the shape of one slot of the tensor. -/
def EvenShapes (s : Snapshot ω α) : Prop :=
  ∀ name ∈ ["lnrho", "rho", "lnTT", "tt", "ss"], ∀ x, s.lookup? name = some x →
    x.shape = s.cellShape

theorem exists_shape_logField (names : List String) {logarithm plain : String}
    (hlogarithm : logarithm ∈ names) (hplain : plain ∈ names)
    (hx : logField? s logarithm plain = some x) :
    ∃ name ∈ names, ∃ y, s.lookup? name = some y ∧ x.shape = y.shape := by
  unfold logField? at hx
  cases hl : s.lookup? logarithm with
  | some y =>
    rw [hl] at hx
    cases hx
    exact ⟨logarithm, hlogarithm, x, hl, rfl⟩
  | none =>
    rw [hl] at hx
    obtain ⟨y, hy, rfl⟩ := Option.map_eq_some_iff.mp hx
    exact ⟨plain, hplain, y, hy, rfl⟩

theorem EvenShapes.shape_logField (h : EvenShapes s) {logarithm plain : String}
    (hlogarithm : logarithm ∈ ["lnrho", "rho", "lnTT", "tt", "ss"])
    (hplain : plain ∈ ["lnrho", "rho", "lnTT", "tt", "ss"])
    (hx : logField? s logarithm plain = some x) : x.shape = s.cellShape := by
  obtain ⟨name, hname, y, hy, hshape⟩ := exists_shape_logField _ hlogarithm hplain hx
  exact hshape.trans (h name hname y hy)

end Thermodynamics

namespace Derivation

open Thermodynamics

variable {ω α : Type} [RealOps ω] [RealOps α] [Narrowing ω α] {op : CurlScheme ω α}
  {s t : Snapshot ω α} {q : DerivedQuantity} {v : Tensor α} {e : DerivationFault}

/-- The array of a thermodynamic field. -/
def value (s : Snapshot ω α) : DerivedQuantity → Except DerivationFault (Tensor α)
  | .rho => density s
  | .tt => temperature s
  | .ss => entropy s
  | .pp => pressure s
  | q => .error (.missingField q.tag [])

theorem attempt_eq_value (hq : q.kind = .thermodynamic) :
    attempt op s q = (fun t => [(q.tag, t)]) <$> value s q := by
  unfold attempt
  rw [if_neg (by simp [hq])]
  cases q <;> first | rfl | cases hq

theorem derive_of_has (hq : q.kind = .thermodynamic) (h : s.has q.tag = true) :
    derive op s q = (s, .alreadyPresent) := by
  have hne : q ≠ .bbtest := by
    rintro rfl
    cases hq
  rw [derive, if_pos ⟨hne, h⟩]

theorem derive_of_error (hq : q.kind = .thermodynamic) (h : s.has q.tag = false)
    (he : value s q = .error e) : derive op s q = (s.noteFailure q.tag e, .failed e) := by
  rw [derive, if_neg (by simp [h]), attempt_eq_value hq, he]
  rfl

/-- An array whose last axes are those of the tensor is stored. -/
theorem derive_of_suffix (hq : q.kind = .thermodynamic) (h : s.has q.tag = false)
    (hv : value s q = .ok v) (hsuffix : s.cellShape <:+ v.shape) :
    derive op s q = ({ s with
      derived := s.derived.insert q.tag v, failures := s.failures.erase q.tag },
      .computed [q.tag]) := by
  have hstore : s.addDerived q.tag v = .ok { s with
      derived := s.derived.insert q.tag v, failures := s.failures.erase q.tag } := by
    rw [Snapshot.addDerived, if_pos (List.isSuffixOf_iff_suffix.mpr hsuffix)]
  rw [derive, if_neg (by simp [h]), attempt_eq_value hq, hv]
  simp only [Functor.map, Except.map, store, hstore, List.map_cons, List.map_nil]

theorem derive_of_ok (hq : q.kind = .thermodynamic) (h : s.has q.tag = false)
    (hv : value s q = .ok v) (hshape : v.shape = s.cellShape) :
    derive op s q = ({ s with
      derived := s.derived.insert q.tag v, failures := s.failures.erase q.tag },
      .computed [q.tag]) :=
  derive_of_suffix hq h hv (hshape ▸ List.suffix_refl _)

/-- The array of a field has the shape of one of the fields that it is derived from. -/
theorem exists_shape_value (hv : value s q = .ok v) :
    ∃ name ∈ ["lnrho", "rho", "lnTT", "tt", "ss"], ∃ x, s.lookup? name = some x ∧
      v.shape = x.shape := by
  cases q with
  | rho =>
    obtain ⟨lnrho, hlnrho, hv⟩ := Outcome.bind_eq_ok_iff.mp hv
    cases hv
    exact ⟨"lnrho", by simp, lnrho, required_eq_ok_iff.mp hlnrho, rfl⟩
  | tt =>
    simp only [value, temperature] at hv
    cases hlnTT : s.lookup? "lnTT" with
    | some lnTT =>
      rw [hlnTT] at hv
      cases hv
      exact ⟨"lnTT", by simp, lnTT, hlnTT, rfl⟩
    | none =>
      rw [hlnTT] at hv
      obtain ⟨ss, hss, hv⟩ := Outcome.bind_eq_ok_iff.mp hv
      obtain ⟨lnrho, -, hv⟩ := Outcome.bind_eq_ok_iff.mp hv
      exact ⟨"ss", by simp, ss, required_eq_ok_iff.mp hss, shape_combine hv⟩
  | ss =>
    obtain ⟨lnTT, hlnTT, hv⟩ := Outcome.bind_eq_ok_iff.mp hv
    obtain ⟨lnrho, -, hv⟩ := Outcome.bind_eq_ok_iff.mp hv
    rw [shape_combine hv]
    exact exists_shape_logField _ (by simp) (by simp) (required_eq_ok_iff.mp hlnTT)
  | pp =>
    obtain ⟨lnrho, -, hv⟩ := Outcome.bind_eq_ok_iff.mp hv
    cases hss : s.lookup? "ss" with
    | some ss =>
      rw [hss] at hv
      exact ⟨"ss", by simp, ss, hss, shape_combine hv⟩
    | none =>
      rw [hss] at hv
      obtain ⟨lnTT, hlnTT, hv⟩ := Outcome.bind_eq_ok_iff.mp hv
      rw [shape_combine hv]
      exact exists_shape_logField _ (by simp) (by simp) (required_eq_ok_iff.mp hlnTT)
  | _ => cases hv

/-- All that is derived from fields of one shape has that shape. -/
theorem shape_value (hs : EvenShapes s) (hv : value s q = .ok v) : v.shape = s.cellShape := by
  obtain ⟨name, hname, x, hx, hshape⟩ := exists_shape_value hv
  exact hshape.trans (hs name hname x hx)

/-- What is found under the tag of a field that was requested. -/
theorem lookup?_derive (hq : q.kind = .thermodynamic) (hs : EvenShapes s) :
    (derive op s q).1.lookup? q.tag = (s.lookup? q.tag).or (value s q).toOption := by
  cases hhas : s.has q.tag with
  | true =>
    rw [derive_of_has hq hhas]
    rw [Snapshot.has_eq_isSome] at hhas
    obtain ⟨x, hx⟩ := Option.isSome_iff_exists.mp hhas
    rw [hx, Option.some_or]
  | false =>
    have hnone := Snapshot.lookup?_of_has_eq_false hhas
    rw [hnone, Option.none_or]
    cases hv : value s q with
    | error e =>
      rw [derive_of_error hq hhas hv]
      exact hnone
    | ok v =>
      rw [derive_of_ok hq hhas hv (shape_value hs hv), Snapshot.lookup?_insert hnone, if_pos rfl]
      rfl

/-- A request changes nothing but what is found under its own tag. -/
theorem lookup?_derive_of_ne (hq : q.kind = .thermodynamic) (hs : EvenShapes s) {name : String}
    (hname : name ≠ q.tag) : (derive op s q).1.lookup? name = s.lookup? name := by
  cases hhas : s.has q.tag with
  | true => rw [derive_of_has hq hhas]
  | false =>
    cases hv : value s q with
    | error e =>
      rw [derive_of_error hq hhas hv]
      rfl
    | ok v =>
      have hnone := Snapshot.lookup?_of_has_eq_false hhas
      rw [derive_of_ok hq hhas hv (shape_value hs hv), Snapshot.lookup?_insert hnone,
        if_neg hname]

/-- A request leaves what a snapshot was read with. -/
theorem content_derive (hq : q.kind = .thermodynamic) (hs : EvenShapes s) :
    (derive op s q).1.toSnapshotContent = s.toSnapshotContent := by
  cases hhas : s.has q.tag with
  | true => rw [derive_of_has hq hhas]
  | false =>
    cases hv : value s q with
    | error e =>
      rw [derive_of_error hq hhas hv]
      rfl
    | ok v => rw [derive_of_ok hq hhas hv (shape_value hs hv)]

end Derivation

end GridSnapshot
