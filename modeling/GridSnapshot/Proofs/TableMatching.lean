import GridSnapshot.Proofs.Tables
import Mathlib.Data.List.Forall2

namespace GridSnapshot.Table

variable {κ ν ν' : Type} {R : ν → ν' → Prop} {es : List (κ × ν)}
  {es' : List (κ × ν')} {t : Table κ ν} {t' : Table κ ν'}

/-- The same keys in the same order, with related values. -/
abbrev Matching (R : ν → ν' → Prop) (es : List (κ × ν)) (es' : List (κ × ν')) : Prop :=
  List.Forall₂ (fun e e' => e.1 = e'.1 ∧ R e.2 e'.2) es es'

theorem Matching.refl {R : ν → ν → Prop} (h : ∀ v, R v v) (es : List (κ × ν)) :
    Matching R es es :=
  List.forall₂_same.mpr fun e _ => ⟨rfl, h e.2⟩

theorem Matching.map_fst_eq (h : Matching R es es') : es.map Prod.fst = es'.map Prod.fst := by
  induction h with
  | nil => rfl
  | cons he _ ih => rw [List.map_cons, List.map_cons, he.1, ih]

theorem Matching.map_eq {μ : Type} {f : ν → μ} {f' : ν' → μ} (h : Matching R es es')
    (hf : ∀ v v', R v v' → f v = f' v') :
    es.map (fun e => (e.1, f e.2)) = es'.map fun e => (e.1, f' e.2) := by
  induction h with
  | nil => rfl
  | cons he _ ih => rw [List.map_cons, List.map_cons, ih, he.1, hf _ _ he.2]

theorem Matching.mapValues_eq {μ : Type} {f : ν → μ} {f' : ν' → μ}
    (h : Matching R t.entries t'.entries) (hf : ∀ v v', R v v' → f v = f' v') :
    t.mapValues f = t'.mapValues f' := by
  have hentries := h.map_eq hf
  unfold mapValues
  congr 1

theorem mapValues_mapValues {μ μ' : Type} (f : ν → μ) (g : μ → μ') :
    (t.mapValues f).mapValues g = t.mapValues fun v => g (f v) := by
  unfold mapValues
  congr 1
  exact List.map_map

/-- Dropping the entries of the same keys. -/
theorem Matching.filter (h : Matching R es es') (p : κ → Bool) :
    Matching R (es.filter fun e => p e.1) (es'.filter fun e => p e.1) := by
  induction h with
  | nil => exact .nil
  | @cons e e' es es' he hes ih =>
    rw [List.filter_cons, List.filter_cons, he.1]
    split
    · exact .cons he ih
    · exact ih

variable [DecidableEq κ]

theorem Matching.insertEntry (h : Matching R es es') (k : κ) {v : ν} {v' : ν'} (hv : R v v') :
    Matching R (insertEntry k v es) (insertEntry k v' es') := by
  induction h with
  | nil => exact .cons ⟨rfl, hv⟩ .nil
  | @cons e e' es es' he hes ih =>
    have hkey : e'.1 = k ↔ e.1 = k := by rw [he.1]
    rw [Table.insertEntry, Table.insertEntry]
    by_cases hk : e.1 = k
    · rw [if_pos hk, if_pos (hkey.mpr hk)]
      exact .cons ⟨rfl, hv⟩ hes
    · rw [if_neg hk, if_neg (mt hkey.mp hk)]
      exact .cons he ih

theorem Matching.contains_eq (h : Matching R t.entries t'.entries) (k : κ) :
    t.contains k = t'.contains k := by
  rw [Bool.eq_iff_iff, contains_iff, contains_iff, keys, keys, h.map_fst_eq]

theorem mapValues_insert {μ : Type} (f : ν → μ) (t : Table κ ν) (k : κ) (v : ν) :
    (t.insert k v).mapValues f = (t.mapValues f).insert k (f v) := by
  have hentries (es : List (κ × ν)) : (Table.insertEntry k v es).map (fun e => (e.1, f e.2)) =
      Table.insertEntry k (f v) (es.map fun e => (e.1, f e.2)) := by
    induction es with
    | nil => rfl
    | cons e es ih =>
      rw [List.map_cons, Table.insertEntry, Table.insertEntry]
      split
      · rfl
      · rw [List.map_cons, ih]
  unfold mapValues insert
  congr 1
  exact hentries t.entries

end GridSnapshot.Table
