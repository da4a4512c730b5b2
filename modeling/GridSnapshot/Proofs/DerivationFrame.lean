import GridSnapshot.Proofs.DerivationSteps

namespace GridSnapshot

namespace Snapshot

variable {ω α : Type} {s t u : Snapshot ω α} {name : String} {x : Tensor α}

/-- The snapshot differs from an earlier one by further derived arrays and in its failures. -/
structure Extends (t s : Snapshot ω α) : Prop where
  rest_eq : t = { s with derived := t.derived, failures := t.failures }
  prefix_derived : s.derived.entries <+: t.derived.entries

namespace Extends

theorem refl (s : Snapshot ω α) : s.Extends s := ⟨rfl, List.prefix_refl _⟩

theorem trans (htu : u.Extends t) (hst : t.Extends s) : u.Extends s := by
  refine ⟨?_, hst.prefix_derived.trans htu.prefix_derived⟩
  rw [htu.rest_eq, hst.rest_eq]

theorem content_eq (h : t.Extends s) : t.toSnapshotContent = s.toSnapshotContent := by
  rw [h.rest_eq]

theorem metadata_eq (h : t.Extends s) : t.metadata = s.metadata := by
  rw [h.rest_eq]

theorem trimmed_eq (h : t.Extends s) : t.trimmed = s.trimmed := by
  rw [h.rest_eq]

theorem views_eq (h : t.Extends s) : t.views = s.views := by
  rw [h.rest_eq]

theorem field?_eq [Zero α] (h : t.Extends s) : t.field? = s.field? := by
  rw [h.rest_eq]
  rfl

theorem keys_subset (h : t.Extends s) : s.derived.keys ⊆ t.derived.keys :=
  (h.prefix_derived.map Prod.fst).subset

theorem get?_derived (h : t.Extends s) (hx : s.derived.get? name = some x) :
    t.derived.get? name = some x := by
  obtain ⟨added, hadded⟩ := h.prefix_derived
  have hx : s.derived.entries.lookup name = some x := hx
  rw [Table.get?, ← hadded, List.lookup_append, hx, Option.some_or]

theorem has_of_has (h : t.Extends s) (hhas : s.has name = true) : t.has name = true := by
  rw [has, Bool.or_eq_true, Table.contains_iff (t := s.derived)] at hhas
  rcases hhas with hview | hderived
  · rw [has, h.views_eq, hview, Bool.true_or]
  · exact has_of_mem_derived (h.keys_subset hderived)

theorem lookup?_of_some [Zero α] (h : t.Extends s) (hx : s.lookup? name = some x) :
    t.lookup? name = some x := by
  unfold lookup? at hx ⊢
  rw [h.field?_eq]
  cases hfield : s.field? name with
  | some y =>
    rw [hfield] at hx
    exact hx
  | none =>
    rw [hfield] at hx
    exact h.get?_derived hx

/-- Nothing else was derived under a name. -/
theorem lookup?_of_get?_eq [Zero α] (h : t.Extends s)
    (hget : t.derived.get? name = s.derived.get? name) : t.lookup? name = s.lookup? name := by
  unfold lookup?
  rw [h.field?_eq, hget]

end Extends

end Snapshot

namespace DerivedQuantity

end DerivedQuantity

namespace Derivation

open Thermodynamics Snapshot

variable {ω α : Type} [RealOps ω] [RealOps α] [Narrowing ω α] {op : CurlScheme ω α}
  {s t : Snapshot ω α} {q q' : DerivedQuantity} {arrays : List (String × Tensor α)}
  {e : DerivationFault} {r : Snapshot ω α × Outcome} {name : String}

section Inputs

omit [RealOps ω] [Narrowing ω α]

end Inputs

namespace Turn

theorem isExtension (h : Turn op s q r) : r.1.Extends s := by
  cases h with
  | present _ => exact .refl s
  | computed h => exact ⟨rfl, ⟨_, h.derived_addAll.symm⟩⟩
  | failed _ => exact ⟨rfl, List.prefix_refl _⟩

theorem fitted (h : Turn op s q r) (hs : s.Fitted) : r.1.Fitted := by
  cases h with
  | present _ => exact hs
  | computed h => exact hs.addAll h.suffix
  | failed _ => exact hs

theorem lookup?_of_not_mem (h : Turn op s q r)
    (hname : name ∉ q.outputs s.metadata.index) : r.1.lookup? name = s.lookup? name := by
  refine h.isExtension.lookup?_of_get?_eq ?_
  cases h with
  | present _ => rfl
  | computed h =>
    have hnone := Table.lookup_eq_none_of_not_mem fun hmem => hname (h.mem_outputs hmem)
    rw [Table.get?, h.derived_addAll, List.lookup_append, hnone, Option.or_none, Table.get?]
  | failed _ => rfl

end Turn

omit [RealOps ω] [RealOps α] [Narrowing ω α] in
theorem HasGroups.of_extends (h : HasGroups s) (hext : t.Extends s) : HasGroups t := by
  rw [HasGroups, hext.trimmed_eq, hext.metadata_eq]
  exact h

omit [RealOps ω] [RealOps α] [Narrowing ω α] in
theorem Settled.of_extends (h : Settled s q) (hext : t.Extends s) : Settled t q := by
  refine ⟨fun hq => (h.1 hq).of_extends hext, fun name hname => ?_⟩
  rw [hext.metadata_eq] at hname
  exact hext.has_of_has (h.2 name hname)

theorem Computing.settled (h : Computing op s q arrays) : Settled (s.addAll arrays) q := by
  have hext : (s.addAll arrays).Extends s := ⟨rfl, ⟨_, h.derived_addAll.symm⟩⟩
  constructor
  · intro hq
    subst hq
    exact (hasGroups_of_attempt h.attempt_eq).of_extends hext
  · intro name hname
    cases hhas : s.has name with
    | true => exact hext.has_of_has hhas
    | false =>
      have hmem : name ∈ arrays.map Prod.fst := by
        rw [h.names_eq, List.mem_filter]
        exact ⟨hname, by rw [hhas]; rfl⟩
      refine has_of_mem_derived ?_
      rw [Table.keys, h.derived_addAll, List.map_append]
      exact List.mem_append_right _ hmem

/-- What is found of a thermodynamic field stays, unless the field could be derived. -/
theorem Turn.lookup?_cases (h : Turn op s q r) (q' : DerivedQuantity)
    (hkind : q'.kind = .thermodynamic) :
    r.1.lookup? q'.tag = s.lookup? q'.tag ∨ ∃ v, value s q' = .ok v := by
  by_cases hmem : q'.tag ∈ q.outputs s.metadata.index
  · obtain rfl := DerivedQuantity.eq_of_tag_mem_outputs hmem
    cases h with
    | present _ => exact .inl rfl
    | computed h =>
      have hattempt := h.attempt_eq
      rw [attempt_eq_value hkind] at hattempt
      cases hvalue : value s q' with
      | error e =>
        rw [hvalue] at hattempt
        cases hattempt
      | ok v => exact .inr ⟨v, rfl⟩
    | failed _ => exact .inl rfl
  · exact .inl (h.lookup?_of_not_mem hmem)

/-- The logarithms are never derived. -/
theorem Turn.lookup?_logarithm (h : Turn op s q r) (name : String)
    (hname : name ∈ ["lnrho", "lnTT"]) :
    r.1.lookup? name = s.lookup? name := by
  refine h.lookup?_of_not_mem (DerivedQuantity.not_mem_outputs ?_ ?_)
  · simp only [List.mem_cons, List.not_mem_nil, or_false] at hname
    rcases hname with rfl | rfl <;> decide
  · simp only [List.mem_cons, List.not_mem_nil, or_false] at hname
    rcases hname with rfl | rfl <;> cases q <;> decide

theorem Turn.logDensity?_eq (h : Turn op s q r) : logDensity? r.1 = logDensity? s := by
  have hlnrho := h.lookup?_logarithm "lnrho" (by decide)
  unfold logDensity? logField?
  rw [hlnrho]
  cases hl : s.lookup? "lnrho" with
  | some lnrho => rfl
  | none =>
    rcases h.lookup?_cases .rho rfl with heq | ⟨v, hv⟩
    · exact congrArg (Option.map _) heq
    · -- A density is derived from its logarithm only.
      rw [value, density, hl] at hv
      cases hv

theorem Turn.logTemperature?_eq (h : Turn op s q r) (hss : s.lookup? "ss" = none) :
    logTemperature? r.1 = logTemperature? s := by
  have hlnTT := h.lookup?_logarithm "lnTT" (by decide)
  unfold logTemperature? logField?
  rw [hlnTT]
  cases hl : s.lookup? "lnTT" with
  | some lnTT => rfl
  | none =>
    rcases h.lookup?_cases .tt rfl with heq | ⟨v, hv⟩
    · exact congrArg (Option.map _) heq
    · -- Without its logarithm a temperature is derived from the entropy.
      rw [value, temperature, hl, hss] at hv
      cases hv

end Derivation

end GridSnapshot
