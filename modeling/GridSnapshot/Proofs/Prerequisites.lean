import GridSnapshot.Proofs.DerivationReport
import GridSnapshot.Proofs.FailureRecords

namespace GridSnapshot

namespace Derivation

open Thermodynamics Snapshot

section Steps

variable {α β γ : Type}

end Steps

section Operators

variable {ω α : Type}

variable [FieldOps ω] [RingOps α] [Narrowing ω α]

end Operators

section Groups

variable {ω α : Type} [Zero α] {s t : Snapshot ω α} {q : DerivedQuantity}

/-- What a derivation finds under a name: a curl looks into the tensor only. -/
def available? (s : Snapshot ω α) (q : DerivedQuantity) (name : String) : Option (Tensor α) :=
  match q.kind with
  | .vectorCalculus => s.field? name
  | .thermodynamic => s.lookup? name

/-- A group of alternatives has no member, or there is nothing to take a numbered magnetic field of:
there is no group at all, or a field that is not there yet needs slots that were not written. -/
def Lacks (s : Snapshot ω α) : DerivedQuantity → Prop
  | .bbtest =>
    let groups := s.metadata.index.numberedGroups "aatest"
    groups = [] ∨ ∃ group ∈ groups, s.has (magneticName group.name) = false ∧
      s.f.shape.headD 0 < group.slots.stop
  | q => ∃ alternatives ∈ q.prerequisites, ∀ name ∈ alternatives, available? s q name = none

theorem lacks_of_ne (hq : q ≠ .bbtest) : Lacks s q ↔
    ∃ alternatives ∈ q.prerequisites, ∀ name ∈ alternatives, available? s q name = none := by
  cases q with
  | bbtest => exact absurd rfl hq
  | _ => exact Iff.rfl

/-- What is there of a field does not go away. -/
theorem Lacks.of_extends (h : Lacks t q) (hext : t.Extends s) : Lacks s q := by
  by_cases hq : q = .bbtest
  · subst hq
    rw [Lacks, hext.metadata_eq] at h
    refine h.imp_right fun hgroup => ?_
    obtain ⟨group, hmem, hnew, hslots⟩ := hgroup
    have hf : t.f = s.f := by rw [hext.rest_eq]
    refine ⟨group, hmem, Bool.eq_false_iff.mpr fun hhas => ?_, hf ▸ hslots⟩
    rw [hext.has_of_has hhas] at hnew
    cases hnew
  · obtain ⟨alternatives, hmem, hnone⟩ := (lacks_of_ne hq).mp h
    refine (lacks_of_ne hq).mpr ⟨alternatives, hmem, fun name hname => ?_⟩
    have hnone := hnone name hname
    unfold available? at hnone ⊢
    split
    · rename_i hkind
      simp only [hkind] at hnone
      rw [← hext.field?_eq, hnone]
    · rename_i hkind
      simp only [hkind] at hnone
      cases hlookup : s.lookup? name with
      | none => rfl
      | some x =>
        rw [hext.lookup?_of_some hlookup] at hnone
        cases hnone

end Groups

section Values

variable {ω α : Type} [RealOps ω] [RealOps α] [Narrowing ω α] {s : Snapshot ω α}
  {q : DerivedQuantity}

end Values

section Vectors

variable {ω α : Type} [RealOps ω] [RealOps α] [Narrowing ω α] {c : SnapshotContent ω α}
  {s : Snapshot ω α} {q : DerivedQuantity}

end Vectors

section Requests

variable {ω α : Type} [RealOps ω] [RealOps α] [Narrowing ω α] {c : SnapshotContent ω α}
  {s : Snapshot ω α} {q q' : DerivedQuantity} {r : Snapshot ω α × Outcome}

end Requests

end Derivation

end GridSnapshot
