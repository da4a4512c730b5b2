import GridSnapshot.Proofs.DerivationFrame

namespace GridSnapshot

open GridSnapshot.Derivation

namespace Derivation

theorem nodup_eraseDups (fields : List DerivedQuantity) : fields.eraseDups.Nodup := by
  match fields with
  | [] => exact List.nodup_nil
  | q :: fields =>
    rw [List.eraseDups_cons, List.nodup_cons]
    refine ⟨fun hmem => ?_, nodup_eraseDups _⟩
    simpa using (List.mem_filter.mp (List.mem_eraseDups.mp hmem)).2
termination_by fields.length
decreasing_by exact Nat.lt_succ_of_le (List.length_filter_le _ _)

variable {ω α : Type} [RealOps ω] [RealOps α] [Narrowing ω α] {op : CurlScheme ω α}
  {s t : Snapshot ω α} {q : DerivedQuantity} {e : DerivationFault}
  {r : Snapshot ω α × Outcome} {qs : List DerivedQuantity}

/-- Derives fields one after the other. -/
def deriveEach (op : CurlScheme ω α) :
    List DerivedQuantity → Snapshot ω α → Snapshot ω α × DerivationLog
  | [], s => (s, [])
  | q :: qs, s =>
    let (s, outcome) := derive op s q
    let (s, log) := deriveEach op qs s
    (s, (q, outcome) :: log)

theorem deriveEach_cons : deriveEach op (q :: qs) s =
    ((deriveEach op qs (derive op s q).1).1,
      (q, (derive op s q).2) :: (deriveEach op qs (derive op s q).1).2) := rfl

theorem keys_deriveEach (op : CurlScheme ω α) (qs : List DerivedQuantity) (s : Snapshot ω α) :
    (deriveEach op qs s).2.map Prod.fst = qs := by
  induction qs generalizing s with
  | nil => rfl
  | cons q qs ih => rw [deriveEach_cons, List.map_cons, ih]

theorem deriveAll_eq_deriveEach (fields : List DerivedQuantity) (s : Snapshot ω α)
    (log : DerivationLog) :
    deriveAll op fields s log =
      let rest := (fields.filter fun q => q ∉ log.map Prod.fst).eraseDups
      ((deriveEach op rest s).1, log ++ (deriveEach op rest s).2) := by
  induction fields generalizing s log with
  | nil => exact Prod.ext rfl (List.append_nil _).symm
  | cons q fields ih =>
    rw [deriveAll]
    split
    · rename_i hmem
      rw [ih, List.filter_cons_of_neg (by simpa using hmem)]
    · rename_i hmem
      have hrest : (fields.filter fun q' => q' ∉ (log ++ [(q, (derive op s q).2)]).map Prod.fst) =
          (fields.filter fun q' => q' ∉ log.map Prod.fst).filter fun q' => !q' == q := by
        rw [List.filter_filter]
        refine List.filter_congr fun q' _ => ?_
        rw [Bool.eq_iff_iff]
        simp [and_comm]
      show deriveAll op fields (derive op s q).1 (log ++ [(q, (derive op s q).2)]) = _
      rw [ih, hrest, List.filter_cons_of_pos (by simpa using hmem), List.eraseDups_cons]
      exact Prod.ext rfl (List.append_assoc _ _ _)

theorem derive_eq_deriveEach (op : CurlScheme ω α) (fields : List DerivedQuantity)
    (s : Snapshot ω α) : s.derive op fields = deriveEach op fields.eraseDups s := by
  have hall : (fields.filter fun q => q ∉ ([] : DerivationLog).map Prod.fst) = fields :=
    List.filter_eq_self.mpr fun _ _ => rfl
  rw [Snapshot.derive, deriveAll_eq_deriveEach, hall]
  rfl

theorem run_spec (hop : op.KeepsShapes) (hs : s.Fitted) (qs : List DerivedQuantity) :
    (deriveEach op qs s).1.Fitted ∧ (deriveEach op qs s).1.Extends s := by
  induction qs generalizing s with
  | nil => exact ⟨hs, .refl s⟩
  | cons q qs ih =>
    have hturn := turn_derive hop hs q
    obtain ⟨hfitted, hext⟩ := ih (hturn.fitted hs)
    exact ⟨hfitted, hext.trans hturn.isExtension⟩

variable {fields : List DerivedQuantity}

end Derivation

end GridSnapshot
