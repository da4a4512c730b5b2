import GridSnapshot.Block
import GridSnapshot.Proofs.Outcome

namespace GridSnapshot

open Outcome

namespace Reading

variable {α : Type} {s s' : RecordStream} {a : α}

theorem yields_check_iff {e : Except RecordFault α} :
    Yields (check e) s a s' ↔ e = .ok a ∧ s' = s := by
  constructor
  · intro h
    cases h
    exact ⟨rfl, rfl⟩
  · intro hboth
    obtain ⟨rfl, rfl⟩ := hboth
    rfl

theorem decode_eq_ok_iff {step : Reading α} {bytes : Bytes} :
    decode step bytes = .ok a ↔ ∃ s', Yields step ⟨bytes, 0⟩ a s' := by
  unfold decode Yields
  constructor
  · intro h
    exact ⟨_, Prod.ext h rfl⟩
  · intro hex
    obtain ⟨s', h⟩ := hex
    rw [h]

end Reading

namespace CoordinateRecord

variable {ω : Type} {m : PerAxis Nat} {shear : Bool} {values : List ω} {c : CoordinateRecord ω}

/-- What is cut has a time, all coordinates and what follows them. -/
theorem length_eq_of_split? (h : split? m shear values = some c) :
    values.length = total m shear := by
  unfold split? at h
  cases values with
  | nil => cases h
  | cons time rest =>
    simp only at h
    rw [List.length_cons, total]
    split at h
    · rename_i hrest
      have hlength := congrArg List.length hrest
      simp only [List.length_drop, List.length_cons, List.length_nil, Bool.toNat_false] at hlength ⊢
      omega
    · rename_i hrest
      have hlength := congrArg List.length hrest
      simp only [List.length_drop, List.length_cons, List.length_nil, Bool.toNat_true] at hlength ⊢
      omega
    · cases h

theorem length_of_split? (h : split? m shear values = some c) (a : Axis) :
    (c.coords.get a).length = m.get a := by
  have hlen := length_eq_of_split? h
  unfold split? at h
  cases values with
  | nil => cases h
  | cons time rest =>
    simp only [List.length_cons, total] at hlen
    simp only at h
    split at h
    · cases h
      cases a <;> simp only [PerAxis.get, List.length_take, List.length_drop] <;> omega
    · cases h
      cases a <;> simp only [PerAxis.get, List.length_take, List.length_drop] <;> omega
    · cases h

theorem ofValues_eq_ok_iff_split? :
    ofValues m shear values = .ok c ↔
      values.length = count m shear ∧ split? m shear values = some c := by
  unfold ofValues
  split
  · rename_i hlen
    simp only [reduceCtorEq, hlen, false_and]
  · rename_i hlen
    rw [and_iff_right (Decidable.not_not.mp hlen)]
    split
    · rename_i hsplit
      simp only [Except.ok.injEq, hsplit, Option.some.injEq]
    · rename_i hsplit
      simp only [reduceCtorEq, hsplit]

theorem length_of_ofValues (h : ofValues m shear values = .ok c) (a : Axis) :
    (c.coords.get a).length = m.get a :=
  length_of_split? (ofValues_eq_ok_iff_split?.mp h).2 a

end CoordinateRecord

namespace Block

variable {α : Type} [Narrowing Float α] {spec : BlockForm} {bytes : Bytes} {b : Block Float α}
  {s s' : RecordStream}

/-- The last step of a block: the persistent values, on demand. -/
def readPersistence (spec : BlockForm) : Reading (Persistence Float) :=
  if spec.readsPersistence then Persistence.read spec.precision else pure .empty

theorem read_eq : (read spec : Reading (Block Float α)) =
    Reading.reals "field tensor" spec.precision >>= fun data =>
      Reading.check (checkCount spec data) >>= fun _ =>
        Reading.reals "coordinates" spec.precision >>= fun values : Array Float =>
          Reading.check (CoordinateRecord.ofValues spec.extents spec.shear values.toList) >>=
            fun coords => readPersistence spec >>= fun persistence =>
              pure ⟨data, spec.vars, coords, persistence⟩ := by
  unfold read readPersistence
  cases spec.readsPersistence with
  | false => rfl
  | true => rfl

theorem yields_read_iff :
    Yields (read spec) s b s' ↔ ∃ data s₁, ∃ values : Array Float, ∃ s₂ coords persistence,
      Yields (Reading.reals "field tensor" spec.precision) s data s₁ ∧
      checkCount spec data = .ok () ∧
      Yields (Reading.reals "coordinates" spec.precision) s₁ values s₂ ∧
      CoordinateRecord.ofValues spec.extents spec.shear values.toList = .ok coords ∧
      Yields (readPersistence spec) s₂ persistence s' ∧
      b = ⟨data, spec.vars, coords, persistence⟩ := by
  rw [read_eq]
  simp only [yields_bind_iff, yields_pure_iff, Reading.yields_check_iff]
  constructor
  · rintro ⟨data, s₁, hdata, done, t, ⟨hcount, rfl⟩, values, s₂, hvalues, coords, u, ⟨hcoords, rfl⟩,
      persistence, s₃, hpersistence, rfl, rfl⟩
    exact ⟨data, t, values, u, coords, persistence, hdata, hcount, hvalues, hcoords, hpersistence,
      rfl⟩
  · rintro ⟨data, s₁, values, s₂, coords, persistence, hdata, hcount, hvalues, hcoords,
      hpersistence, rfl⟩
    exact ⟨data, s₁, hdata, (), s₁, ⟨hcount, rfl⟩, values, s₂, hvalues, coords, s₂, ⟨hcoords, rfl⟩,
      persistence, s', hpersistence, rfl, rfl⟩

/-- The sizes of a block that was decoded with the given form. -/
structure Matches (b : Block Float α) (spec : BlockForm) : Prop where
  vars_eq : b.vars = spec.vars
  size_eq : b.data.size = Word.wrap (spec.vars * spec.cells)
  length_eq : ∀ a, (b.coords.coords.get a).length = spec.extents.get a

omit [Narrowing Float α] in
theorem checkCount_eq_ok_iff {data : Array α} :
    checkCount spec data = .ok () ↔ spec.cells ≠ 0 ∧ data.size % spec.cells = 0 ∧
      data.size = Word.wrap (spec.vars * spec.cells) := by
  unfold checkCount
  split
  · rename_i hwrong
    simp only [reduceCtorEq, false_iff]
    rintro ⟨hcells, hwhole, hsize⟩
    rcases hwrong with hnone | hpart | hother
    · exact hcells hnone
    · exact hpart hwhole
    · exact hother hsize
  · rename_i hright
    simpa only [not_or, ne_eq, Decidable.not_not, true_iff] using hright

omit [Narrowing Float α] in
/-- A product of words that is one itself has to be the number of values. -/
theorem checkCount_eq_ok_iff_of_lt {data : Array α} (h : spec.vars * spec.cells < Word.count 8) :
    checkCount spec data = .ok () ↔ spec.cells ≠ 0 ∧ data.size = spec.vars * spec.cells := by
  rw [checkCount_eq_ok_iff, Word.wrap_eq h]
  refine and_congr_right fun _ => and_iff_right_of_imp fun hsize => ?_
  rw [hsize, Nat.mul_mod_left]

theorem matches_of_decode (h : (read spec).decode bytes = .ok b) : b.Matches spec := by
  obtain ⟨s', h⟩ := Reading.decode_eq_ok_iff.mp h
  obtain ⟨data, s₁, values, s₂, coords, persistence, -, hcount, -, hcoords, -, rfl⟩ :=
    yields_read_iff.mp h
  exact ⟨rfl, (checkCount_eq_ok_iff.mp hcount).2.2, CoordinateRecord.length_of_ofValues hcoords⟩

end Block

end GridSnapshot
