import GridSnapshot.Proofs.RecordDefects
import GridSnapshot.Proofs.SnapshotFile
import Mathlib.Data.List.Basic

namespace GridSnapshot

open Outcome Record
open Reading (FailsAs)

namespace CoordinateRecord

variable {ω : Type} {m : PerAxis Nat} {shear : Bool} {values : List ω} {c : CoordinateRecord ω}

theorem toValues_of_split? (h : split? m shear values = some c) :
    c.toValues = values ∧ c.shearOffset.isSome = shear := by
  unfold split? at h
  cases values with
  | nil => cases h
  | cons time rest =>
    simp only at h
    split at h
    · rename_i dx dy dz hrest
      cases h
      refine ⟨?_, rfl⟩
      simp only [toValues, PerAxis.toList, Option.toList_none, List.append_nil, List.append_assoc]
      rw [← hrest, List.take_append_drop, List.take_append_drop, List.take_append_drop]
    · rename_i dx dy dz offset hrest
      cases h
      refine ⟨?_, rfl⟩
      simp only [toValues, PerAxis.toList, Option.toList_some, List.append_assoc, List.cons_append,
        List.nil_append]
      rw [← hrest, List.take_append_drop, List.take_append_drop, List.take_append_drop]
    · cases h

theorem exists_split? (hlen : values.length = total m shear) :
    ∃ c, split? m shear values = some c := by
  unfold split?
  cases values with
  | nil =>
    simp only [List.length_nil, total] at hlen
    omega
  | cons time rest =>
    have hrest : (((rest.drop m.x).drop m.y).drop m.z).length = 3 + shear.toNat := by
      simp only [List.length_cons, total] at hlen
      simp only [List.length_drop]
      omega
    simp only
    generalize ((rest.drop m.x).drop m.y).drop m.z = tail at hrest
    cases shear with
    | false =>
      obtain ⟨dx, dy, dz, rfl⟩ := List.length_eq_three.mp hrest
      exact ⟨_, rfl⟩
    | true =>
      obtain ⟨dx, dy, dz, offset, rfl⟩ := List.length_eq_four.mp hrest
      exact ⟨_, rfl⟩

/-- A list of reals that a word counts is split exactly if it has the right length, and the parts
make up the list. -/
theorem ofValues_eq_ok_iff (h : values.length < Word.count 8) :
    ofValues m shear values = .ok c ↔ c.toValues = values ∧ c.shearOffset.isSome = shear ∧
      ∀ a, (c.coords.get a).length = m.get a := by
  constructor
  · intro hvalues
    obtain ⟨hparts, hshear⟩ := toValues_of_split? (ofValues_eq_ok_iff_split?.mp hvalues).2
    exact ⟨hparts, hshear, length_of_ofValues hvalues⟩
  · rintro ⟨rfl, rfl, hlengths⟩
    rw [length_toValues hlengths] at h
    exact ofValues_toValues hlengths h

theorem ofValues_eq_error_iff (h : total m shear < Word.count 8) {e : RecordFault} :
    ofValues m shear values = .error e ↔ values.length ≠ total m shear ∧
      e = .coordinateCount values.length (total m shear) m shear := by
  unfold ofValues
  rw [count, Word.wrap_eq h]
  split
  · rename_i hlen
    simp only [Except.error.injEq, ne_eq, hlen, not_false_eq_true, true_and]
    exact eq_comm
  · rename_i hlen
    obtain ⟨c, hc⟩ := exists_split? (Decidable.not_not.mp hlen)
    simp only [hc, reduceCtorEq, hlen, false_and]

theorem neverStops_ofValues (h : total m shear < Word.count 8) :
    (Reading.check (ofValues m shear values)).NeverStops := by
  refine .check fun e he => ?_
  rw [((ofValues_eq_error_iff h).mp he).2]
  rfl

theorem failsAs_ofValues_iff (h : total m shear < Word.count 8) {kind : RecordFault.Kind}
    (reals : Array Float) :
    (∃ e, ofValues m shear reals.toList = .error e ∧ e.kind = kind) ↔
      (False ∨ reals.size ≠ total m shear) ∧ kind = .malformed := by
  simp only [ofValues_eq_error_iff h, Array.length_toList, false_or]
  exact Reading.exists_kind_iff

end CoordinateRecord

/-- Words count the reals that the two records of a block have to have. -/
structure BlockForm.FitsWords (spec : BlockForm) : Prop where
  fields_lt : spec.vars * spec.cells < Word.count 8
  coordinates_lt : CoordinateRecord.total spec.extents spec.shear < Word.count 8

namespace Persistence

variable {p : Precision}

theorem neverStops_nextId : nextId.NeverStops := by
  refine Reading.neverStops_next.bind fun found => ?_
  cases found with
  | none => exact .pure none
  | some payload =>
    refine .map (.check fun e he => ?_)
    unfold idNumber at he
    split_ifs at he
    cases he
    rfl

theorem stops_of_decodeValue {kind : PersistentKind} {payload : Bytes} {e : RecordFault}
    (h : decodeValue p kind payload = .error e) : e.stops = false := by
  cases kind with
  | int =>
    have hints := map_eq_error_iff.mp h
    unfold ints at hints
    split_ifs at hints
    cases hints
    rfl
  | real =>
    have hreals := map_eq_error_iff.mp h
    rw [(Reading.reals_eq_error_iff.mp hreals).2]
    rfl

theorem stops_of_addPayload {id : Int} {payload : Bytes} {values : Persistence Float}
    {e : RecordFault} (h : addPayload p id payload values = .error e) : e.stops = false := by
  unfold addPayload at h
  split at h
  · cases h
  · exact stops_of_decodeValue (map_eq_error_iff.mp h)

theorem neverStops_readPairs (fuel : Nat) (id : Int) (values : Persistence Float) :
    (readPairs p fuel id values).NeverStops := by
  induction fuel generalizing id values with
  | zero => exact .throw rfl
  | succ fuel ih =>
    unfold readPairs
    split
    · exact .pure values
    · refine (Reading.neverStops_payload _).bind fun payload => ?_
      refine (Reading.NeverStops.check fun e => stops_of_addPayload).bind fun values => ?_
      refine neverStops_nextId.bind fun found => ?_
      cases found with
      | none => exact .pure values
      | some next => exact ih next values

theorem neverStops_read : (read p).NeverStops := by
  refine neverStops_nextId.bind fun found => ?_
  cases found with
  | none => exact .pure Table.empty
  | some id =>
    simp only
    split
    · refine neverStops_nextId.bind fun found => ?_
      cases found with
      | none => exact .pure Table.empty
      | some id => exact neverStops_readPairs _ id _
    · exact neverStops_readPairs _ id _

end Persistence

namespace Block

variable {α : Type}

/-- How many bytes the record of the variables has. -/
def fieldBytes (spec : BlockForm) : Nat := spec.vars * spec.cells * spec.precision.bytes

/-- How many bytes the record of the time, the coordinates and the spacings has. -/
def coordinateBytes (spec : BlockForm) : Nat :=
  CoordinateRecord.total spec.extents spec.shear * spec.precision.bytes

/-- The bytes start with the two records of a block. -/
structure Stored (spec : BlockForm) (bytes fields coords rest : Bytes) : Prop where
  bytes_eq : bytes = frame fields ++ (frame coords ++ rest)
  cells_pos : 0 < spec.cells
  length_fields : fields.length = fieldBytes spec
  length_coords : coords.length = coordinateBytes spec
  fields_lt : fields.length < 2 ^ 32
  coords_lt : coords.length < 2 ^ 32

/-- The first thing that is wrong with the two records of a block. -/
inductive Defect (spec : BlockForm) (bytes : Bytes) : RecordFault.Kind → Prop where
  | fields {kind} : Record.Defect (fieldBytes spec) bytes kind → Defect spec bytes kind
  | noCells {fields rest} : Framed bytes fields rest → spec.cells = 0 → Defect spec bytes .malformed
  | coordinates {fields rest kind} : Framed bytes fields rest → 0 < spec.cells →
      fields.length = fieldBytes spec → Record.Defect (coordinateBytes spec) rest kind →
      Defect spec bytes kind

/-- The block holds the reals of its two records. -/
structure Contains [Narrowing Float α] (b : Block Float α) (spec : BlockForm)
    (fields coords : Bytes) : Prop where
  data_eq : b.data.toList = (values spec.precision fields).map narrow
  vars_eq : b.vars = spec.vars
  coords_eq : b.coords.toValues = values spec.precision coords
  length_eq : ∀ a, (b.coords.coords.get a).length = spec.extents.get a
  shear_eq : b.coords.shearOffset.isSome = spec.shear

theorem stored_iff {spec : BlockForm} {bytes fields coords rest : Bytes} :
    Stored spec bytes fields coords rest ↔
      ∃ middle, Framed bytes fields middle ∧ Framed middle coords rest ∧ 0 < spec.cells ∧
        fields.length = fieldBytes spec ∧ coords.length = coordinateBytes spec := by
  constructor
  · intro h
    exact ⟨_, ⟨h.bytes_eq, h.fields_lt⟩, ⟨rfl, h.coords_lt⟩, h.cells_pos, h.length_fields,
      h.length_coords⟩
  · rintro ⟨middle, ⟨hbytes, hfields⟩, ⟨rfl, hcoords⟩, hcells, hlength, hlength'⟩
    exact ⟨hbytes, hcells, hlength, hlength', hfields, hcoords⟩

theorem checkCount_eq_error_iff {spec : BlockForm} (h : spec.vars * spec.cells < Word.count 8)
    {data : Array α} {e : RecordFault} :
    checkCount spec data = .error e ↔ (spec.cells = 0 ∨ data.size ≠ spec.vars * spec.cells) ∧
      e = .tensorCount data.size spec.vars spec.cells := by
  have hiff : checkCount spec data = .ok () ↔ _ := checkCount_eq_ok_iff_of_lt h
  unfold checkCount at hiff ⊢
  split
  · rename_i hwrong
    rw [if_pos hwrong] at hiff
    simp only [Except.error.injEq, ne_eq, reduceCtorEq, false_iff] at hiff ⊢
    rw [and_iff_right (Decidable.not_and_iff_not_or_not.mp hiff |>.imp_left Decidable.not_not.mp)]
    exact eq_comm
  · rename_i hright
    rw [if_neg hright] at hiff
    obtain ⟨hcells, hsize⟩ := hiff.mp rfl
    simp only [reduceCtorEq, hcells, hsize, ne_eq, not_true_eq_false, or_self, false_and]

theorem neverStops_checkCount (spec : BlockForm) (data : Array α) :
    (Reading.check (checkCount spec data)).NeverStops := by
  refine .check fun e he => ?_
  unfold checkCount at he
  split_ifs at he
  cases he
  rfl

/-- The persistent values that are read behind the two records of a block. -/
def persistenceBehind (spec : BlockForm) (rest : Bytes) : Except RecordFault (Persistence Float) :=
  ((Persistence.read spec.precision).run.run ⟨rest, 2⟩).1

/-- The form of a file whose persistent values are not read. -/
def plain (spec : BlockForm) : BlockForm := { spec with readsPersistence := false }

variable {spec : BlockForm} {s s' : RecordStream} {kind : RecordFault.Kind}

theorem failsAs_checkCount_iff (h : spec.FitsWords) (data : Array α) :
    (∃ e, checkCount spec data = .error e ∧ e.kind = kind) ↔
      (spec.cells = 0 ∨ data.size ≠ spec.vars * spec.cells) ∧ kind = .malformed := by
  simp only [checkCount_eq_error_iff h.fields_lt]
  exact Reading.exists_kind_iff

/-- The record of the coordinates fails by its own defects only. -/
theorem failsAs_coordinates_iff (h : spec.FitsWords) {data : Array α} :
    FailsAs (Reading.reals "coordinates" spec.precision >>= fun reals : Array Float =>
      Reading.check (CoordinateRecord.ofValues spec.extents spec.shear reals.toList) >>= fun c =>
        (pure ⟨data, spec.vars, c, .empty⟩ : Reading (Block Float α))) s kind ↔
      Record.Defect (coordinateBytes spec) s.rest kind := by
  refine (Reading.failsAs_counted_iff
    (CoordinateRecord.failsAs_ofValues_iff h.coordinates_lt)).trans ?_
  simp only [Reading.not_failsAs_pure, and_false, exists_false, false_and, or_false]
  rfl

variable [Narrowing Float α] {b : Block Float α}

/-- The two records say nothing about what is read behind them. -/
theorem Contains.withPersistence {fields coords : Bytes} (h : b.Contains spec fields coords)
    (values : Persistence Float) :
    ({ b with persistence := values } : Block Float α).Contains spec fields coords :=
  ⟨h.data_eq, h.vars_eq, h.coords_eq, h.length_eq, h.shear_eq⟩

/-- Wide reals are not rounded. -/
theorem map_narrow (xs : List Float) : xs.map (narrow : Float → Float) = xs := List.map_id xs

theorem yields_read_plain_iff (h : spec.FitsWords) :
    Yields (read (plain spec)) s b s' ↔ ∃ fields coords,
      Stored spec s.rest fields coords s'.rest ∧ b.Contains spec fields coords ∧
        b.persistence = .empty ∧ s'.count = s.count + 2 := by
  have hchecked (data : Array α) : checkCount (plain spec) data = .ok () ↔
      spec.cells ≠ 0 ∧ data.size = spec.vars * spec.cells := checkCount_eq_ok_iff_of_lt h.fields_lt
  simp only [yields_read_iff, Reading.yields_reals_iff, map_narrow, stored_iff, hchecked]
  constructor
  · rintro ⟨data, s₁, reals, s₂, c, persistence, ⟨fields, hfields, hcount, hwidth, hdata⟩,
      ⟨hcells, hsize⟩, ⟨coords, hcoords, hcount', hwidth', hreals⟩, hvalues, hpersistence, rfl⟩
    obtain ⟨rfl, rfl⟩ := yields_pure_iff.mp hpersistence
    rw [Reading.size_eq hdata] at hsize
    rw [hreals, CoordinateRecord.ofValues_eq_ok_iff (hcoords.length_values_lt _)] at hvalues
    rw [← hreals] at hvalues
    obtain ⟨hc, hshear, hlengths⟩ := hvalues
    have hnumber : coords.length / (plain spec).precision.bytes =
        CoordinateRecord.total spec.extents spec.shear := by
      rw [← length_values, ← hreals, ← hc, CoordinateRecord.length_toValues hlengths, hshear]
      rfl
    refine ⟨fields, coords, ⟨s₁.rest, hfields, hcoords, Nat.pos_of_ne_zero hcells,
      length_eq_mul_iff.mpr ⟨hwidth, hsize⟩, length_eq_mul_iff.mpr ⟨hwidth', hnumber⟩⟩,
      ⟨hdata, rfl, hc.trans hreals, hlengths, hshear⟩, rfl, ?_⟩
    rw [hcount', hcount]
  · rintro ⟨fields, coords, ⟨middle, hfields, hcoords, hcells, hlength, hlength'⟩, hcontains,
      hpersistence, hcount⟩
    obtain ⟨hwidth, hnumber⟩ := length_eq_mul_iff.mp hlength
    obtain ⟨hwidth', -⟩ := length_eq_mul_iff.mp hlength'
    obtain ⟨data, vars, c, persistence⟩ := b
    obtain ⟨hdata, hvars, hc, hlengths, hshear⟩ := hcontains
    simp only at hdata hvars hc hlengths hshear hpersistence
    subst hvars hpersistence
    refine ⟨data, ⟨middle, s.count + 1⟩, c.toValues.toArray, s', c, .empty,
      ⟨fields, hfields, rfl, hwidth, hdata⟩,
      ⟨Nat.ne_of_gt hcells, (Reading.size_eq hdata).trans hnumber⟩,
      ⟨coords, hcoords, hcount, hwidth', hc⟩, ?_, yields_pure_iff.mpr ⟨rfl, rfl⟩, rfl⟩
    rw [List.toList_toArray, hc, CoordinateRecord.ofValues_eq_ok_iff (hcoords.length_values_lt _)]
    exact ⟨hc, hshear, hlengths⟩

theorem failsAs_read_plain_iff (h : spec.FitsWords) :
    FailsAs (read (plain spec) : Reading (Block Float α)) s kind ↔ Defect spec s.rest kind := by
  have hread : (read (plain spec) : Reading (Block Float α)) =
      Reading.reals "field tensor" spec.precision >>= fun data =>
        Reading.check (checkCount spec data) >>= fun _ =>
          Reading.reals "coordinates" spec.precision >>= fun reals : Array Float =>
            Reading.check (CoordinateRecord.ofValues spec.extents spec.shear reals.toList) >>=
              fun c => pure ⟨data, spec.vars, c, .empty⟩ := rfl
  rw [hread]
  refine (Reading.failsAs_counted_iff (failsAs_checkCount_iff h)).trans ?_
  simp only [failsAs_coordinates_iff h, Reading.yields_reals_iff]
  constructor
  · rintro (hfields | ⟨hcells, rfl, payload, rest, hframed⟩ | ⟨data, done, t, ⟨payload, hframed, -,
      hwidth, hdata⟩, hcount, hcoords⟩)
    · exact .fields hfields
    · exact .noCells hframed hcells
    · obtain ⟨hcells, hsize⟩ := (checkCount_eq_ok_iff_of_lt h.fields_lt).mp hcount
      rw [Reading.size_eq hdata] at hsize
      exact .coordinates hframed (Nat.pos_of_ne_zero hcells)
        (length_eq_mul_iff.mpr ⟨hwidth, hsize⟩) hcoords
  · rintro (hfields | ⟨hframed, hcells⟩ | ⟨hframed, hcells, hlength, hcoords⟩)
    · exact .inl hfields
    · exact .inr (.inl ⟨hcells, rfl, _, _, hframed⟩)
    · obtain ⟨hwidth, hsize⟩ := length_eq_mul_iff.mp hlength
      refine .inr (.inr ⟨((values spec.precision _).map narrow).toArray, (), ⟨_, s.count + 1⟩,
        ⟨_, hframed, rfl, hwidth, rfl⟩,
        (checkCount_eq_ok_iff_of_lt h.fields_lt).mpr ⟨Nat.ne_of_gt hcells, ?_⟩, hcoords⟩)
      rw [Reading.size_eq rfl, hsize]

theorem read_eq_bind : (read spec : Reading (Block Float α)) =
    read (plain spec) >>= fun b => readPersistence spec >>= fun persistence =>
      pure { b with persistence := persistence } := by
  rw [read_eq, read_eq]
  simp only [bind_assoc]
  rfl

/-- The coordinates of what is read come from a record. -/
theorem coordinates_lt_of_decode {bytes : Bytes} (h : (read spec).decode bytes = .ok b) :
    CoordinateRecord.total spec.extents spec.shear < Word.count 8 := by
  obtain ⟨s', h⟩ := Reading.decode_eq_ok_iff.mp h
  obtain ⟨_, _, reals, _, c, _, -, -, hreals, hc, -⟩ := yields_read_iff.mp h
  obtain ⟨coords, hframed, -, -, hvalues⟩ := Reading.yields_reals_iff.mp hreals
  have hsplit := (CoordinateRecord.ofValues_eq_ok_iff_split?.mp hc).2
  rw [← CoordinateRecord.length_eq_of_split? hsplit, hvalues, map_narrow]
  exact hframed.length_values_lt _

/-- Whatever is read starts with the two records of a block. -/
theorem exists_stored_of_decode (hfields : spec.vars * spec.cells < Word.count 8) {bytes : Bytes}
    (h : (read spec).decode bytes = .ok b) :
    ∃ fields coords rest, Stored spec bytes fields coords rest := by
  have hw : spec.FitsWords := ⟨hfields, coordinates_lt_of_decode h⟩
  obtain ⟨s', h⟩ := Reading.decode_eq_ok_iff.mp h
  rw [read_eq_bind] at h
  obtain ⟨head, t, hplain, -⟩ := yields_bind_iff.mp h
  obtain ⟨fields, coords, hstored, -⟩ := (yields_read_plain_iff hw).mp hplain
  exact ⟨fields, coords, t.rest, hstored⟩

/-- The block that two records stand for, before anything is read behind them. -/
theorem Stored.exists_contains {bytes fields coords rest : Bytes}
    (h : Stored spec bytes fields coords rest) :
    ∃ b : Block Float α, b.Contains spec fields coords ∧ b.persistence = .empty := by
  obtain ⟨-, hnumber⟩ := length_eq_mul_iff.mp h.length_coords
  have hlength : (values spec.precision coords).length =
      CoordinateRecord.total spec.extents spec.shear := (length_values _ _).trans hnumber
  obtain ⟨c, hc⟩ := CoordinateRecord.exists_split? hlength
  obtain ⟨hvalues, hshear⟩ := CoordinateRecord.toValues_of_split? hc
  exact ⟨⟨((values spec.precision fields).map narrow).toArray, spec.vars, c, .empty⟩,
    ⟨rfl, rfl, hvalues, CoordinateRecord.length_of_split? hc, hshear⟩, rfl⟩

theorem yields_read_behind_iff (h : spec.FitsWords) {bytes : Bytes}
    (hread : spec.readsPersistence = true) :
    (∃ s', Yields (read spec) ⟨bytes, 0⟩ b s') ↔ ∃ fields coords rest,
      Stored spec bytes fields coords rest ∧ b.Contains spec fields coords ∧
        persistenceBehind spec rest = .ok b.persistence := by
  have hbehind : readPersistence spec = Persistence.read spec.precision := if_pos hread
  rw [read_eq_bind, hbehind]
  simp only [yields_bind_iff, yields_read_plain_iff h, yields_pure_iff, persistenceBehind,
    ← exists_yields_iff]
  constructor
  · rintro ⟨s', head, ⟨middle, n⟩, ⟨fields, coords, hstored, hcontains, -, rfl⟩, values, t, hvalues,
      rfl, rfl⟩
    exact ⟨fields, coords, middle, hstored, hcontains.withPersistence values, s', hvalues⟩
  · rintro ⟨fields, coords, rest, hstored, hcontains, s', hvalues⟩
    exact ⟨s', { b with persistence := .empty }, ⟨rest, 2⟩, ⟨fields, coords, hstored,
      hcontains.withPersistence .empty, rfl, rfl⟩, b.persistence, s', hvalues, rfl, rfl⟩

theorem fails_read_behind_iff (h : spec.FitsWords) {bytes : Bytes} {e : RecordFault}
    (hread : spec.readsPersistence = true) :
    (∃ s', Fails (read spec : Reading (Block Float α)) ⟨bytes, 0⟩ e s') ↔
      (∃ s', Fails (read (plain spec) : Reading (Block Float α)) ⟨bytes, 0⟩ e s') ∨
      ∃ fields coords rest, Stored spec bytes fields coords rest ∧
        persistenceBehind spec rest = .error e := by
  have hbehind : readPersistence spec = Persistence.read spec.precision := if_pos hread
  rw [read_eq_bind, hbehind]
  simp only [fails_bind_iff, yields_read_plain_iff h, persistenceBehind, ← exists_fails_iff,
    exists_or]
  refine or_congr_right ?_
  constructor
  · rintro ⟨s', head, ⟨middle, n⟩, ⟨fields, coords, hstored, -, -, rfl⟩, hfails | ⟨_, _, -, hpure⟩⟩
    · exact ⟨fields, coords, middle, hstored, s', hfails⟩
    · cases hpure
  · rintro ⟨fields, coords, rest, hstored, s', hfails⟩
    obtain ⟨b, hcontains, hempty⟩ := hstored.exists_contains (α := α)
    exact ⟨s', b, ⟨rest, 2⟩, ⟨fields, coords, hstored, hcontains, hempty, rfl⟩, .inl hfails⟩

omit [Narrowing Float α] in
theorem neverStops_readPersistence (spec : BlockForm) : (readPersistence spec).NeverStops := by
  unfold readPersistence
  split
  · exact Persistence.neverStops_read
  · exact .pure Table.empty

theorem neverStops_read (h : spec.FitsWords) :
    (read spec : Reading (Block Float α)).NeverStops := by
  rw [read_eq]
  refine (Reading.neverStops_reals _ _).bind fun data => ?_
  refine (neverStops_checkCount spec data).bind fun _ => ?_
  refine (Reading.neverStops_reals _ _).bind fun reals => ?_
  refine (CoordinateRecord.neverStops_ofValues h.coordinates_lt).bind fun c => ?_
  exact (neverStops_readPersistence spec).bind fun values => .pure _

theorem read_eq_plain (hoff : spec.readsPersistence = false) :
    (read spec : Reading (Block Float α)) = read (plain spec) := by
  rw [plain, ← hoff]

theorem decode_plain_eq_ok_iff (h : spec.FitsWords) {bytes : Bytes}
    (hoff : spec.readsPersistence = false) : (read spec).decode bytes = .ok b ↔
      ∃ fields coords rest, Stored spec bytes fields coords rest ∧ b.Contains spec fields coords ∧
        b.persistence = .empty := by
  rw [Reading.decode_eq_ok_iff, read_eq_plain hoff]
  simp only [yields_read_plain_iff h]
  constructor
  · rintro ⟨s', fields, coords, hstored, hcontains, hempty, -⟩
    exact ⟨fields, coords, s'.rest, hstored, hcontains, hempty⟩
  · rintro ⟨fields, coords, rest, hstored, hcontains, hempty⟩
    exact ⟨⟨rest, 2⟩, fields, coords, hstored, hcontains, hempty, rfl⟩

/-- Records that are there are counted by words. -/
theorem Stored.fitsWords {bytes fields coords rest : Bytes}
    (h : Stored spec bytes fields coords rest) : spec.FitsWords := by
  obtain ⟨middle, hfields, hcoords, -, hlength, hlength'⟩ := stored_iff.mp h
  have hlt := hfields.length_values_lt spec.precision
  have hlt' := hcoords.length_values_lt spec.precision
  rw [length_values, (length_eq_mul_iff.mp hlength).2] at hlt
  rw [length_values, (length_eq_mul_iff.mp hlength').2] at hlt'
  exact ⟨hlt, hlt'⟩

/-- Two records of the right sizes are decoded if what is read behind them is. -/
theorem Stored.exists_decode {bytes fields coords rest : Bytes}
    (h : Stored spec bytes fields coords rest)
    (hbehind : spec.readsPersistence = true → ∃ values, persistenceBehind spec rest = .ok values) :
    ∃ b : Block Float α, (read spec).decode bytes = .ok b ∧ b.Contains spec fields coords := by
  obtain ⟨b, hcontains, hempty⟩ := h.exists_contains (α := α)
  cases hread : spec.readsPersistence with
  | false =>
    exact ⟨b, (decode_plain_eq_ok_iff h.fitsWords hread).mpr ⟨_, _, _, h, hcontains, hempty⟩,
      hcontains⟩
  | true =>
    obtain ⟨values, hvalues⟩ := hbehind hread
    have hcontains' := hcontains.withPersistence values
    refine ⟨_, Reading.decode_eq_ok_iff.mpr ?_, hcontains'⟩
    exact (yields_read_behind_iff h.fitsWords hread).mpr ⟨_, _, _, h, hcontains', hvalues⟩

/-- The block follows from the two records and from what is read behind them, if words count the
reals that the form asks for. -/
theorem decode_grammar (spec : BlockForm) (h : spec.FitsWords) (bytes : Bytes) :
    (spec.readsPersistence = false →
      (∀ b : Block Float α, (read spec).decode bytes = .ok b ↔ ∃ fields coords rest,
        Stored spec bytes fields coords rest ∧ b.Contains spec fields coords ∧
          b.persistence = .empty) ∧
      ∀ kind, (∃ e, (read spec : Reading (Block Float α)).decode bytes = .error e ∧
        e.kind = kind) ↔ Defect spec bytes kind) ∧
    (spec.readsPersistence = true →
      (∀ b : Block Float α, (read spec).decode bytes = .ok b ↔ ∃ fields coords rest,
        Stored spec bytes fields coords rest ∧ b.Contains spec fields coords ∧
          persistenceBehind spec rest = .ok b.persistence) ∧
      ∀ e, (read spec : Reading (Block Float α)).decode bytes = .error e ↔
        (read (plain spec) : Reading (Block Float α)).decode bytes = .error e ∨
        ∃ fields coords rest, Stored spec bytes fields coords rest ∧
          persistenceBehind spec rest = .error e) ∧
    ∀ e, (read spec : Reading (Block Float α)).decode bytes = .error e → e.stops = false := by
  refine ⟨fun hoff => ⟨fun b => decode_plain_eq_ok_iff h hoff, fun kind => ?_⟩,
    fun hon => ⟨fun b => ?_, fun e => ?_⟩, fun e => (neverStops_read h).of_decode⟩
  · rw [read_eq_plain hoff, Reading.exists_decode_eq_error_iff, failsAs_read_plain_iff h]
  · rw [Reading.decode_eq_ok_iff, yields_read_behind_iff h hon]
  · simp only [Reading.decode, ← exists_fails_iff, fails_read_behind_iff h hon]

/-- The form of a file with one cell. -/
def oneCell (readsPersistence : Bool) : BlockForm :=
  ⟨.double, ⟨1, 1, 1⟩, 1, 1, false, readsPersistence⟩

def oneCellFile : Bytes := frame (List.replicate 8 0) ++ frame (List.replicate 56 0)

theorem stored_oneCellFile (readsPersistence : Bool) (rest : Bytes) :
    Stored (oneCell readsPersistence) (oneCellFile ++ rest) (List.replicate 8 0)
      (List.replicate 56 0) rest where
  bytes_eq := by rw [oneCellFile, List.append_assoc]
  cells_pos := Nat.one_pos
  length_fields := List.length_replicate
  length_coords := List.length_replicate
  fields_lt := by rw [List.length_replicate]; decide
  coords_lt := by rw [List.length_replicate]; decide

theorem fitsWords_oneCell (readsPersistence : Bool) : (oneCell readsPersistence).FitsWords where
  fields_lt := by
    show 1 * 1 < Word.count 8
    decide
  coordinates_lt := by
    show CoordinateRecord.total (.uniform 1) false < Word.count 8
    decide

theorem decode_grammar_oneCell :
    (∃ b : Block Float Float,
      (read (oneCell false)).decode (oneCellFile ++ [1, 2, 3]) = .ok b) ∧
    (∃ e, (read (oneCell false) : Reading (Block Float Float)).decode [8, 0, 0, 0, 0] = .error e ∧
      e.kind = .unexpectedEnd) ∧
    ∃ e, (read (oneCell true) : Reading (Block Float Float)).decode (oneCellFile ++ [1, 2, 3]) =
      .error e := by
  have hstored := stored_oneCellFile false [1, 2, 3]
  obtain ⟨b, hcontains, hempty⟩ := hstored.exists_contains (α := Float)
  have hplain := (decode_grammar (α := Float) (oneCell false) (fitsWords_oneCell false)
    (oneCellFile ++ [1, 2, 3])).1 rfl
  have hshort := (decode_grammar (α := Float) (oneCell false) (fitsWords_oneCell false)
    [8, 0, 0, 0, 0]).1 rfl
  have hbehind := (decode_grammar (α := Float) (oneCell true) (fitsWords_oneCell true)
    (oneCellFile ++ [1, 2, 3])).2.1 rfl
  refine ⟨⟨b, (hplain.1 b).mpr ⟨_, _, _, hstored, hcontains, hempty⟩⟩, ?_, ?_⟩
  · exact (hshort.2 _).mpr (.fields (.broken (.short (by unfold StopsShort; decide))))
  · exact ⟨.shortMarker 3, (hbehind.2 _).mpr
      (.inr ⟨_, _, [1, 2, 3], stored_oneCellFile true [1, 2, 3], rfl⟩)⟩

/-- A form that asks for so many coordinates that a word counts four reals. -/
def hugeForm : BlockForm :=
  ⟨.double, ⟨9223372036854775808, 9223372036854775808, 0⟩, 1, 1, false, false⟩

def hugeFormFile : Bytes := frame (List.replicate 8 0) ++ frame (List.replicate 32 0)

/-- Four reals are too few for the coordinates, and the program stops where it cuts them. -/
theorem decode_hugeForm_stops : Defect hugeForm hugeFormFile .malformed ∧
    ∃ e, (read hugeForm : Reading (Block Float Float)).decode hugeFormFile = .error e ∧
      e.stops = true := by
  refine ⟨?_, .outOfRange, rfl, rfl⟩
  have hfields : Framed hugeFormFile (List.replicate 8 0) (frame (List.replicate 32 0)) :=
    ⟨rfl, by rw [List.length_replicate]; decide⟩
  have hcoords : Framed (frame (List.replicate 32 0)) (List.replicate 32 0) [] :=
    ⟨rfl, by rw [List.length_replicate]; decide⟩
  exact .coordinates hfields Nat.one_pos rfl (.count hcoords (by decide))

end Block

end GridSnapshot
