import GridSnapshot.GridFile
import GridSnapshot.Proofs.BlockGrammar

namespace GridSnapshot

open Outcome Record
open Reading (FailsAs)

namespace GridFile

variable {p : Precision} {m : PerAxis Nat} {s s' : RecordStream} {kind : RecordFault.Kind}
  {rest payload : Bytes}

/-- How many bytes the record of the coordinates has. -/
def coordinateBytes (p : Precision) (m : PerAxis Nat) : Nat :=
  CoordinateRecord.total m false * p.bytes

/-- How many bytes the record of the inverse spacings has. -/
def inverseBytes (p : Precision) (m : PerAxis Nat) : Nat := (m.x + m.y + m.z) * p.bytes

/-- Nothing follows but at most two framed records. -/
def EndsEarly (rest : Bytes) : Prop :=
  ∃ payloads, payloads.length ≤ 2 ∧ (∀ payload ∈ payloads, payload.length < 2 ^ 32) ∧
    rest = Record.encode payloads

/-- Two framed records follow, whatever they hold, and behind them the fourth. -/
def LeadsTo (rest fourth : Bytes) : Prop :=
  ∃ second middle third, Framed rest second middle ∧ Framed middle third fourth

/-- What follows the record of the coordinates: too few records for inverse spacings, or the payload
with the inverse spacings. -/
inductive Tail (p : Precision) (m : PerAxis Nat) (rest : Bytes) : Option Bytes → Prop where
  | early : EndsEarly rest → Tail p m rest none
  | full {fourth payload behind : Bytes} : LeadsTo rest fourth → Framed fourth payload behind →
      payload.length = inverseBytes p m → Tail p m rest (some payload)

/-- The bytes are a grid file with these payloads of coordinates and of inverse spacings. -/
def Stored (p : Precision) (m : PerAxis Nat) (bytes coords : Bytes) (inverse : Option Bytes) :
    Prop :=
  ∃ rest, Framed bytes coords rest ∧ coords.length = coordinateBytes p m ∧ Tail p m rest inverse

/-- The inverse spacings are those of the payload or, without one, those of the nominal spacings,
zero for no spacing. -/
def HoldsInverse (p : Precision) (m : PerAxis Nat) (spacing : PerAxis Float)
    (inverse : PerAxis (List Float)) : Option Bytes → Prop
  | some payload => inverse.x ++ inverse.y ++ inverse.z = values p payload
  | none => ∀ a, inverse.get a =
      List.replicate (m.get a) (if spacing.get a == 0.0 then 0.0 else 1.0 / spacing.get a)

/-- The grid holds the reals of the payloads; the first one, the time, is left out. -/
structure Holds (g : Grid Float) (p : Precision) (m : PerAxis Nat) (coords : Bytes)
    (inverse : Option Bytes) : Prop where
  values_eq : ∃ time, time :: (g.coords.x ++ g.coords.y ++ g.coords.z ++ g.spacing.toList) =
    values p coords
  length_eq : ∀ a, (g.coords.get a).length = m.get a
  inverse_eq : HoldsInverse p m g.spacing g.inverse inverse
  length_inverse : ∀ a, (g.inverse.get a).length = m.get a

/-- The first thing that is wrong with a grid file. Where the file may end, what is there has to be
a record. -/
inductive Defect (p : Precision) (m : PerAxis Nat) (bytes : Bytes) : RecordFault.Kind → Prop where
  | coordinates {kind : RecordFault.Kind} : Record.Defect (coordinateBytes p m) bytes kind →
      Defect p m bytes kind
  | second {coords rest : Bytes} {kind : RecordFault.Kind} : Framed bytes coords rest →
      coords.length = coordinateBytes p m → rest ≠ [] → Broken rest kind → Defect p m bytes kind
  | third {coords rest second middle : Bytes} {kind : RecordFault.Kind} :
      Framed bytes coords rest → coords.length = coordinateBytes p m →
      Framed rest second middle → middle ≠ [] → Broken middle kind → Defect p m bytes kind
  | inverse {coords rest fourth : Bytes} {kind : RecordFault.Kind} : Framed bytes coords rest →
      coords.length = coordinateBytes p m → LeadsTo rest fourth → fourth ≠ [] →
      Record.Defect (inverseBytes p m) fourth kind → Defect p m bytes kind

theorem endsEarly_iff : EndsEarly rest ↔ rest = [] ∨ (∃ second, Framed rest second []) ∨
    LeadsTo rest [] := by
  constructor
  · rintro ⟨payloads, hlength, hshort, rfl⟩
    match payloads with
    | [] => exact .inl rfl
    | [second] =>
      have hsecond := hshort second (by simp)
      exact .inr (.inl ⟨second, encode_cons _ _, hsecond⟩)
    | [second, third] =>
      have hsecond := hshort second (by simp)
      have hthird := hshort third (by simp)
      exact .inr (.inr ⟨second, _, third, ⟨encode_cons _ _, hsecond⟩, encode_cons _ _, hthird⟩)
    | _ :: _ :: _ :: _ => simp at hlength
  · rintro (rfl | ⟨second, rfl, hsecond⟩ | ⟨second, middle, third, ⟨rfl, hsecond⟩, rfl, hthird⟩)
    · exact ⟨[], by simp, by simp, rfl⟩
    · exact ⟨[second], by simp, by simpa using hsecond, (encode_cons second []).symm⟩
    · refine ⟨[second, third], by simp, ?_, ?_⟩
      · simpa using ⟨hsecond, hthird⟩
      · rw [encode_cons, encode_cons]
        rfl

theorem yields_inverseRecord_some_iff : Yields inverseRecord s (some payload) s' ↔
    ∃ fourth, LeadsTo s.rest fourth ∧ Framed fourth payload s'.rest ∧ s'.count = s.count + 3 := by
  constructor
  · intro h
    obtain ⟨found, t, hsecond, h⟩ := yields_bind_iff.mp h
    cases found with
    | none => cases yields_pure_iff.mp h |>.1
    | some second =>
      obtain ⟨found, u, hthird, h⟩ := yields_bind_iff.mp h
      cases found with
      | none => cases yields_pure_iff.mp h |>.1
      | some third =>
        obtain ⟨hsecond, hcount⟩ := Reading.yields_next_some_iff.mp hsecond
        obtain ⟨hthird, hcount'⟩ := Reading.yields_next_some_iff.mp hthird
        obtain ⟨hfourth, hcount''⟩ := Reading.yields_next_some_iff.mp h
        exact ⟨u.rest, ⟨second, t.rest, third, hsecond, hthird⟩, hfourth, by omega⟩
  · rintro ⟨fourth, ⟨second, middle, third, hsecond, hthird⟩, hfourth, hcount⟩
    refine yields_bind_iff.mpr ⟨some second, ⟨middle, s.count + 1⟩, ?_, ?_⟩
    · exact Reading.yields_next_some_iff.mpr ⟨hsecond, rfl⟩
    refine yields_bind_iff.mpr ⟨some third, ⟨fourth, s.count + 2⟩, ?_, ?_⟩
    · exact Reading.yields_next_some_iff.mpr ⟨hthird, rfl⟩
    · exact Reading.yields_next_some_iff.mpr ⟨hfourth, hcount⟩

theorem exists_yields_inverseRecord_none_iff :
    (∃ s', Yields inverseRecord s none s') ↔ EndsEarly s.rest := by
  rw [endsEarly_iff]
  constructor
  · rintro ⟨s', h⟩
    obtain ⟨found, t, hsecond, h⟩ := yields_bind_iff.mp h
    cases found with
    | none => exact .inl (Reading.yields_next_none_iff.mp hsecond).1
    | some second =>
      obtain ⟨hsecond, -⟩ := Reading.yields_next_some_iff.mp hsecond
      obtain ⟨found, u, hthird, h⟩ := yields_bind_iff.mp h
      cases found with
      | none =>
        obtain ⟨hend, -⟩ := Reading.yields_next_none_iff.mp hthird
        exact .inr (.inl ⟨second, hend ▸ hsecond⟩)
      | some third =>
        obtain ⟨hthird, -⟩ := Reading.yields_next_some_iff.mp hthird
        obtain ⟨hend, -⟩ := Reading.yields_next_none_iff.mp h
        exact .inr (.inr ⟨second, t.rest, third, hsecond, hend ▸ hthird⟩)
  · rintro (hend | ⟨second, hsecond⟩ | ⟨second, middle, third, hsecond, hthird⟩)
    · exact ⟨s, yields_bind_iff.mpr ⟨none, s, Reading.yields_next_none_iff.mpr ⟨hend, rfl⟩, rfl⟩⟩
    · refine ⟨⟨[], s.count + 1⟩, yields_bind_iff.mpr ⟨some second, ⟨[], s.count + 1⟩, ?_, ?_⟩⟩
      · exact Reading.yields_next_some_iff.mpr ⟨hsecond, rfl⟩
      · exact yields_bind_iff.mpr ⟨none, _, Reading.yields_next_none_iff.mpr ⟨rfl, rfl⟩, rfl⟩
    · refine ⟨⟨[], s.count + 2⟩, yields_bind_iff.mpr ⟨some second, ⟨middle, s.count + 1⟩, ?_, ?_⟩⟩
      · exact Reading.yields_next_some_iff.mpr ⟨hsecond, rfl⟩
      refine yields_bind_iff.mpr ⟨some third, ⟨[], s.count + 2⟩, ?_, ?_⟩
      · exact Reading.yields_next_some_iff.mpr ⟨hthird, rfl⟩
      · exact Reading.yields_next_none_iff.mpr ⟨rfl, rfl⟩

theorem failsAs_inverseRecord_iff : FailsAs inverseRecord s kind ↔
    (s.rest ≠ [] ∧ Broken s.rest kind) ∨
    (∃ second middle, Framed s.rest second middle ∧ middle ≠ [] ∧ Broken middle kind) ∨
    ∃ fourth, LeadsTo s.rest fourth ∧ fourth ≠ [] ∧ Broken fourth kind := by
  unfold inverseRecord
  rw [Reading.failsAs_bind_iff, Reading.failsAs_next_iff]
  refine or_congr_right ?_
  constructor
  · rintro ⟨found, t, hsecond, h⟩
    cases found with
    | none => exact absurd h Reading.not_failsAs_pure
    | some second =>
      obtain ⟨hsecond, -⟩ := Reading.yields_next_some_iff.mp hsecond
      rcases Reading.failsAs_bind_iff.mp h with h | ⟨found, u, hthird, h⟩
      · exact .inl ⟨second, t.rest, hsecond, Reading.failsAs_next_iff.mp h⟩
      · cases found with
        | none => exact absurd h Reading.not_failsAs_pure
        | some third =>
          obtain ⟨hthird, -⟩ := Reading.yields_next_some_iff.mp hthird
          exact .inr ⟨u.rest, ⟨second, t.rest, third, hsecond, hthird⟩,
            Reading.failsAs_next_iff.mp h⟩
  · rintro (⟨second, middle, hsecond, hbroken⟩ |
      ⟨fourth, ⟨second, middle, third, hsecond, hthird⟩, hbroken⟩)
    · refine ⟨some second, ⟨middle, s.count + 1⟩,
        Reading.yields_next_some_iff.mpr ⟨hsecond, rfl⟩, ?_⟩
      exact Reading.failsAs_bind_iff.mpr (.inl (Reading.failsAs_next_iff.mpr hbroken))
    · refine ⟨some second, ⟨middle, s.count + 1⟩,
        Reading.yields_next_some_iff.mpr ⟨hsecond, rfl⟩, ?_⟩
      refine Reading.failsAs_bind_iff.mpr (.inr ⟨some third, ⟨fourth, s.count + 2⟩, ?_, ?_⟩)
      · exact Reading.yields_next_some_iff.mpr ⟨hthird, rfl⟩
      · exact Reading.failsAs_next_iff.mpr hbroken

/-- A word counts the inverse spacings if it counts what the first record holds. -/
theorem wrap_sum (h : CoordinateRecord.total m false < Word.count 8) :
    Word.wrap (m.x + m.y + m.z) = m.x + m.y + m.z := by
  rw [CoordinateRecord.total] at h
  exact Word.wrap_eq (by omega)

theorem splitInverse_eq_ok_iff (h : CoordinateRecord.total m false < Word.count 8)
    {values : List Float} {inverse : PerAxis (List Float)} :
    splitInverse m values = .ok inverse ↔ inverse.x ++ inverse.y ++ inverse.z = values ∧
      ∀ a, (inverse.get a).length = m.get a := by
  unfold splitInverse
  simp only [wrap_sum h]
  constructor
  · intro h
    split at h
    · cases h
    · rename_i hlength
      cases h
      refine ⟨?_, fun a => ?_⟩
      · rw [← List.drop_drop, List.append_assoc, List.take_append_drop, List.take_append_drop]
      · cases a <;> simp only [PerAxis.get, List.length_take, List.length_drop] <;> omega
  · rintro ⟨rfl, hlengths⟩
    have hx : inverse.x.length = m.x := hlengths .x
    have hy : inverse.y.length = m.y := hlengths .y
    have hz : inverse.z.length = m.z := hlengths .z
    have hlength : (inverse.x ++ inverse.y ++ inverse.z).length = m.x + m.y + m.z := by
      simp only [List.length_append, hx, hy, hz]
    have hfirst : (inverse.x ++ inverse.y).length = m.x + m.y := by
      rw [List.length_append, hx, hy]
    simp only [hlength, ne_eq, not_true_eq_false, if_false]
    rw [List.drop_left' hfirst, List.append_assoc, List.take_left' hx, List.drop_left' hx,
      List.take_left' hy]

theorem splitInverse_eq_error_iff (h : CoordinateRecord.total m false < Word.count 8)
    {values : List Float} {e : RecordFault} :
    splitInverse m values = .error e ↔ values.length ≠ m.x + m.y + m.z ∧
      e = .inverseCount values.length (m.x + m.y + m.z) := by
  unfold splitInverse
  simp only [wrap_sum h]
  split
  · rename_i hlength
    simp only [Except.error.injEq, ne_eq, hlength, not_false_eq_true, true_and]
    exact eq_comm
  · rename_i hlength
    simp only [reduceCtorEq, hlength, false_and]

/-- The inverse spacings of a file, from the records behind the coordinates. -/
def inverses (p : Precision) (m : PerAxis Nat) (spacing : PerAxis Float) :
    Reading (PerAxis (List Float)) := do
  match ← inverseRecord with
  | none => pure (uniformInverse m spacing)
  | some payload =>
    let values : Array Float ← Reading.check (Record.reals p payload)
    Reading.check (splitInverse m values.toList)

/-- The coordinates of a file, from its first record. -/
def coordinates (p : Precision) (m : PerAxis Nat) : Reading (CoordinateRecord Float) := do
  let values : Array Float ← Reading.reals "grid coordinates" p
  Reading.check (CoordinateRecord.ofValues m false values.toList)

theorem read_eq_bind : read p m = coordinates p m >>= fun c =>
    inverses p m c.spacing >>= fun inverse => pure ⟨c.coords, c.spacing, inverse⟩ := by
  unfold read coordinates inverses
  simp only [bind_assoc]
  refine bind_congr fun values => bind_congr fun c => bind_congr fun found => ?_
  cases found with
  | none => rfl
  | some payload => simp only [bind_assoc]

variable {spacing : PerAxis Float} {inverse : PerAxis (List Float)}

theorem eq_uniformInverse_iff :
    inverse = uniformInverse m spacing ↔ HoldsInverse p m spacing inverse none := by
  constructor
  · rintro rfl a
    exact PerAxis.get_ofFn _ a
  · intro h
    ext1 a
    rw [h a, uniformInverse, PerAxis.get_ofFn, GridFile.inverse]

theorem length_uniformInverse (m : PerAxis Nat) (spacing : PerAxis Float) (a : Axis) :
    ((uniformInverse m spacing).get a).length = m.get a := by
  rw [uniformInverse, PerAxis.get_ofFn, List.length_replicate]

theorem exists_yields_inverses_iff (h : CoordinateRecord.total m false < Word.count 8) :
    (∃ s', Yields (inverses p m spacing) s inverse s') ↔
    ∃ payload, Tail p m s.rest payload ∧ HoldsInverse p m spacing inverse payload ∧
      ∀ a, (inverse.get a).length = m.get a := by
  unfold inverses
  simp only [yields_bind_iff]
  constructor
  · rintro ⟨s', found, t, hfound, hbehind⟩
    cases found with
    | none =>
      obtain ⟨rfl, rfl⟩ := yields_pure_iff.mp hbehind
      refine ⟨none, .early (exists_yields_inverseRecord_none_iff.mp ⟨_, hfound⟩), ?_, ?_⟩
      · exact eq_uniformInverse_iff.mp rfl
      · exact length_uniformInverse m spacing
    | some payload =>
      obtain ⟨values, u, hvalues, hparts⟩ := yields_bind_iff.mp hbehind
      obtain ⟨hreals, -⟩ := Reading.yields_check_iff.mp hvalues
      obtain ⟨hsplit, -⟩ := Reading.yields_check_iff.mp hparts
      obtain ⟨hwidth, hdecoded⟩ := Reading.reals_eq_ok_iff.mp hreals
      obtain ⟨hparts, hlengths⟩ := (splitInverse_eq_ok_iff h).mp hsplit
      obtain ⟨fourth, hleads, hframed, -⟩ := yields_inverseRecord_some_iff.mp hfound
      rw [hdecoded, Block.map_narrow] at hparts
      have hx : inverse.x.length = m.x := hlengths .x
      have hy : inverse.y.length = m.y := hlengths .y
      have hz : inverse.z.length = m.z := hlengths .z
      have hnumber : payload.length / p.bytes = m.x + m.y + m.z := by
        rw [← length_values, ← hparts, List.length_append, List.length_append, hx, hy, hz]
      exact ⟨some payload, .full hleads hframed (length_eq_mul_iff.mpr ⟨hwidth, hnumber⟩), hparts,
        hlengths⟩
  · rintro ⟨payload, htail, hholds, hlengths⟩
    cases htail with
    | early hend =>
      obtain ⟨s', hfound⟩ := exists_yields_inverseRecord_none_iff.mpr hend
      refine ⟨s', none, s', hfound, yields_pure_iff.mpr ⟨?_, rfl⟩⟩
      exact eq_uniformInverse_iff.mpr hholds
    | @full fourth payload behind hleads hframed hlength =>
      have hfound : Yields inverseRecord s (some payload) ⟨behind, s.count + 3⟩ :=
        yields_inverseRecord_some_iff.mpr ⟨fourth, hleads, hframed, rfl⟩
      have hreals : Record.reals p payload = .ok (values p payload).toArray :=
        Reading.reals_eq_ok_iff.mpr
          ⟨(length_eq_mul_iff.mp hlength).1, (Block.map_narrow _).symm⟩
      refine ⟨⟨behind, s.count + 3⟩, some payload, ⟨behind, s.count + 3⟩, hfound, ?_⟩
      refine yields_bind_iff.mpr ⟨_, _, Reading.yields_check_iff.mpr ⟨hreals, rfl⟩, ?_⟩
      exact Reading.yields_check_iff.mpr ⟨(splitInverse_eq_ok_iff h).mpr ⟨hholds, hlengths⟩, rfl⟩

/-- A payload fails as inverse spacings by its length only. -/
theorem failsAs_payload_iff (h : CoordinateRecord.total m false < Word.count 8) :
    FailsAs (Reading.check (Record.reals p payload) >>=
      fun values : Array Float => Reading.check (splitInverse m values.toList)) s kind ↔
    payload.length ≠ inverseBytes p m ∧ kind = .malformed := by
  simp only [Reading.failsAs_bind_iff, Reading.failsAs_check_iff, Reading.yields_check_iff,
    splitInverse_eq_error_iff h]
  constructor
  · rintro (⟨e, hreals, rfl⟩ | ⟨values, t, ⟨hreals, rfl⟩, e, ⟨hlength, rfl⟩, rfl⟩)
    · obtain ⟨hwidth, rfl⟩ := Reading.reals_eq_error_iff.mp hreals
      exact ⟨fun hlength => hwidth (length_eq_mul_iff.mp hlength).1, rfl⟩
    · obtain ⟨hwidth, hvalues⟩ := Reading.reals_eq_ok_iff.mp hreals
      rw [Array.length_toList, Reading.size_eq hvalues] at hlength
      exact ⟨fun hcount => hlength (length_eq_mul_iff.mp hcount).2, rfl⟩
  · rintro ⟨hlength, rfl⟩
    by_cases hwidth : payload.length % p.bytes = 0
    · have hvalues : (values p payload).toArray.toList = (values p payload).map narrow :=
        (Block.map_narrow _).symm
      refine .inr ⟨_, s, ⟨Reading.reals_eq_ok_iff.mpr ⟨hwidth, hvalues⟩, rfl⟩, _, ⟨?_, rfl⟩, rfl⟩
      rw [Array.length_toList, Reading.size_eq hvalues]
      exact fun hcount => hlength (length_eq_mul_iff.mpr ⟨hwidth, hcount⟩)
    · exact .inl ⟨_, Reading.reals_eq_error_iff.mpr ⟨hwidth, rfl⟩, rfl⟩

theorem ne_nil_of_framed (h : Framed rest payload s.rest) : rest ≠ [] := by
  intro hnil
  have hlength := congrArg List.length (hnil.symm.trans h.bytes_eq)
  rw [List.length_nil, List.length_append, length_frame] at hlength
  omega

theorem failsAs_inverses_iff (h : CoordinateRecord.total m false < Word.count 8) :
    FailsAs (inverses p m spacing) s kind ↔
    (s.rest ≠ [] ∧ Broken s.rest kind) ∨
    (∃ second middle, Framed s.rest second middle ∧ middle ≠ [] ∧ Broken middle kind) ∨
    ∃ fourth, LeadsTo s.rest fourth ∧ fourth ≠ [] ∧
      Record.Defect (inverseBytes p m) fourth kind := by
  unfold inverses
  rw [Reading.failsAs_bind_iff, failsAs_inverseRecord_iff]
  constructor
  · rintro ((hsecond | hthird | ⟨fourth, hleads, hne, hbroken⟩) | ⟨found, t, hfound, hfails⟩)
    · exact .inl hsecond
    · exact .inr (.inl hthird)
    · exact .inr (.inr ⟨fourth, hleads, hne, .broken hbroken⟩)
    · cases found with
      | none => exact absurd hfails Reading.not_failsAs_pure
      | some payload =>
        obtain ⟨fourth, hleads, hframed, -⟩ := yields_inverseRecord_some_iff.mp hfound
        obtain ⟨hlength, rfl⟩ := (failsAs_payload_iff h).mp hfails
        exact .inr (.inr ⟨fourth, hleads, ne_nil_of_framed hframed, .count hframed hlength⟩)
  · rintro (hsecond | hthird | ⟨fourth, hleads, hne, hbroken | ⟨hframed, hlength⟩⟩)
    · exact .inl (.inl hsecond)
    · exact .inl (.inr (.inl hthird))
    · exact .inl (.inr (.inr ⟨fourth, hleads, hne, hbroken⟩))
    · rename_i payload behind
      refine .inr ⟨some payload, ⟨behind, s.count + 3⟩, ?_,
        (failsAs_payload_iff h).mpr ⟨hlength, rfl⟩⟩
      exact yields_inverseRecord_some_iff.mpr ⟨fourth, hleads, hframed, rfl⟩

theorem yields_coordinates_iff {c : CoordinateRecord Float} :
    Yields (coordinates p m) s c s' ↔ ∃ payload, Framed s.rest payload s'.rest ∧
      s'.count = s.count + 1 ∧ payload.length = coordinateBytes p m ∧
      c.toValues = values p payload ∧ c.shearOffset = none ∧
      ∀ a, (c.coords.get a).length = m.get a := by
  unfold coordinates
  simp only [yields_bind_iff, Reading.yields_check_iff, Reading.yields_reals_iff, Block.map_narrow]
  constructor
  · rintro ⟨reals, t, ⟨payload, hframed, hcount, hwidth, hreals⟩, hc, rfl⟩
    rw [hreals, CoordinateRecord.ofValues_eq_ok_iff (hframed.length_values_lt p), ← hreals] at hc
    obtain ⟨hvalues, hshear, hlengths⟩ := hc
    have hnumber : payload.length / p.bytes = CoordinateRecord.total m false := by
      rw [← length_values, ← hreals, ← hvalues, CoordinateRecord.length_toValues hlengths, hshear]
    refine ⟨payload, hframed, hcount, length_eq_mul_iff.mpr ⟨hwidth, hnumber⟩,
      hvalues.trans hreals, ?_, hlengths⟩
    simpa using hshear
  · rintro ⟨payload, hframed, hcount, hlength, hvalues, hshear, hlengths⟩
    refine ⟨(values p payload).toArray, s',
      ⟨payload, hframed, hcount, (length_eq_mul_iff.mp hlength).1, rfl⟩, ?_, rfl⟩
    refine (CoordinateRecord.ofValues_eq_ok_iff (hframed.length_values_lt p)).mpr
      ⟨hvalues, ?_, hlengths⟩
    rw [hshear, Option.isSome_none]

/-- A payload of the right length is one whose reals a word counts. -/
theorem total_lt_of_framed {bytes : Bytes} (hframed : Framed bytes payload rest)
    (hlength : payload.length = coordinateBytes p m) :
    CoordinateRecord.total m false < Word.count 8 := by
  have hlt := hframed.length_values_lt p
  rw [length_values, (length_eq_mul_iff.mp hlength).2] at hlt
  exact hlt

/-- A payload of the right length is split into coordinates. -/
theorem exists_coordinates (hlength : payload.length = coordinateBytes p m) :
    ∃ c : CoordinateRecord Float, c.toValues = values p payload ∧ c.shearOffset = none ∧
      ∀ a, (c.coords.get a).length = m.get a := by
  have hvalues : (values p payload).length = CoordinateRecord.total m false :=
    (length_values p payload).trans (length_eq_mul_iff.mp hlength).2
  obtain ⟨c, hc⟩ := CoordinateRecord.exists_split? hvalues
  obtain ⟨hparts, hshear⟩ := CoordinateRecord.toValues_of_split? hc
  refine ⟨c, hparts, ?_, CoordinateRecord.length_of_split? hc⟩
  simpa using hshear

theorem failsAs_coordinates_iff (h : CoordinateRecord.total m false < Word.count 8) :
    FailsAs (coordinates p m) s kind ↔ Record.Defect (coordinateBytes p m) s.rest kind := by
  have hbind : coordinates p m = Reading.reals "grid coordinates" p >>= fun reals : Array Float =>
      Reading.check (CoordinateRecord.ofValues m false reals.toList) >>= pure := by
    simp only [coordinates, bind_pure]
  rw [hbind]
  refine (Reading.failsAs_counted_iff (CoordinateRecord.failsAs_ofValues_iff h)).trans ?_
  simp only [Reading.not_failsAs_pure, and_false, exists_false, false_and, or_false]
  rfl

theorem exists_yields_read_iff {g : Grid Float} : (∃ s', Yields (read p m) s g s') ↔
    ∃ coords inverse, Stored p m s.rest coords inverse ∧ Holds g p m coords inverse := by
  rw [read_eq_bind]
  constructor
  · rintro ⟨s', h⟩
    obtain ⟨c, t, hcoords, h⟩ := yields_bind_iff.mp h
    obtain ⟨inverse, u, hinverse, hg⟩ := yields_bind_iff.mp h
    obtain ⟨rfl, -⟩ := yields_pure_iff.mp hg
    obtain ⟨coords, hframed, -, hlength, hvalues, hshear, hlengths⟩ :=
      yields_coordinates_iff.mp hcoords
    obtain ⟨payload, htail, hholds, hlengths'⟩ :=
      (exists_yields_inverses_iff (total_lt_of_framed hframed hlength)).mp ⟨u, hinverse⟩
    refine ⟨coords, payload, ⟨t.rest, hframed, hlength, htail⟩, ⟨c.time, ?_⟩, hlengths, hholds,
      hlengths'⟩
    rw [← hvalues, CoordinateRecord.toValues, hshear, Option.toList_none, List.append_nil]
  · rintro ⟨coords, payload, ⟨rest, hframed, hlength, htail⟩, ⟨time, hvalues⟩, hlengths, hholds,
      hlengths'⟩
    have hcoords : Yields (coordinates p m) s ⟨time, g.coords, g.spacing, none⟩
        ⟨rest, s.count + 1⟩ := by
      refine yields_coordinates_iff.mpr ⟨coords, hframed, rfl, hlength, ?_, rfl, hlengths⟩
      rw [← hvalues, CoordinateRecord.toValues, Option.toList_none, List.append_nil]
    have hinverses : ∃ s', Yields (inverses p m g.spacing) ⟨rest, s.count + 1⟩ g.inverse s' :=
      (exists_yields_inverses_iff (total_lt_of_framed hframed hlength)).mpr
        ⟨payload, htail, hholds, hlengths'⟩
    obtain ⟨s', hinverse⟩ := hinverses
    refine ⟨s', yields_bind_iff.mpr ⟨_, _, hcoords, ?_⟩⟩
    exact yields_bind_iff.mpr ⟨_, _, hinverse, rfl⟩

theorem failsAs_read_iff (h : CoordinateRecord.total m false < Word.count 8) :
    FailsAs (read p m) s kind ↔ Defect p m s.rest kind := by
  rw [read_eq_bind, Reading.failsAs_bind_iff, failsAs_coordinates_iff h]
  simp only [Reading.failsAs_bind_iff, failsAs_inverses_iff h, Reading.not_failsAs_pure, and_false,
    exists_false, or_false]
  constructor
  · rintro (hcoords | ⟨c, t, hc, hbehind⟩)
    · exact .coordinates hcoords
    · obtain ⟨coords, hframed, -, hlength, -⟩ := yields_coordinates_iff.mp hc
      rcases hbehind with ⟨hne, hbroken⟩ | ⟨second, middle, hsecond, hne, hbroken⟩ |
        ⟨fourth, hleads, hne, hdefect⟩
      · exact .second hframed hlength hne hbroken
      · exact .third hframed hlength hsecond hne hbroken
      · exact .inverse hframed hlength hleads hne hdefect
  · -- A record of the right length is read, so that what is wrong behind it comes to light.
    have hread {coords rest : Bytes} (hframed : Framed s.rest coords rest)
        (hlength : coords.length = coordinateBytes p m) :
        ∃ c t, Yields (coordinates p m) s c t ∧ t.rest = rest := by
      obtain ⟨c, hc⟩ := exists_coordinates hlength
      exact ⟨c, ⟨rest, s.count + 1⟩,
        yields_coordinates_iff.mpr ⟨coords, hframed, rfl, hlength, hc⟩, rfl⟩
    rintro (hcoords | ⟨hframed, hlength, hne, hbroken⟩ |
      ⟨hframed, hlength, hsecond, hne, hbroken⟩ | ⟨hframed, hlength, hleads, hne, hdefect⟩)
    · exact .inl hcoords
    · obtain ⟨c, t, hc, rfl⟩ := hread hframed hlength
      exact .inr ⟨c, t, hc, .inl ⟨hne, hbroken⟩⟩
    · obtain ⟨c, t, hc, rfl⟩ := hread hframed hlength
      exact .inr ⟨c, t, hc, .inr (.inl ⟨_, _, hsecond, hne, hbroken⟩)⟩
    · obtain ⟨c, t, hc, rfl⟩ := hread hframed hlength
      exact .inr ⟨c, t, hc, .inr (.inr ⟨_, hleads, hne, hdefect⟩)⟩

/-- Every grid file holds a grid. -/
theorem Stored.exists_holds {bytes coords : Bytes} {inverse : Option Bytes}
    (h : Stored p m bytes coords inverse) : ∃ g, Holds g p m coords inverse := by
  obtain ⟨rest, hcoords, hlength, htail⟩ := h
  obtain ⟨c, hc, hshear, hlengths⟩ := exists_coordinates hlength
  have hvalues : ∃ time, time :: (c.coords.x ++ c.coords.y ++ c.coords.z ++ c.spacing.toList) =
      values p coords := by
    refine ⟨c.time, ?_⟩
    rw [← hc, CoordinateRecord.toValues, hshear, Option.toList_none, List.append_nil]
  cases htail with
  | early hend =>
    exact ⟨⟨c.coords, c.spacing, uniformInverse m c.spacing⟩, hvalues, hlengths,
      eq_uniformInverse_iff.mp rfl, length_uniformInverse m c.spacing⟩
  | @full fourth payload behind hleads hframed hcount =>
    have htotal := total_lt_of_framed hcoords hlength
    have hnumber : (values p payload).length = m.x + m.y + m.z :=
      (length_values p payload).trans (length_eq_mul_iff.mp hcount).2
    have hsplit : ∃ inverse, splitInverse m (values p payload) = .ok inverse := by
      simp only [splitInverse, hnumber, wrap_sum htotal, ne_eq, not_true_eq_false, if_false]
      exact ⟨_, rfl⟩
    obtain ⟨inverse, hinverse⟩ := hsplit
    obtain ⟨hparts, hlengths'⟩ := (splitInverse_eq_ok_iff htotal).mp hinverse
    exact ⟨⟨c.coords, c.spacing, inverse⟩, hvalues, hlengths, hparts, hlengths'⟩

theorem neverStops_inverseRecord : inverseRecord.NeverStops := by
  refine Reading.neverStops_next.bind fun second => ?_
  cases second with
  | none => exact .pure none
  | some second =>
    refine Reading.neverStops_next.bind fun third => ?_
    cases third with
    | none => exact .pure none
    | some third => exact Reading.neverStops_next

theorem neverStops_inverses (h : CoordinateRecord.total m false < Word.count 8) :
    (inverses p m spacing).NeverStops := by
  refine neverStops_inverseRecord.bind fun found => ?_
  cases found with
  | none => exact .pure _
  | some payload =>
    refine (Reading.NeverStops.check fun e he => ?_).bind fun reals => .check fun e he => ?_
    · rw [(Reading.reals_eq_error_iff.mp he).2]
      rfl
    · rw [((splitInverse_eq_error_iff h).mp he).2]
      rfl

theorem neverStops_read (h : CoordinateRecord.total m false < Word.count 8) :
    (read p m).NeverStops := by
  rw [read_eq_bind]
  refine Reading.NeverStops.bind ?_ fun c => (neverStops_inverses h).bind fun inverse => .pure _
  exact (Reading.neverStops_reals _ p).bind fun reals => CoordinateRecord.neverStops_ofValues h

/-- A grid is read from the grid files, each of which holds one, with as many inverse spacings as
cells along each axis. Whatever else the bytes are, the first record that is wrong is a fault, if a
word counts the reals of the first. -/
theorem read_grid (p : Precision) (m : PerAxis Nat) (bytes : Bytes) :
    (∀ g, (read p m).decode bytes = .ok g ↔ ∃ coords inverse,
      Stored p m bytes coords inverse ∧ Holds g p m coords inverse) ∧
    ((∃ g, (read p m).decode bytes = .ok g) ↔
      ∃ coords inverse, Stored p m bytes coords inverse) ∧
    (CoordinateRecord.total m false < Word.count 8 →
      (∀ kind, (∃ e, (read p m).decode bytes = .error e ∧ e.kind = kind) ↔
        Defect p m bytes kind) ∧
      ∀ e, (read p m).decode bytes = .error e → e.stops = false) := by
  have hread (g : Grid Float) : (read p m).decode bytes = .ok g ↔ ∃ coords inverse,
      Stored p m bytes coords inverse ∧ Holds g p m coords inverse := by
    rw [Reading.decode_eq_ok_iff, exists_yields_read_iff]
  refine ⟨hread, ?_, fun h => ⟨fun kind => ?_, fun e => (neverStops_read h).of_decode⟩⟩
  · simp only [hread]
    constructor
    · rintro ⟨g, coords, inverse, hstored, -⟩
      exact ⟨coords, inverse, hstored⟩
    · rintro ⟨coords, inverse, hstored⟩
      obtain ⟨g, hholds⟩ := hstored.exists_holds
      exact ⟨g, coords, inverse, hstored, hholds⟩
  · rw [Reading.exists_decode_eq_error_iff, failsAs_read_iff h]

def oneCellFile : Bytes := frame (List.replicate 56 0)

/-- A file with one record is a grid file, and one whose second record is cut short is none. -/
theorem read_grid_oneCell : CoordinateRecord.total (.uniform 1) false < Word.count 8 ∧
    (∃ g, (read .double (.uniform 1)).decode oneCellFile = .ok g) ∧
    ∃ e, (read .double (.uniform 1)).decode (oneCellFile ++ [8, 0, 0]) = .error e ∧
      e.kind = .unexpectedEnd ∧ e.stops = false := by
  have hlt : (List.replicate 56 (0 : UInt8)).length < 2 ^ 32 := by
    rw [List.length_replicate]
    decide
  have hfits : CoordinateRecord.total (.uniform 1) false < Word.count 8 := by decide
  have hstored : Stored .double (.uniform 1) oneCellFile (List.replicate 56 0) none :=
    ⟨[], ⟨(List.append_nil _).symm, hlt⟩, rfl, .early ⟨[], Nat.zero_le _, nofun, rfl⟩⟩
  have hdefect : Defect .double (.uniform 1) (oneCellFile ++ [8, 0, 0]) .unexpectedEnd :=
    .second ⟨rfl, hlt⟩ rfl (List.cons_ne_nil _ _) (.short (by unfold StopsShort; decide))
  have hread := read_grid .double (.uniform 1)
  obtain ⟨hkind, hstops⟩ := (hread (oneCellFile ++ [8, 0, 0])).2.2 hfits
  obtain ⟨e, he, hkind⟩ := (hkind _).mpr hdefect
  exact ⟨hfits, (hread oneCellFile).2.1.mpr ⟨_, _, hstored⟩, e, he, hkind, hstops e he⟩

/-- The extents ask for so many coordinates that a word counts four reals, and the program stops
where it cuts them. -/
theorem read_grid_hugeExtents_stops :
    Defect .double ⟨9223372036854775808, 9223372036854775808, 0⟩ (frame (List.replicate 32 0))
      .malformed ∧
    ∃ e, (read .double ⟨9223372036854775808, 9223372036854775808, 0⟩).decode
      (frame (List.replicate 32 0)) = .error e ∧ e.stops = true := by
  have hframed : Framed (frame (List.replicate 32 0)) (List.replicate 32 0) [] :=
    ⟨(List.append_nil _).symm, by rw [List.length_replicate]; decide⟩
  exact ⟨.coordinates (.count hframed (by decide)), _, rfl, rfl⟩

end GridFile

end GridSnapshot
