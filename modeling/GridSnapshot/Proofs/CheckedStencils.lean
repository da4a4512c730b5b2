import GridSnapshot.Proofs.CellDifferences

namespace GridSnapshot

namespace Span

/-- The indices of the span one after the other. -/
def indices (s : Span) : List Nat := List.range' s.start s.length

theorem mem_indices_iff {s : Span} {i : Nat} : i ∈ s.indices ↔ s.Contains i := by
  rw [indices, List.mem_range'_1, length, Contains]
  omega

end Span

namespace Tensor

variable {α : Type} [Zero α] {shape : List Nat} {s t : Tensor α}

/-- The tensor whose cell at each index is given by a function, if there is a value for each. -/
def ofFn? (shape : List Nat) (f : List Nat → Option α) : Option (Tensor α) :=
  if ∀ k < volume shape, (f (Cell.ofOffset shape k)).isSome then
    some (.ofFn shape fun idx => (f idx).getD 0)
  else none

theorem ofFn?_eq_some {f : List Nat → Option α} {f' : List Nat → α}
    (h : ∀ idx, Cell.Inside shape idx → f idx = some (f' idx)) :
    ofFn? shape f = some (.ofFn shape f') := by
  have hall : ∀ k < volume shape, (f (Cell.ofOffset shape k)).isSome := by
    intro k hk
    rw [h _ (Cell.inside_ofOffset hk), Option.isSome_some]
  rw [ofFn?, if_pos hall, Option.some.injEq]
  refine ext_get? rfl fun idx hin => ?_
  rw [shape_ofFn] at hin
  rw [get?_ofFn, get?_ofFn, if_pos hin, if_pos hin, h idx hin, Option.getD_some]

/-- A tensor is made of its cells. -/
theorem ofFn_cell (t : Tensor α) : .ofFn t.shape t.cell = t := by
  refine ext_get? rfl fun idx hin => ?_
  rw [shape_ofFn] at hin
  rw [get?_ofFn, if_pos hin, get?_eq_some hin]

/-- The row at an index of the first axis, if there is one. -/
def row? (t : Tensor α) (i : Nat) : Option (Tensor α) :=
  if i < t.shape.headD 0 then some (t.row i) else none

theorem zipWith?_eq_some (f : α → α → α) (hs : s.shape = shape) (ht : t.shape = shape) :
    zipWith? f s t = some (.ofFn shape fun idx => f (s.cell idx) (t.cell idx)) := by
  subst hs
  rw [zipWith?, dif_pos ht.symm, Option.some.injEq]
  refine ext_get? rfl fun idx hin => ?_
  have hin' : Cell.Inside s.shape idx := hin
  have hs' := get?_eq_some hin'
  have ht' := get?_eq_some (ht.symm ▸ hin')
  rw [get?_ofFn, if_pos hin']
  rw [get?, if_pos hin'] at hs'
  rw [get?, ht, if_pos hin'] at ht'
  rw [get?, if_pos hin]
  simp only [Array.getElem?_zipWith, hs', ht']

theorem zipWith?_ofFn (f : α → α → α) (x : List Nat → α) (ht : t.shape = shape) :
    zipWith? f (.ofFn shape x) t = some (.ofFn shape fun idx => f (x idx) (t.cell idx)) := by
  rw [zipWith?_eq_some f (shape_ofFn shape x) ht, Option.some.injEq]
  refine ext_get? rfl fun idx hin => ?_
  rw [shape_ofFn] at hin
  rw [get?_ofFn, get?_ofFn, if_pos hin, if_pos hin, cell_ofFn x hin]

end Tensor

theorem StoredAxes.getElem?_idxOf {β : Type} {l : StoredAxes} {a : Axis} (h : a ∈ l.axes)
    (f : Axis → β) : (l.axes.map f)[l.axes.idxOf a]? = some (f a) := by
  have hlt : l.axes.idxOf a < l.axes.length := List.idxOf_lt_length_iff.mpr h
  rw [List.getElem?_map, List.getElem?_eq_getElem hlt, List.getElem_idxOf hlt, Option.map_some]

namespace StencilGrid

variable {ω : Type} {g : StencilGrid ω} {a : Axis} {n i : Nat}

/-- How far a stencil reads from its middle. -/
def steps : List Int := [-3, -2, -1, 0, 1, 2, 3]

theorem mem_steps_iff {o : Int} : o ∈ steps ↔ -3 ≤ o ∧ o ≤ 3 := by
  simp only [steps, List.mem_cons, List.not_mem_nil, or_false]
  omega

/-- All that the stencil at an index reads is in an axis of the given extent, and there is an
inverse spacing for it. -/
def StencilIn (g : StencilGrid ω) (a : Axis) (n i : Nat) : Prop :=
  (∀ o ∈ steps, 0 ≤ (i : Int) + o ∧ (i : Int) + o < n) ∧ i < (g.inverse.get a).length

instance (g : StencilGrid ω) (a : Axis) (n i : Nat) : Decidable (g.StencilIn a n i) :=
  inferInstanceAs (Decidable (_ ∧ _))

/-- There is an inverse spacing for each index of each axis. -/
def HasSpacings (g : StencilGrid ω) : Prop :=
  ∀ a, g.extents.get a ≤ (g.inverse.get a).length

theorem hasSpacings_uniform [FieldOps ω] (l : StoredAxes) (extents : PerAxis Nat) (ghost : Nat)
    (h : ω) : (uniform l extents ghost h).HasSpacings := by
  intro a
  simp [uniform]

/-- The grid of a snapshot has them, from its own grid record or from its spacing. -/
theorem hasSpacings_ofSnapshot {α : Type} [FieldOps ω] [Narrowing ω α] (s : Snapshot ω α) :
    (ofSnapshot s).HasSpacings := by
  intro a
  unfold ofSnapshot gridInverse?
  cases s.grid with
  | none => simp
  | some grid =>
    simp only [Option.bind_some]
    split
    · rename_i hextents
      have hlength := congrArg (fun m : PerAxis Nat => m.get a) hextents
      simp only [PerAxis.get_map] at hlength
      simp [hlength]
    · simp

/-- The margin of an active axis is as wide as the stencil. -/
theorem stencilIn_of_interior (hinv : g.HasSpacings) (hactive : g.isActive a = true)
    (hi : (g.interior a).Contains i) : g.StencilIn a (g.extents.get a) i := by
  have hghosts := ghosts_ge_of_isActive hactive
  have hbounds := contains_interior_iff.mp hi
  have hlength := hinv a
  refine ⟨fun o ho => ?_, by omega⟩
  have hsteps := mem_steps_iff.mp ho
  omega

theorem interior_in (g : StencilGrid ω) (a : Axis) : (g.interior a).In (g.extents.get a) := by
  simp only [interior, Span.inner, Span.In]
  omega

end StencilGrid

namespace CentralDifference

section Checked

variable {ω α : Type} [RingOps α] [Narrowing ω α]

/-- The neighbour some steps along an axis of storage, if the tensor has it. -/
def neighbour? (f : Tensor α) (k : Nat) (idx : List Nat) (i : Nat) (o : Int) : Option α :=
  if (i : Int) + o < 0 then none else f.get? (idx.set k ((i : Int) + o).toNat)

/-- A sum over the values of a stencil, if they are all there. -/
def sum? (sum : (Int → α) → α) (read : Int → Option α) : Option α :=
  if ∀ o ∈ StencilGrid.steps, (read o).isSome then some (sum fun o => (read o).getD 0) else none

def differenceCell? (g : StencilGrid ω) (a : Axis) (sum : (Int → α) → α) (scale : ω → ω)
    (f : Tensor α) (idx : List Nat) : Option α := do
  let i ← idx[g.storageIndex a]?
  if (g.interior a).Contains i then
    let s ← sum? sum (neighbour? f (g.storageIndex a) idx i)
    let h ← (g.inverse.get a)[i]?
    some (s * narrow (scale h))
  else some 0

/-- A difference along an axis. The stencil of each interior index is looked at first, as it is also
there when the other axes have no cells. -/
def difference? (g : StencilGrid ω) (a : Axis) (sum : (Int → α) → α) (scale : ω → ω)
    (f : Tensor α) : Option (Tensor α) :=
  if g.isActive a then do
    let n ← f.shape[g.storageIndex a]?
    if ∀ i ∈ (g.interior a).indices, g.StencilIn a n i then
      Tensor.ofFn? f.shape (differenceCell? g a sum scale f)
    else none
  else some (.ofFn f.shape fun _ => 0)

variable {g : StencilGrid ω} {a : Axis} {sum : (Int → α) → α} {scale : ω → ω} {f : Tensor α}
  {j : PerAxis Nat}

omit [Narrowing ω α] in
theorem sum?_eq_some {read : Int → Option α} {x : Int → α} (hsum : IsStencil sum)
    (h : ∀ o, -3 ≤ o → o ≤ 3 → read o = some (x o)) : sum? sum read = some (sum x) := by
  have hall : ∀ o ∈ StencilGrid.steps, (read o).isSome := by
    intro o ho
    obtain ⟨hlo, hhi⟩ := StencilGrid.mem_steps_iff.mp ho
    rw [h o hlo hhi, Option.isSome_some]
  rw [sum?, if_pos hall, Option.some.injEq]
  refine hsum _ _ fun o hlo hhi => ?_
  rw [h o hlo hhi, Option.getD_some]

omit [Narrowing ω α] in
theorem neighbour?_eq_some (hf : f.shape = g.cellShape) (hj : g.HasPlace j)
    (hactive : g.isActive a = true) (hin : (g.interior a).Contains (j.get a)) {o : Int}
    (hlo : -3 ≤ o) (hhi : o ≤ 3) :
    neighbour? f (g.storageIndex a) (g.layout.axes.map j.get) (j.get a) o =
      some (f.atPlace g.layout (j.neighbour a o)) := by
  have hghosts := StencilGrid.ghosts_ge_of_isActive hactive
  have hbounds := StencilGrid.contains_interior_iff.mp hin
  have hplace := hj.neighbour hactive hin hlo hhi
  have hmem := StencilGrid.mem_axes_of_isActive hactive
  rw [neighbour?, if_neg (by omega), StencilGrid.storageIndex, StoredAxes.set_idxOf hmem]
  exact Tensor.get?_eq_some (hf ▸ StencilGrid.inside_cellShape_iff.mpr hplace)

theorem factorAt_eq {i : Nat} (h : i < (g.inverse.get a).length) :
    factorAt g a scale i = (narrow (scale (g.inverse.get a)[i]) : α) := by
  simp [factorAt, h]

/-- What a difference is at an index, with all reads checked. -/
theorem differenceCell?_eq_some (hsum : IsStencil sum) (hinv : g.HasSpacings)
    (hf : f.shape = g.cellShape) (hactive : g.isActive a = true) {idx : List Nat}
    (hidx : Cell.Inside f.shape idx) :
    differenceCell? g a sum scale f idx = some ((difference g a sum scale f).cell idx) := by
  rw [hf] at hidx
  obtain ⟨j, rfl⟩ := StoredAxes.exists_map_get (l := g.layout)
    ((Cell.length_of_inside hidx).trans (List.length_map _))
  have hj : g.HasPlace j := StencilGrid.inside_cellShape_iff.mp hidx
  have hmem := StencilGrid.mem_axes_of_isActive hactive
  have hvalue : (difference g a sum scale f).cell (g.layout.axes.map j.get) =
      differenceAt g a sum scale (f.atPlace g.layout) j := atPlace_difference hf hj
  have hindex : (g.layout.axes.map j.get)[g.storageIndex a]? = some (j.get a) :=
    StoredAxes.getElem?_idxOf hmem _
  rw [differenceCell?, hindex, hvalue]
  by_cases hin : (g.interior a).Contains (j.get a)
  · have hreach := StencilGrid.stencilIn_of_interior hinv hactive hin
    have hread : sum? sum (neighbour? f (g.storageIndex a) (g.layout.axes.map j.get) (j.get a)) =
        some (sum fun o => f.atPlace g.layout (j.neighbour a o)) :=
      sum?_eq_some hsum fun o hlo hhi => neighbour?_eq_some hf hj hactive hin hlo hhi
    rw [differenceAt_of_interior hactive hin, factorAt_eq hreach.2]
    simp only [Option.bind_eq_bind, Option.bind_some, if_pos hin, hread,
      List.getElem?_eq_getElem hreach.2]
  · rw [differenceAt, if_neg fun hboth => hin hboth.2]
    simp only [Option.bind_eq_bind, Option.bind_some, if_neg hin]

/-- A difference never leaves its array, and the checks do not change it. -/
theorem difference?_eq_some (hsum : IsStencil sum) (hinv : g.HasSpacings)
    (hf : f.shape = g.cellShape) :
    difference? g a sum scale f = some (difference g a sum scale f) := by
  unfold difference?
  split
  · rename_i hactive
    have hextent : f.shape[g.storageIndex a]? = some (g.extents.get a) := by
      rw [hf]
      exact StoredAxes.getElem?_idxOf (StencilGrid.mem_axes_of_isActive hactive) _
    have hall : ∀ i ∈ (g.interior a).indices, g.StencilIn a (g.extents.get a) i := fun i hi =>
      StencilGrid.stencilIn_of_interior hinv hactive (Span.mem_indices_iff.mp hi)
    have hcells : Tensor.ofFn? f.shape (differenceCell? g a sum scale f) =
        some (.ofFn f.shape (difference g a sum scale f).cell) :=
      Tensor.ofFn?_eq_some fun idx hidx => differenceCell?_eq_some hsum hinv hf hactive hidx
    rw [hextent, Option.bind_eq_bind, Option.bind_some, if_pos hall, hcells]
    exact congrArg some (Tensor.ofFn_cell (difference g a sum scale f))
  · rename_i hactive
    have hzero : (difference g a sum scale f).cell = fun _ => 0 :=
      funext (cell_difference_of_not_isActive (Bool.eq_false_iff.mpr hactive) f)
    have hmade := Tensor.ofFn_cell (difference g a sum scale f)
    rw [hzero] at hmade
    exact congrArg some hmade

end Checked

section Operators

variable {ω α : Type} [FieldOps ω] [RingOps α] [Narrowing ω α]

def first? (g : StencilGrid ω) (a : Axis) (f : Tensor α) : Option (Tensor α) :=
  difference? g a firstSum (fun h => h / RingOps.ofInt 60) f

def second? (g : StencilGrid ω) (a : Axis) (f : Tensor α) : Option (Tensor α) :=
  difference? g a secondSum (fun h => h * h / RingOps.ofInt 180) f

def mixed? (g : StencilGrid ω) (a b : Axis) (f : Tensor α) : Option (Tensor α) := do
  let inner ← first? g a f
  first? g b inner

def curlPart? (g : StencilGrid ω) (v : Tensor α) (c a : Axis) : Option (Tensor α) := do
  let plus ← (v.row? c.component).bind (first? g a)
  let minus ← (v.row? a.component).bind (first? g c)
  Tensor.zipWith? (· - ·) plus minus

def cross? (g : StencilGrid ω) (v : Tensor α) (own c : Axis) : Option (Tensor α) := do
  let f ← v.row? c.component
  if c.component < own.component then mixed? g c own f else mixed? g own c f

def doubleCurlPart? (g : StencilGrid ω) (v : Tensor α) (own p q : Axis) : Option (Tensor α) := do
  let crossP ← cross? g v own p
  let crossQ ← cross? g v own q
  let secondP ← (v.row? own.component).bind (second? g p)
  let secondQ ← (v.row? own.component).bind (second? g q)
  let both ← Tensor.zipWith? (· + ·) crossP crossQ
  let rest ← Tensor.zipWith? (· - ·) both secondP
  Tensor.zipWith? (· - ·) rest secondQ

/-- Stacks three components and cuts the interior box out of them. -/
def interiorVector? (g : StencilGrid ω) (x y z : Tensor α) : Option (Tensor α) :=
  if (x.shape = g.cellShape ∧ y.shape = g.cellShape ∧ z.shape = g.cellShape) ∧
      List.Forall₂ Span.In (g.layout.axes.map g.interior) g.cellShape then
    some (interiorVector g ⟨x, y, z⟩)
  else none

/-- Refuses what an operator refuses, and stops where it leaves an array. -/
def checked (operator : String) (g : StencilGrid ω) (v : Tensor α) (result : Option (Tensor α)) :
    Except (Outcome.Halt DerivationFault) (Tensor α) := do
  (check operator g v).mapError .refused
  match result with
  | some t => .ok t
  | none => .error .outOfRange

def curl? (g : StencilGrid ω) (v : Tensor α) :
    Except (Outcome.Halt DerivationFault) (Tensor α) :=
  checked "curl" g v do
    let x ← curlPart? g v .z .y
    let y ← curlPart? g v .x .z
    let z ← curlPart? g v .y .x
    interiorVector? g x y z

def doubleCurl? (g : StencilGrid ω) (v : Tensor α) :
    Except (Outcome.Halt DerivationFault) (Tensor α) :=
  checked "curl curl" g v do
    let x ← doubleCurlPart? g v .x .y .z
    let y ← doubleCurlPart? g v .y .x .z
    let z ← doubleCurlPart? g v .z .x .y
    interiorVector? g x y z

variable {g : StencilGrid ω} {v f t : Tensor α} {a b c : Axis}

theorem shape_first (hf : f.shape = g.cellShape) (a : Axis) : (first g a f).shape = g.cellShape :=
  hf

theorem shape_second (hf : f.shape = g.cellShape) (a : Axis) :
    (second g a f).shape = g.cellShape := hf

theorem shape_mixed (hf : f.shape = g.cellShape) (a b : Axis) :
    (mixed g a b f).shape = g.cellShape := hf

theorem first?_eq_some (hinv : g.HasSpacings) (hf : f.shape = g.cellShape) (a : Axis) :
    first? g a f = some (first g a f) := difference?_eq_some isStencil_firstSum hinv hf

theorem second?_eq_some (hinv : g.HasSpacings) (hf : f.shape = g.cellShape) (a : Axis) :
    second? g a f = some (second g a f) := difference?_eq_some isStencil_secondSum hinv hf

theorem mixed?_eq_some (hinv : g.HasSpacings) (hf : f.shape = g.cellShape) (a b : Axis) :
    mixed? g a b f = some (mixed g a b f) := by
  rw [mixed?, first?_eq_some hinv hf, Option.bind_eq_bind, Option.bind_some,
    first?_eq_some hinv (shape_first hf a), mixed]

omit [FieldOps ω] [Narrowing ω α] in
theorem row?_eq_some (hv : v.shape = 3 :: g.cellShape) (c : Axis) :
    v.row? c.component = some (v.row c.component) := by
  rw [Tensor.row?, hv, List.headD_cons, if_pos c.component_lt]

theorem first?_row (hinv : g.HasSpacings) (hv : v.shape = 3 :: g.cellShape) (a c : Axis) :
    (v.row? c.component).bind (first? g a) = some (first g a (v.row c.component)) := by
  rw [row?_eq_some hv, Option.bind_some, first?_eq_some hinv (shape_row hv _)]

theorem second?_row (hinv : g.HasSpacings) (hv : v.shape = 3 :: g.cellShape) (a c : Axis) :
    (v.row? c.component).bind (second? g a) = some (second g a (v.row c.component)) := by
  rw [row?_eq_some hv, Option.bind_some, second?_eq_some hinv (shape_row hv _)]

theorem curlPart?_eq_some (hinv : g.HasSpacings) (hv : v.shape = 3 :: g.cellShape) (c a : Axis) :
    curlPart? g v c a = some (curlPart g v c a) := by
  have hplus := shape_first (shape_row hv c.component) a
  have hminus := shape_first (shape_row hv a.component) c
  simp only [curlPart?, first?_row hinv hv, Option.bind_eq_bind, Option.bind_some]
  exact Tensor.zipWith?_eq_some _ hplus hminus

theorem cross?_eq_some (hinv : g.HasSpacings) (hv : v.shape = 3 :: g.cellShape) (own c : Axis) :
    cross? g v own c = some (cross g v own c) := by
  rw [cross?, row?_eq_some hv, Option.bind_eq_bind, Option.bind_some, cross]
  split
  · exact mixed?_eq_some hinv (shape_row hv _) _ _
  · exact mixed?_eq_some hinv (shape_row hv _) _ _

theorem shape_cross (hv : v.shape = 3 :: g.cellShape) (own c : Axis) :
    (cross g v own c).shape = g.cellShape := by
  unfold cross
  split
  · exact shape_mixed (shape_row hv _) _ _
  · exact shape_mixed (shape_row hv _) _ _

theorem doubleCurlPart?_eq_some (hinv : g.HasSpacings) (hv : v.shape = 3 :: g.cellShape)
    (own p q : Axis) :
    doubleCurlPart? g v own p q = some (doubleCurlPart g v own p q) := by
  have hsecond := shape_second (shape_row hv own.component)
  simp only [doubleCurlPart?, cross?_eq_some hinv hv, second?_row hinv hv, Option.bind_eq_bind,
    Option.bind_some, Tensor.zipWith?_eq_some _ (shape_cross hv own p) (shape_cross hv own q)]
  rw [Tensor.zipWith?_ofFn _ _ (hsecond p), Option.bind_some,
    Tensor.zipWith?_ofFn _ _ (hsecond q), doubleCurlPart]

omit [FieldOps ω] [Narrowing ω α] in
theorem interiorVector?_eq_some {x y z : Tensor α} (hx : x.shape = g.cellShape)
    (hy : y.shape = g.cellShape) (hz : z.shape = g.cellShape) :
    interiorVector? g x y z = some (interiorVector g ⟨x, y, z⟩) := by
  have hbox : List.Forall₂ Span.In (g.layout.axes.map g.interior) g.cellShape :=
    (Cell.spans_in_map _ _ _).mpr fun a _ => g.interior_in a
  rw [interiorVector?, if_pos ⟨⟨hx, hy, hz⟩, hbox⟩]

omit [FieldOps ω] [RingOps α] [Narrowing ω α] in
theorem checked_eq (operator : String) {result : Option (Tensor α)}
    (h : v.shape = 3 :: g.cellShape → result = some t) :
    checked operator g v result = (check operator g v >>= fun _ => .ok t).mapError .refused := by
  unfold checked
  rw [Outcome.mapError_bind]
  cases hcheck : check operator g v with
  | error e => rfl
  | ok u =>
    obtain ⟨-, hv⟩ := (check_eq_ok_iff operator).mp hcheck
    rw [h hv]
    rfl

/-- The checks do not change a curl. -/
theorem curl?_eq (hinv : g.HasSpacings) (v : Tensor α) :
    curl? g v = (curl g v).mapError .refused := by
  refine checked_eq "curl" fun hv => ?_
  simp only [curlPart?_eq_some hinv hv, Option.bind_eq_bind, Option.bind_some]
  exact interiorVector?_eq_some rfl rfl rfl

theorem doubleCurl?_eq (hinv : g.HasSpacings) (v : Tensor α) :
    doubleCurl? g v = (doubleCurl g v).mapError .refused := by
  refine checked_eq "curl curl" fun hv => ?_
  simp only [doubleCurlPart?_eq_some hinv hv, Option.bind_eq_bind, Option.bind_some]
  exact interiorVector?_eq_some rfl rfl rfl

omit [FieldOps ω] [Narrowing ω α] in
theorem get?_interiorVector {w : PerAxis (Tensor α)} {idx : List Nat}
    (hin : Cell.Inside (3 :: g.cellShape) idx)
    (hout : ¬ Cell.InBox (⟨0, 3⟩ :: g.layout.axes.map g.interior) idx) :
    (interiorVector g w).get? idx = some 0 := by
  cases idx with
  | nil => exact hin.elim
  | cons c idx =>
    have hbox : ¬ Cell.InBox (g.layout.axes.map g.interior) idx :=
      fun hbox => hout ⟨⟨Nat.zero_le _, hin.1⟩, hbox⟩
    rw [interiorVector, Tensor.get?_ofFn, if_pos hin]
    simp only [if_neg hbox]

/-- What an operator on vectors does with any input: it refuses other coordinates first and other
shapes second, and else gives a vector of the same shape that is zero outside the interior box. -/
structure StaysInside (operator : String) (g : StencilGrid ω) (v : Tensor α)
    (result : Except DerivationFault (Tensor α)) : Prop where
  curved : g.coordinates ≠ .cartesian →
    result = .error (.unsupportedCoordinates operator g.coordinates)
  misshaped : g.coordinates = .cartesian → v.shape ≠ 3 :: g.cellShape →
    result = .error (.shapeMismatch (.vector operator g.cellShape v.shape))
  accepted : g.coordinates = .cartesian → v.shape = 3 :: g.cellShape →
    ∃ t, result = .ok t ∧ t.shape = v.shape ∧
      ∀ idx, Cell.Inside v.shape idx →
        ¬ Cell.InBox (⟨0, 3⟩ :: g.layout.axes.map g.interior) idx → t.get? idx = some 0

omit [FieldOps ω] [Narrowing ω α] in
theorem staysInside (operator : String) (g : StencilGrid ω) (v : Tensor α)
    (w : PerAxis (Tensor α)) :
    StaysInside operator g v (check operator g v >>= fun _ => .ok (interiorVector g w)) where
  curved h := by rw [check, if_pos h]; rfl
  misshaped h hshape := by rw [check, if_neg (not_not_intro h), if_pos hshape]; rfl
  accepted h hshape := by
    have hcheck := (check_eq_ok_iff operator).mpr ⟨h, hshape⟩
    refine ⟨interiorVector g w, Outcome.bind_eq_ok_iff.mpr ⟨(), hcheck, rfl⟩, hshape.symm, ?_⟩
    intro idx hin hout
    exact get?_interiorVector (hshape ▸ hin) hout

/-- Curls never leave an array, whatever the extents and the margins are. -/
theorem curls_stayInside (g : StencilGrid ω) (hinv : g.HasSpacings) (v : Tensor α) :
    StaysInside "curl" g v (curl g v) ∧
    StaysInside "curl curl" g v (doubleCurl g v) ∧
    curl? g v = (curl g v).mapError .refused ∧
    doubleCurl? g v = (doubleCurl g v).mapError .refused ∧
    ∀ a, g.isActive a = true → ∀ i, (g.interior a).Contains i →
      (∀ o : Int, -3 ≤ o → o ≤ 3 → 0 ≤ (i : Int) + o ∧ (i : Int) + o < g.extents.get a) ∧
        i < (g.inverse.get a).length := by
  refine ⟨staysInside _ _ _ _, staysInside _ _ _ _, curl?_eq hinv v, doubleCurl?_eq hinv v, ?_⟩
  intro a hactive i hi
  obtain ⟨hsteps, hspacing⟩ := StencilGrid.stencilIn_of_interior hinv hactive hi
  exact ⟨fun o hlo hhi => hsteps o (StencilGrid.mem_steps_iff.mpr ⟨hlo, hhi⟩), hspacing⟩

end Operators

/-- The margins leave three cells along x and none along z. -/
def wideMargins : StencilGrid Float := .uniform .xz ⟨9, 2, 4⟩ 3 0.5

theorem curls_stayInside_wideMargins :
    wideMargins.isActive .x = true ∧
    ∃ t, curl wideMargins (.fill [3, 4, 9] (1 : Float)) = .ok t ∧
      curl? wideMargins (.fill [3, 4, 9] (1 : Float)) = .ok t ∧ t.get? [0, 0, 4] = some 0 := by
  have hmain := curls_stayInside wideMargins (StencilGrid.hasSpacings_uniform _ _ _ _)
    (.fill [3, 4, 9] (1 : Float))
  obtain ⟨hcurl, -, hchecked, -⟩ := hmain
  obtain ⟨t, ht, -, hzero⟩ := hcurl.accepted rfl rfl
  refine ⟨by decide, t, ht, ?_, hzero [0, 0, 4] (by decide) (by decide)⟩
  rw [hchecked, ht]
  rfl

end CentralDifference

end GridSnapshot
