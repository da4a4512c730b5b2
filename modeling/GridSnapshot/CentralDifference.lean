import GridSnapshot.StencilGrid

namespace GridSnapshot

/-- A curl and a curl of curl on vectors of shape [3, spatial shape]. -/
structure CurlScheme (ω α : Type) where
  curl : StencilGrid ω → Tensor α → Except DerivationFault (Tensor α)
  doubleCurl : StencilGrid ω → Tensor α → Except DerivationFault (Tensor α)

namespace CentralDifference

variable {ω α : Type} [FieldOps ω] [RingOps α] [Narrowing ω α]

/-- The first difference at the middle of seven values, before scaling. -/
def firstSum (f : Int → α) : α :=
  (f 1 - f (-1)) * RingOps.ofInt 45 - (f 2 - f (-2)) * RingOps.ofInt 9 + (f 3 - f (-3))

/-- The second difference at the middle of seven values, before scaling. -/
def secondSum (f : Int → α) : α :=
  f 0 * RingOps.ofInt (-490) + (f 1 + f (-1)) * RingOps.ofInt 270
    - (f 2 + f (-2)) * RingOps.ofInt 27 + (f 3 + f (-3)) * RingOps.ofInt 2

/-- A difference along an axis, at all cells whose index on that axis is interior. -/
def difference (g : StencilGrid ω) (a : Axis) (sum : (Int → α) → α) (scale : ω → ω)
    (f : Tensor α) : Tensor α :=
  let k := g.storageIndex a
  let active := g.isActive a
  let interior := g.interior a
  let factors := ((g.inverse.get a).map fun h => (narrow (scale h) : α)).toArray
  Tensor.ofFn f.shape fun idx =>
    let i := idx.getD k 0
    if active ∧ interior.Contains i then
      sum (fun o => f.cell (idx.set k (i + o).toNat)) * factors.getD i 0
    else 0

def first (g : StencilGrid ω) (a : Axis) (f : Tensor α) : Tensor α :=
  difference g a firstSum (fun h => h / RingOps.ofInt 60) f

def second (g : StencilGrid ω) (a : Axis) (f : Tensor α) : Tensor α :=
  difference g a secondSum (fun h => h * h / RingOps.ofInt 180) f

def mixed (g : StencilGrid ω) (a b : Axis) (f : Tensor α) : Tensor α := first g b (first g a f)

def interiorVector (g : StencilGrid ω) (v : PerAxis (Tensor α)) : Tensor α :=
  let box := g.layout.axes.map g.interior
  Tensor.ofFn (3 :: g.cellShape) fun idx =>
    match idx with
    | c :: idx =>
      if Cell.InBox box idx then
        match c with
        | 0 => v.x.cell idx
        | 1 => v.y.cell idx
        | _ => v.z.cell idx
      else 0
    | [] => 0

/-- A curl needs Cartesian coordinates and three components on the grid's cells. -/
def check (operator : String) (g : StencilGrid ω) (v : Tensor α) : Except DerivationFault Unit :=
  if g.coordinates ≠ .cartesian then
    .error (.unsupportedCoordinates operator g.coordinates)
  else if v.shape ≠ 3 :: g.cellShape then
    .error (.shapeMismatch (.vector operator g.cellShape v.shape))
  else .ok ()

/-- One component of the curl: the derivative of c along a, less that of a along c. -/
def curlPart (g : StencilGrid ω) (v : Tensor α) (c a : Axis) : Tensor α :=
  let plus := first g a (v.row c.component)
  let minus := first g c (v.row a.component)
  Tensor.ofFn g.cellShape fun idx => plus.cell idx - minus.cell idx

def curl (g : StencilGrid ω) (v : Tensor α) : Except DerivationFault (Tensor α) := do
  check "curl" g v
  .ok (interiorVector g ⟨curlPart g v .z .y, curlPart g v .x .z, curlPart g v .y .x⟩)

/-- The derivative of a component along its own axis and another one, in the order of the axes. -/
def cross (g : StencilGrid ω) (v : Tensor α) (own c : Axis) : Tensor α :=
  let f := v.row c.component
  if c.component < own.component then mixed g c own f else mixed g own c f

/-- One component of the gradient of the divergence less the Laplacian. The second derivatives of a
component along its own axis cancel, so that only the two other axes are left. -/
def doubleCurlPart (g : StencilGrid ω) (v : Tensor α) (own p q : Axis) : Tensor α :=
  let f := v.row own.component
  let crossP := cross g v own p
  let crossQ := cross g v own q
  let secondP := second g p f
  let secondQ := second g q f
  Tensor.ofFn g.cellShape fun idx =>
    crossP.cell idx + crossQ.cell idx - secondP.cell idx - secondQ.cell idx

def doubleCurl (g : StencilGrid ω) (v : Tensor α) : Except DerivationFault (Tensor α) := do
  check "curl curl" g v
  .ok (interiorVector g
    ⟨doubleCurlPart g v .x .y .z, doubleCurlPart g v .y .x .z, doubleCurlPart g v .z .x .y⟩)

/-- Differences of sixth order, taken at interior cells only. -/
def scheme : CurlScheme ω α := ⟨curl, doubleCurl⟩

end CentralDifference

end GridSnapshot
