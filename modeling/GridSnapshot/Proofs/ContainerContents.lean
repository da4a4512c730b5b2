import GridSnapshot.Proofs.Outcome
import GridSnapshot.SnapshotReading

namespace GridSnapshot

open Outcome

namespace ReadPlan

variable {α : Type} [Narrowing Float α]

/-- The content of a snapshot that was read for a plan. -/
def content (plan : ReadPlan Float) (d : Dimensions) (grid : Option (Grid Float)) (f : Tensor α)
    (c : CoordinateRecord Float) (persistence : Persistence Float) : SnapshotContent Float α where
  f := f
  layout := plan.layout
  coords := c.coords.map (·.map narrow)
  time := narrow c.time
  spacing := c.spacing.map narrow
  shearOffset := c.shearOffset.map narrow
  bounds := d.interiorBounds
  metadata := plan.metadata
  persistence := persistence
  grid := grid

theorem single_eq_bind (plan : ReadPlan Float) (tree : FileTree) (sub : Subdomain) :
    (plan.single tree sub : Except _ (Snapshot Float α)) =
      plan.decode tree sub >>= fun block =>
        match Tensor.ofArray? (plan.layout.shape block.vars sub.dims) block.data with
        | none => .error (.layout (.blockShape (plan.layout.shape block.vars sub.dims)
            block.data.size))
        | some f => .ok (.ofContent (plan.content sub.dims
            (plan.grid.filter fun g => gridFits g sub.dims) f block.coords block.persistence)) :=
  rfl

/-- The numbers in a container that a record file has in its coordinate record. -/
def containerRecord (shear : Bool) (c : Container Float) :
    Except ContainerFault (CoordinateRecord Float) := do
  let time ← c.scalar "time"
  let x ← c.read "grid/x"
  let y ← c.read "grid/y"
  let z ← c.read "grid/z"
  let dx ← c.scalar "grid/dx"
  let dy ← c.scalar "grid/dy"
  let dz ← c.scalar "grid/dz"
  let offset ← if shear then optional (c.scalar "persist/shear_delta_y") else .ok none
  .ok ⟨time, ⟨x.cells.toList, y.cells.toList, z.cells.toList⟩, ⟨dx, dy, dz⟩, offset⟩

/-- The persistent values of a container, on demand. -/
def containerValues (readsPersistence : Bool) (c : Container Float) :
    Except ContainerFault (Persistence Float) :=
  if readsPersistence then containerPersistence c else .ok .empty

theorem readContainer_eq_bind [Zero α] (plan : ReadPlan Float) (store : ContainerStore Float)
    (cancelled : Bool) {sub : Subdomain} {subs : List Subdomain}
    (hsubs : plan.subdomains = sub :: subs) :
    (plan.readContainer store cancelled : Except _ (Snapshot Float α)) =
      (store.openFile sub.path).mapError (containerError sub.path) >>= fun c =>
      (c.names "data").mapError (containerError sub.path) >>= fun names =>
      plan.fillSlots sub.path c cancelled names
        (.fill (plan.layout.shape plan.metadata.slotCount plan.metadata.dims) 0) >>= fun f =>
      (containerRecord plan.metadata.params.shear c).mapError (containerError sub.path) >>= fun r =>
      (containerValues plan.readsPersistence c).mapError (containerError sub.path) >>= fun values =>
      .ok (.ofContent (plan.content plan.metadata.dims plan.grid f r values)) := by
  unfold readContainer
  rw [hsubs]
  refine bind_congr fun c => ?_
  refine bind_congr fun names => ?_
  refine bind_congr fun f => ?_
  unfold containerRecord containerValues
  simp only [mapError_bind, bind_assoc]
  refine bind_congr fun time => ?_
  refine bind_congr fun x => ?_
  refine bind_congr fun y => ?_
  refine bind_congr fun z => ?_
  refine bind_congr fun dx => ?_
  refine bind_congr fun dy => ?_
  refine bind_congr fun dz => ?_
  cases plan.metadata.params.shear with
  | false =>
    cases plan.readsPersistence with
    | false => rfl
    | true => rfl
  | true =>
    simp only [if_true, mapError_bind, bind_assoc]
    refine bind_congr fun offset => ?_
    cases plan.readsPersistence with
    | false => rfl
    | true => rfl

end ReadPlan

end GridSnapshot
