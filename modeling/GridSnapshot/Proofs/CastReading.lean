import GridSnapshot.Proofs.ContainerContents
import GridSnapshot.Proofs.ElementCast
import GridSnapshot.Proofs.ReadExtents

namespace GridSnapshot

open Outcome

theorem decodeInOrder_map {ι β β' σ σ' ε : Type} {decode : ι → Except ε β}
    {decode' : ι → Except ε β'} {sink : σ → ι → β → Except ε σ} {sink' : σ' → ι → β' → Except ε σ'}
    {f : β → β'} {g : σ → σ'} (hdecode : ∀ job, decode' job = (decode job).map f)
    (hsink : ∀ s job b, sink' (g s) job (f b) = (sink s job b).map g) (jobs : List ι) (s : σ) :
    decodeInOrder decode' sink' jobs (g s) = (decodeInOrder decode sink jobs s).map g := by
  induction jobs generalizing s with
  | nil => rfl
  | cons job jobs ih =>
    refine bind_eq_map (hdecode job) fun b => ?_
    exact bind_eq_map (hsink s job b) ih

namespace ReadPlan

variable {α : Type} [Zero α] [Narrowing Float α]

omit [Zero α] in
theorem content_map (plan : ReadPlan Float) (d : Dimensions) (grid : Option (Grid Float))
    (f : Tensor Float) (c : CoordinateRecord Float) (values : Persistence Float) :
    (plan.content d grid f c values).map (narrow : Float → α) =
      plan.content d grid (f.map narrow) c values := by
  have hid : (narrow : Float → Float) = id := rfl
  simp [content, SnapshotContent.map, PerAxis.map, hid]

section RecordFiles

variable (plan : ReadPlan Float) (tree : FileTree)

omit [Zero α] in
theorem decode_eq_map (sub : Subdomain) : (plan.decode tree sub : Except _ (Block Float α)) =
    (plan.decode tree sub : Except _ (Block Float Float)).map (Block.map narrow) := by
  unfold decode readBlock
  rw [← mapError_map]
  congr 1
  split
  · rfl
  · rw [Block.read_eq_map, Reading.decode_map]

omit [Zero α] in
theorem single_eq_map (sub : Subdomain) : (plan.single tree sub : Except _ (Snapshot Float α)) =
    (plan.single tree sub : Except _ (Snapshot Float Float)).map (Snapshot.map narrow) := by
  rw [single_eq_bind, single_eq_bind]
  refine bind_eq_map (plan.decode_eq_map tree sub) fun block => ?_
  simp only [Block.map, Tensor.ofArray?_map, Array.size_map]
  cases Tensor.ofArray? (plan.layout.shape block.vars sub.dims) block.data with
  | none => rfl
  | some f =>
    refine congrArg Except.ok ?_
    rw [← Snapshot.ofContent_map, content_map]

theorem stitched_eq_map (hzero : (narrow (Zero.zero : Float) : α) = 0) :
    (plan.stitched tree : Except _ (Snapshot Float α)) =
      (plan.stitched tree : Except _ (Snapshot Float Float)).map (Snapshot.map narrow) := by
  unfold stitched
  rw [← Assembly.empty_map hzero]
  refine bind_eq_map (decodeInOrder_map (plan.decode_eq_map tree) (fun asm sub block => ?_) _ _)
    fun asm => ?_
  · unfold placeSubdomain
    rw [Assembly.place_map hzero, mapError_map]
  · rw [← mapError_map]
    congr 1
    unfold Assembly.snapshot
    cases hscalars : asm.scalars with
    | none => simp only [Assembly.map, hscalars, Option.map_none]; rfl
    | some c => simp only [Assembly.map, hscalars, Option.map_some]; rfl

theorem readRecords_eq_map (hzero : (narrow (Zero.zero : Float) : α) = 0) (cancelled : Bool) :
    (plan.readRecords tree cancelled : Except _ (Snapshot Float α)) =
      (plan.readRecords tree cancelled : Except _ (Snapshot Float Float)).map
        (Snapshot.map narrow) := by
  unfold readRecords
  split
  · rfl
  · split
    · rfl
    · exact plan.single_eq_map tree _
  · split
    · rfl
    · exact plan.stitched_eq_map tree hzero

end RecordFiles

theorem setSlot_map (hzero : (narrow (Zero.zero : Float) : α) = 0) (f : Tensor Float) (slot : Nat)
    (t : Tensor Float) :
    setSlot (f.map narrow) slot (t.map narrow) = (setSlot f slot t).map (narrow : Float → α) := by
  unfold setSlot
  refine Tensor.map_mapPlaces f fun i x => ?_
  by_cases h : slot * volume t.shape ≤ i ∧ i < (slot + 1) * volume t.shape
  · refine (if_pos h).trans ?_
    rw [if_pos h, Array.getD_eq_getD_getElem?, Array.getD_eq_getD_getElem?, Tensor.cells_map,
      Array.getElem?_map]
    show (t.cells[i - slot * volume t.shape]?.map narrow).getD 0 = _
    cases t.cells[i - slot * volume t.shape]? with
    | none => exact hzero.symm
    | some v => rfl
  · exact (if_neg h).trans (congrArg narrow (if_neg h).symm)

theorem fillSlots_map (hzero : (narrow (Zero.zero : Float) : α) = 0) (plan : ReadPlan Float)
    (p : Path) (c : Container Float) (cancelled : Bool) (names : List String) (f : Tensor Float) :
    plan.fillSlots p c cancelled names (f.map narrow) =
      (plan.fillSlots p c cancelled names f).map (Tensor.map (narrow : Float → α)) := by
  induction names generalizing f with
  | nil => rfl
  | cons name names ih =>
    unfold fillSlots
    split
    · rfl
    · split
      · exact ih f
      · rw [bind_map]
        refine bind_congr fun t => ?_
        simp only
        split
        · rfl
        · rw [setSlot_map hzero, ih, Tensor.map_id_of fun x => (rfl : narrow x = x)]

theorem readContainer_eq_map (hzero : (narrow (Zero.zero : Float) : α) = 0) (plan : ReadPlan Float)
    (store : ContainerStore Float) (cancelled : Bool) :
    (plan.readContainer store cancelled : Except _ (Snapshot Float α)) =
      (plan.readContainer store cancelled : Except _ (Snapshot Float Float)).map
        (Snapshot.map narrow) := by
  cases hsubs : plan.subdomains with
  | nil =>
    unfold readContainer
    rw [hsubs]
    rfl
  | cons sub subs =>
    rw [readContainer_eq_bind plan store cancelled hsubs,
      readContainer_eq_bind plan store cancelled hsubs]
    rw [bind_map]
    refine bind_congr fun c => ?_
    rw [bind_map]
    refine bind_congr fun names => ?_
    rw [← hzero, ← Tensor.map_fill]
    refine bind_eq_map (fillSlots_map hzero plan _ c cancelled names _) fun f => ?_
    simp only [bind_map]
    refine bind_congr fun r => ?_
    refine bind_congr fun values => ?_
    refine congrArg Except.ok ?_
    rw [← Snapshot.ofContent_map, content_map]

/-- Reading at an element type gives what reading wide reals gives, good or bad, with each element
cast. -/
theorem read_eq_cast (hzero : (narrow (Zero.zero : Float) : α) = 0) (plan : ReadPlan Float)
    (tree : FileTree) (stores : Option (ContainerStore Float)) (cancelled : Bool) :
    (plan.read tree stores cancelled : Except ReadFault (Snapshot Float α)) =
      (plan.read tree stores cancelled : Except ReadFault (Snapshot Float Float)).map
        (Snapshot.map narrow) := by
  unfold read
  split
  · rfl
  · exact readContainer_eq_map hzero plan _ cancelled
  · exact plan.readRecords_eq_map tree hzero cancelled

end ReadPlan

/-- Singles by their bits. The conversion between the two machine types has no definition to compute
with, so a proof about concrete singles rounds by the arithmetic of their formats. -/
structure Single where
  model : Float32.Model
  deriving DecidableEq

namespace Single

/-- The nearest single: the product with one, rounded as the format of singles asks for. -/
def round (x : Float) : Single :=
  ⟨.pack (.mul .binary32 x.toModel.unpack (Float32.Model.ofNat 1).unpack)⟩

instance : Zero Single := ⟨⟨.ofBits 0⟩⟩

instance : Narrowing Float Single where
  narrow := round
  widen x := ⟨.pack x.model.unpack⟩

end Single

/-- The row of three cells, read as singles. -/
theorem ReadPlan.read_eq_cast_row : (narrow (Zero.zero : Float) : Single) = 0 ∧
    ∃ s : Snapshot Float Float, rowPlan.read rowTree (some (rowStore 3)) false = .ok s ∧
      rowPlan.read rowTree (some (rowStore 3)) false =
        .ok (s.map (narrow : Float → Single)) := by
  have hzero : (narrow (Zero.zero : Float) : Single) = 0 := by decide
  obtain ⟨s, hs, -⟩ := exists_read_rowPlan 3
  have hread : rowPlan.read rowTree (some (rowStore 3)) false = .ok s := hs
  refine ⟨hzero, s, hread, ?_⟩
  rw [read_eq_cast hzero, hread]
  rfl

end GridSnapshot
