import GridSnapshot.Proofs.BlockGrammar
import GridSnapshot.Proofs.DecodedPlan
import GridSnapshot.Proofs.Trimming

namespace GridSnapshot

open Outcome

namespace Snapshot

variable {ω α : Type} {s : Snapshot ω α} {l : StoredAxes} {vars : Nat} {d : Dimensions}

/-- The snapshot has the extents of the dimensions, except perhaps for the coordinates. -/
structure HasExtents (s : Snapshot ω α) (l : StoredAxes) (vars : Nat) (d : Dimensions) : Prop where
  layout_eq : s.layout = l
  shape_eq : s.f.shape = l.shape vars d
  bounds_eq : s.bounds = d.interiorBounds
  untrimmed : s.trimmed = false

/-- Bounds between the margins lie inside, so only the coordinates can be too short for them. -/
theorem HasExtents.boundExceeds_iff (h : s.HasExtents l vars d) :
    s.BoundExceeds ↔ ∃ a, (s.coords.get a).length < (d.interiorSpan a).stop := by
  have hstop (a : Axis) : (d.interiorSpan a).stop ≤ d.extent a := by
    simp only [Dimensions.interiorSpan, Span.inner]
    omega
  have hbound (a : Axis) : s.bounds.get a = d.interiorSpan a := by
    rw [h.bounds_eq, Dimensions.interiorBounds, PerAxis.get_ofFn]
  simp only [BoundExceeds, hbound]
  refine or_iff_right ?_
  rintro ⟨k, a, n, ha, hn, hlt⟩
  rw [h.shape_eq, StoredAxes.shape, List.getElem?_cons_succ, StoredAxes.cellShape,
    List.getElem?_map, ← h.layout_eq, ha, Option.map_some, Option.some.injEq] at hn
  have hle := hstop a
  omega

/-- Long enough coordinates are all that trimming needs. -/
theorem HasExtents.exists_trim_iff [Zero α] (h : s.HasExtents l vars d) :
    (∃ s', s.trim = .ok s') ↔ ∀ a, (d.interiorSpan a).stop ≤ (s.coords.get a).length := by
  simp only [trim_eq_ok_iff, h.untrimmed, h.boundExceeds_iff, exists_and_left, exists_eq, and_true,
    true_and, not_exists, Nat.not_lt]

theorem HasExtents.exists_trim [Zero α] (h : s.HasExtents l vars d)
    (hlength : ∀ a, (s.coords.get a).length = d.extent a) : ∃ s', s.trim = .ok s' := by
  refine h.exists_trim_iff.mpr fun a => ?_
  rw [hlength]
  simp only [Dimensions.interiorSpan, Span.inner]
  omega

end Snapshot

namespace ReadPlan

variable {α : Type} [Zero α] [Narrowing Float α] {plan : ReadPlan Float} {tree : FileTree}
  {store : ContainerStore Float} {cancelled : Bool} {s : Snapshot Float α} {sub : Subdomain}

/-- The dimensions that are read: those of the file, if there is just one record file. -/
def readDims (plan : ReadPlan Float) : Dimensions :=
  match plan.storage, plan.subdomains with
  | .container, _ => plan.metadata.dims
  | _, [sub] => sub.dims
  | _, _ => plan.metadata.dims

/-- The container that a plan reads. -/
def opens (plan : ReadPlan Float) (store : ContainerStore Float) (c : Container Float) : Prop :=
  ∃ sub subs, plan.subdomains = sub :: subs ∧ store.openFile sub.path = .ok c

theorem opens.unique {c c' : Container Float} (h : plan.opens store c)
    (h' : plan.opens store c') : c = c' := by
  obtain ⟨sub, subs, hsubs, hc⟩ := h
  obtain ⟨sub', subs', hsubs', hc'⟩ := h'
  cases hsubs.symm.trans hsubs'
  exact Except.ok.inj (hc.symm.trans hc')

omit [Narrowing Float α] in
theorem shape_setSlot (f : Tensor α) (slot : Nat) (t : Tensor α) :
    (setSlot f slot t).shape = f.shape := rfl

theorem shape_fillSlots {p : Path} {c : Container Float} {names : List String} {f f' : Tensor α}
    (h : plan.fillSlots p c cancelled names f = .ok f') : f'.shape = f.shape := by
  induction names generalizing f with
  | nil =>
    cases h
    rfl
  | cons name names ih =>
    rw [fillSlots] at h
    split at h
    · cases h
    · split at h
      · exact ih h
      · obtain ⟨t, -, h⟩ := bind_eq_ok_iff.mp h
        simp only at h
        split at h
        · cases h
        · exact (ih h).trans (shape_setSlot ..)

/-- What a container gives, if it gives anything. -/
theorem hasExtents_of_readContainer (h : plan.readContainer store cancelled = .ok s) :
    s.HasExtents plan.layout plan.metadata.slotCount plan.metadata.dims ∧
    ∃ c, ∃ coords : Axis → Tensor Float, plan.opens store c ∧
      ∀ a : Axis, c.read ("grid/" ++ a.name) = .ok (coords a) ∧
        (s.coords.get a) = (coords a).cells.toList.map narrow := by
  unfold readContainer at h
  split at h
  · cases h
  · rename_i sub subs hsubs
    simp only [bind_eq_ok_iff, mapError_eq_ok_iff] at h
    obtain ⟨c, hopen, names, -, f, hf, time, -, x, hx, y, hy, z, hz, dx, -, dy, -, dz, -, h⟩ := h
    -- The shear offset and the persistent values may be missing, which leaves the rest as it is.
    obtain ⟨offset, persistence, rfl⟩ : ∃ offset persistence, s = .ofContent {
        f := f
        layout := plan.layout
        coords := (⟨x, y, z⟩ : PerAxis (Tensor Float)).map fun t => t.cells.toList.map narrow
        time := narrow time
        spacing := ⟨narrow dx, narrow dy, narrow dz⟩
        shearOffset := offset
        bounds := plan.metadata.dims.interiorBounds
        metadata := plan.metadata
        persistence := persistence
        grid := plan.grid } := by
      split at h
      all_goals
        obtain ⟨offset, -, h⟩ := bind_eq_ok_iff.mp h
        split at h
        all_goals
          obtain ⟨persistence, -, h⟩ := bind_eq_ok_iff.mp h
          cases h
          exact ⟨_, _, rfl⟩
    refine ⟨⟨rfl, shape_fillSlots hf, rfl, rfl⟩, c, (⟨x, y, z⟩ : PerAxis (Tensor Float)).get,
      ⟨sub, subs, hsubs, hopen⟩, fun a => ⟨?_, PerAxis.get_map ..⟩⟩
    cases a with
    | x => exact hx
    | y => exact hy
    | z => exact hz

/-- The file starts with the records of its variables and of its coordinates, and both have the
lengths that go with its dimensions. -/
def RecordsFit (plan : ReadPlan Float) (tree : FileTree) (sub : Subdomain) : Prop :=
  ∃ bytes fields coords rest, tree.read sub.path = .ok bytes ∧
    Block.Stored (plan.blockSpec sub.dims) bytes fields coords rest

omit [Zero α] in
/-- No other file is decoded to as many values as its part has. -/
theorem recordsFit_of_holds {part : Part Float α} (h : plan.Holds tree sub part)
    (hfills : part.2.Fills plan.layout plan.metadata.slotCount part.1) :
    plan.RecordsFit tree sub := by
  have hlt := h.volume_lt hfills
  obtain ⟨hdims, hdecode⟩ := h
  have hblock := mapError_eq_ok_iff.mp hdecode
  unfold readBlock at hblock
  split at hblock
  · cases hblock
  · rename_i bytes hread
    rw [hdims] at hlt
    have hfields : plan.metadata.slotCount * Word.wrap (plan.layout.cells sub.dims) <
        Word.count 8 := Nat.lt_of_le_of_lt (Nat.mul_le_mul_left _ (Word.wrap_le _)) hlt
    obtain ⟨fields, coords, rest, hstored⟩ := Block.exists_stored_of_decode hfields hblock
    exact ⟨bytes, fields, coords, rest, hread, hstored⟩

omit [Zero α] in
/-- A file that is returned as it is has as many coordinates as its dimensions say. -/
theorem lengths_of_single (h : plan.single tree sub = .ok s) :
    s.HasExtents plan.layout plan.metadata.slotCount sub.dims ∧
      (∀ a, (s.coords.get a).length = sub.dims.extent a) ∧ plan.RecordsFit tree sub := by
  obtain ⟨block, f, hdecode, hf, rfl⟩ := single_eq_ok_iff.mp h
  have hholds : plan.Holds tree sub (sub.dims, block) := ⟨rfl, hdecode⟩
  have hmatches := hholds.matches
  have hvars : block.vars = plan.metadata.slotCount := hmatches.vars_eq
  rw [hvars, Tensor.ofArray?] at hf
  split at hf
  · rename_i hsize
    cases hf
    refine ⟨⟨rfl, rfl, rfl, rfl⟩, fun a => ?_, ?_⟩
    · exact (congrArg List.length (PerAxis.get_map ..)).trans
        ((List.length_map ..).trans (hmatches.length_eq a))
    · exact recordsFit_of_holds hholds ⟨hvars, Nat.le_of_eq hsize.symm⟩
  · cases hf

theorem lengths_of_stitched (h : plan.stitched tree = .ok s) :
    s.HasExtents plan.layout plan.metadata.slotCount plan.metadata.dims ∧
      (∀ a, (s.coords.get a).length = plan.metadata.dims.extent a) ∧
      ∀ sub ∈ plan.subdomains, plan.RecordsFit tree sub := by
  obtain ⟨parts, asm, c, hparts, hrun, -, rfl⟩ := stitched_eq_ok_iff.mp h
  have hover := Assembly.over_empty.placeAll hrun
  refine ⟨⟨hover.layout_eq, hover.shape_eq, ?_, rfl⟩, hover.length_eq, fun sub hmem => ?_⟩
  · exact congrArg Dimensions.interiorBounds hover.dims_eq
  · obtain ⟨part, hpart, hholds⟩ := exists_part_of_mem hparts hmem
    exact recordsFit_of_holds hholds (Assembly.over_empty.fills_of_placeAll hrun hpart)

theorem lengths_of_readRecords (hstorage : plan.storage ≠ .container)
    (h : plan.readRecords tree cancelled = .ok s) :
    s.HasExtents plan.layout plan.metadata.slotCount plan.readDims ∧
    (∀ a, (s.coords.get a).length = plan.readDims.extent a) ∧
    ∀ sub ∈ plan.subdomains, plan.RecordsFit tree sub := by
  obtain ⟨-, ⟨sub, hsubs, hsingle⟩ | ⟨hmany, hstitched⟩⟩ := readRecords_eq_ok_iff.mp h
  · have hdims : plan.readDims = sub.dims := by
      unfold readDims
      rw [hsubs]
      cases hs : plan.storage <;> first | rfl | exact absurd hs hstorage
    obtain ⟨hextents, hlengths, hfits⟩ := lengths_of_single hsingle
    rw [hdims, hsubs]
    exact ⟨hextents, hlengths, List.forall_mem_singleton.mpr hfits⟩
  · have hdims : plan.readDims = plan.metadata.dims := by
      unfold readDims
      match hsubs : plan.subdomains with
      | [] => cases plan.storage <;> rfl
      | [sub] =>
        rw [hsubs] at hmany
        exact absurd hmany (Nat.lt_irrefl 1)
      | sub :: sub' :: subs => cases plan.storage <;> rfl
    rw [hdims]
    exact lengths_of_stitched hstitched

/-- If a container is read, its coordinates are as many as the grid has cells along their axis. -/
def CoordinatesFit (plan : ReadPlan Float) (stores : Option (ContainerStore Float)) : Prop :=
  plan.storage = .container → ∀ store c, stores = some store → plan.opens store c →
    ∀ a t, c.read ("grid/" ++ a.name) = .ok t → t.cells.size = plan.metadata.dims.extent a

theorem lengths_iff_of_readContainer (hstorage : plan.storage = .container)
    (h : plan.readContainer store cancelled = .ok s) :
    (∀ a, (s.coords.get a).length = plan.readDims.extent a) ↔ plan.CoordinatesFit (some store) := by
  obtain ⟨-, c, coords, hopens, hcoords⟩ := hasExtents_of_readContainer h
  have hdims : plan.readDims = plan.metadata.dims := by rw [readDims, hstorage]
  have hlength (a : Axis) : (s.coords.get a).length = (coords a).cells.size := by
    rw [(hcoords a).2, List.length_map, Array.length_toList]
  rw [hdims]
  constructor
  · intro hlengths _ store' c' hstore hopens' a t ht
    cases hstore
    cases hopens.unique hopens'
    cases (hcoords a).1.symm.trans ht
    rw [← hlength, hlengths]
  · intro hfits a
    rw [hlength]
    exact hfits hstorage store c rfl hopens a _ (hcoords a).1

theorem read_eq_readRecords (hstorage : plan.storage ≠ .container)
    (stores : Option (ContainerStore Float)) :
    plan.read tree stores cancelled = plan.readRecords (α := α) tree cancelled := by
  unfold read
  cases hs : plan.storage with
  | container => exact absurd hs hstorage
  | collective => rfl
  | perProcess => rfl

/-- The tensor and the bounds of what is read have the extents of the plan. If a container is read
whose coordinates have them too, or no container at all, so do the coordinates, and the snapshot can
be trimmed. Record files with other extents are not read. -/
theorem read_extents (plan : ReadPlan Float) (tree : FileTree)
    (stores : Option (ContainerStore Float)) (cancelled : Bool) (s : Snapshot Float α)
    (h : plan.read tree stores cancelled = .ok s) :
    s.HasExtents plan.layout plan.metadata.slotCount plan.readDims ∧
    ((∀ a, (s.coords.get a).length = plan.readDims.extent a) ↔ plan.CoordinatesFit stores) ∧
    (plan.CoordinatesFit stores → ∃ s', s.trim = .ok s') ∧
    (plan.storage ≠ .container → ∀ sub ∈ plan.subdomains, plan.RecordsFit tree sub) := by
  by_cases hstorage : plan.storage = .container
  · have hdims : plan.readDims = plan.metadata.dims := by rw [readDims, hstorage]
    unfold read at h
    rw [hstorage] at h
    cases stores with
    | none => cases h
    | some store =>
      have hextents : s.HasExtents plan.layout plan.metadata.slotCount plan.readDims := by
        rw [hdims]
        exact (hasExtents_of_readContainer h).1
      have hfit := lengths_iff_of_readContainer hstorage h
      exact ⟨hextents, hfit, fun hfits => hextents.exists_trim (hfit.mpr hfits),
        fun hnot => absurd hstorage hnot⟩
  · rw [read_eq_readRecords hstorage] at h
    obtain ⟨hextents, hlengths, hfiles⟩ := lengths_of_readRecords hstorage h
    have hfits : plan.CoordinatesFit stores := fun hs => absurd hs hstorage
    exact ⟨hextents, iff_of_true hlengths hfits, fun _ => hextents.exists_trim hlengths,
      fun _ => hfiles⟩

/-- A run of three cells in a row, with its output in a container. -/
def rowMetadata : FixedMetadata Float where
  run := ⟨⟨⟨3, 1, 1⟩, .uniform 0, 1, 0, .double, .uniform 1, .uniform 0⟩,
    { RunSettings.standard with ioStrategy := some "HDF5" }, .ofList [("lnrho", 1)]⟩
  processors := .empty
  grid := none

/-- Its container, with the given number of coordinates along x. -/
def rowContainer (n : Nat) : Container Float :=
  .ofList [("data/lnrho", .fill [1, 1, 3] 1), ("time", .fill [] 0), ("grid/x", .fill [n] 0),
    ("grid/y", .fill [1] 0), ("grid/z", .fill [1] 0), ("grid/dx", .fill [] 1),
    ("grid/dy", .fill [] 1), ("grid/dz", .fill [] 1)]

def rowStore (n : Nat) : ContainerStore Float :=
  .ofList [(["run", "allprocs", "var.h5"], rowContainer n)]

def rowTree : FileTree := .ofList [(["run"], .directory)]

def rowPlan : ReadPlan Float where
  dir := ⟨"run"⟩
  storage := .container
  metadata := rowMetadata.run
  layout := .full
  subdomains := [⟨.shared, ⟨"run/allprocs/var.h5"⟩, rowMetadata.run.dims⟩]
  readsPersistence := false
  workers := 2
  grid := none

theorem make_rowPlan : ((make rowMetadata.supplier rowTree ⟨"run"⟩
    ⟨.latest, .all, true, false, true, 2⟩).run.run (.empty, ())).1 = .ok rowPlan := rfl

/-- How many coordinates the container has along an axis. -/
def rowLength (n : Nat) (a : Axis) : Nat := if a = .x then n else 1

theorem read_rowContainer (n : Nat) (a : Axis) :
    (rowContainer n).read ("grid/" ++ a.name) = .ok (.fill [rowLength n a] 0) := by
  have hname : "grid/" ++ a.name = ["grid/x", "grid/y", "grid/z"].getD a.component "" := by
    cases a <;> decide
  rw [hname]
  cases a <;> rfl

theorem opens_rowStore_iff {n : Nat} {c : Container Float} :
    rowPlan.opens (rowStore n) c ↔ c = rowContainer n :=
  ⟨fun h => h.unique ⟨_, _, rfl, rfl⟩, fun h => h ▸ ⟨_, _, rfl, rfl⟩⟩

theorem exists_read_rowPlan (n : Nat) : ∃ s : Snapshot Float Float,
    rowPlan.readContainer (rowStore n) false = .ok s ∧
      ∀ a, (s.coords.get a).length = rowLength n a := by
  have hkeys : (rowContainer n).keys = ["data/lnrho", "time", "grid/x", "grid/y", "grid/z",
    "grid/dx", "grid/dy", "grid/dz"] := rfl
  have hnames : (rowContainer n).names "data" = .ok ["lnrho"] := by
    have hunder : ["data/lnrho", "time", "grid/x", "grid/y", "grid/z", "grid/dx", "grid/dy",
      "grid/dz"].filterMap (Container.nameUnder? "data") = ["lnrho"] := by decide
    rw [Container.names, hkeys, hunder]
  obtain ⟨s, hs⟩ : ∃ s : Snapshot Float Float,
      rowPlan.readContainer (rowStore n) false = .ok s := by
    refine ⟨?_, bind_eq_ok_iff.mpr ⟨rowContainer n, rfl, bind_eq_ok_iff.mpr
      ⟨["lnrho"], mapError_eq_ok_iff.mpr hnames, ?_⟩⟩⟩
    rotate_left
    · exact rfl
  refine ⟨s, hs, fun a => ?_⟩
  obtain ⟨-, c, coords, hopens, hcoords⟩ := hasExtents_of_readContainer hs
  obtain ⟨hread, hlength⟩ := hcoords a
  rw [opens_rowStore_iff.mp hopens, read_rowContainer, Except.ok.injEq] at hread
  rw [hlength, ← hread, List.length_map, Array.length_toList, Tensor.size_cells]
  exact Nat.mul_one _

/-- The full row is read with its extents. -/
theorem read_extents_row : ∃ s : Snapshot Float Float,
    rowPlan.read rowTree (some (rowStore 3)) false = .ok s ∧
      (∀ a, (s.coords.get a).length = rowPlan.readDims.extent a) ∧ ∃ s', s.trim = .ok s' := by
  obtain ⟨s, hs, -⟩ := exists_read_rowPlan 3
  obtain ⟨-, hlengths, htrim, -⟩ := read_extents rowPlan rowTree (some (rowStore 3)) false s hs
  have hfits : rowPlan.CoordinatesFit (some (rowStore 3)) := by
    intro _ store c hstore hopens a t ht
    cases hstore
    rw [opens_rowStore_iff.mp hopens, read_rowContainer, Except.ok.injEq] at ht
    rw [← ht, Tensor.size_cells]
    cases a <;> rfl
  exact ⟨s, hs, hlengths.mpr hfits, htrim hfits⟩

/-- A row with two coordinates for its three cells is read as well, and cannot be trimmed. -/
theorem read_extents_shortRow : ∃ (plan : ReadPlan Float) (s : Snapshot Float Float),
    ((make rowMetadata.supplier rowTree ⟨"run"⟩ ⟨.latest, .all, true, false, true, 2⟩).run.run
      (.empty, ())).1 = .ok plan ∧
    plan.read rowTree (some (rowStore 2)) false = .ok s ∧
    s.coords.x.length ≠ plan.metadata.dims.extents.x ∧ ∃ e, s.trim = .error e := by
  obtain ⟨s, hs, hlength⟩ := exists_read_rowPlan 2
  have hx : s.coords.x.length = 2 := hlength .x
  refine ⟨rowPlan, s, make_rowPlan, hs, ?_, ?_⟩
  · rw [hx]
    decide
  · refine Snapshot.exists_trim_eq_error_iff.mpr (.inr ?_)
    obtain ⟨hextents, -⟩ := hasExtents_of_readContainer hs
    refine hextents.boundExceeds_iff.mpr ⟨.x, ?_⟩
    show s.coords.x.length < 3
    rw [hx]
    decide

end ReadPlan

end GridSnapshot
