import GridSnapshot.Proofs.ContainerContents
import GridSnapshot.Proofs.SlotFilling

namespace GridSnapshot

open Outcome Record

section Rows

variable {β : Type} {rows : Nat → List β} {m n s k : Nat}

theorem length_flatMap_range (h : ∀ s < n, (rows s).length = m) :
    ((List.range n).flatMap rows).length = n * m := by
  induction n with
  | zero => exact (Nat.zero_mul m).symm
  | succ n ih =>
    have hlast := h n (Nat.lt_succ_self n)
    have hrest := ih fun s hs => h s (Nat.lt_succ_of_lt hs)
    rw [List.range_succ, List.flatMap_append, List.length_append, hrest, List.flatMap_singleton,
      hlast, Nat.succ_mul]

theorem getElem?_flatMap_range (h : ∀ s < n, (rows s).length = m) (hs : s < n) (hk : k < m) :
    ((List.range n).flatMap rows)[s * m + k]? = (rows s)[k]? := by
  induction n with
  | zero => cases hs
  | succ n ih =>
    have hfront : ∀ s < n, (rows s).length = m := fun s hs => h s (Nat.lt_succ_of_lt hs)
    have hlength := length_flatMap_range hfront
    rw [List.range_succ, List.flatMap_append, List.flatMap_singleton]
    rcases Nat.lt_or_eq_of_le (Nat.le_of_lt_succ hs) with hlt | rfl
    · have hplace : s * m + k < ((List.range n).flatMap rows).length :=
        hlength ▸ ReadPlan.place_lt hlt hk
      rw [List.getElem?_append_left hplace, ih hfront hlt]
    · rw [List.getElem?_append_right (by omega), hlength, Nat.add_sub_cancel_left]

end Rows

/-- The numbers of a snapshot: the cells of each variable slot, and what a coordinate record has. -/
structure SnapshotNumbers where
  cells : Nat → Tensor Float
  record : CoordinateRecord Float

/-- Two snapshots with the same numbers, coordinates, bounds and names of fields. -/
structure Snapshot.SameFields {ω α : Type} (s s' : Snapshot ω α) : Prop where
  f_eq : s.f = s'.f
  coords_eq : s.coords = s'.coords
  time_eq : s.time = s'.time
  spacing_eq : s.spacing = s'.spacing
  offset_eq : s.shearOffset = s'.shearOffset
  bounds_eq : s.bounds = s'.bounds
  layout_eq : s.layout = s'.layout
  views_eq : s.views = s'.views

namespace SnapshotNumbers

/-- The numbers have the extents of a run, which has at least one cell and one slot. -/
structure Fits (N : SnapshotNumbers) (plan : ReadPlan Float) : Prop where
  cells_pos : 0 < plan.layout.cells plan.metadata.dims
  slots_pos : 0 < plan.metadata.slotCount
  shape_eq : ∀ slot < plan.metadata.slotCount,
    (N.cells slot).shape = plan.layout.cellShape plan.metadata.dims
  length_eq : ∀ a, (N.record.coords.get a).length = plan.metadata.dims.extent a
  shear_eq : N.record.shearOffset.isSome = plan.metadata.params.shear

theorem Fits.size_cells {N : SnapshotNumbers} {plan : ReadPlan Float} (h : N.Fits plan) {slot : Nat}
    (hlt : slot < plan.metadata.slotCount) :
    (N.cells slot).cells.size = plan.layout.cells plan.metadata.dims := by
  rw [Tensor.size_cells, h.shape_eq slot hlt]
  rfl

/-- The container has the numbers of each slot under the names of the slot, and those of the
coordinate record under names of their own. -/
structure InContainer (N : SnapshotNumbers) (index : SlotIndex) (vars : Nat)
    (c : Container Float) : Prop where
  cells_eq : ∀ name slot, index.get? name = some (slot + 1) → slot < vars →
    c.read ("data/" ++ name) = .ok (N.cells slot)
  time_eq : c.scalar "time" = .ok N.record.time
  coords_eq : ∀ a : Axis, ∃ t, c.read ("grid/" ++ a.name) = .ok t ∧
    t.cells.toList = N.record.coords.get a
  spacing_eq : ∀ a : Axis, c.scalar ("grid/d" ++ a.name) = .ok (N.record.spacing.get a)
  offset_eq : ∀ offset, N.record.shearOffset = some offset →
    c.scalar "persist/shear_delta_y" = .ok offset

/-- The bytes are two records of whole reals, which are the numbers of slot after slot and those of
the coordinate record. -/
structure InRecords (N : SnapshotNumbers) (vars : Nat) (bytes fields coords rest : Bytes) :
    Prop where
  bytes_eq : bytes = frame fields ++ (frame coords ++ rest)
  fields_eq : values .double fields = (List.range vars).flatMap fun slot =>
    (N.cells slot).cells.toList
  coords_eq : values .double coords = N.record.toValues
  whole_fields : fields.length % 8 = 0
  whole_coords : coords.length % 8 = 0
  fields_lt : fields.length < 2 ^ 32
  coords_lt : coords.length < 2 ^ 32

end SnapshotNumbers

namespace ReadPlan

variable {α : Type} [Zero α] [Narrowing Float α] {plan : ReadPlan Float} {N : SnapshotNumbers}

/-- The snapshot has the content that a plan makes of the numbers. -/
def Gives (plan : ReadPlan Float) (N : SnapshotNumbers) (s : Snapshot Float α) : Prop :=
  ∃ grid f values, s = .ofContent (plan.content plan.metadata.dims grid f N.record values) ∧
    f.shape = plan.layout.shape plan.metadata.slotCount plan.metadata.dims ∧
    f.cells.toList = (List.range plan.metadata.slotCount).flatMap fun slot =>
      (N.cells slot).cells.toList.map narrow

omit [Zero α] in
theorem toList_of_holdsSlots (h : N.Fits plan) {f : Tensor α}
    (hf : f.shape = plan.layout.shape plan.metadata.slotCount plan.metadata.dims)
    (hslots : ∀ slot < plan.metadata.slotCount, HoldsSlot f slot (N.cells slot)) :
    f.cells.toList = (List.range plan.metadata.slotCount).flatMap fun slot =>
      (N.cells slot).cells.toList.map narrow := by
  have hvolume : ∀ slot < plan.metadata.slotCount,
      volume (N.cells slot).shape = plan.layout.cells plan.metadata.dims := fun slot hlt =>
    congrArg volume (h.shape_eq slot hlt)
  have hrows : ∀ slot < plan.metadata.slotCount,
      ((N.cells slot).cells.toList.map (narrow : Float → α)).length =
        plan.layout.cells plan.metadata.dims := by
    intro slot hlt
    rw [List.length_map, Array.length_toList, h.size_cells hlt]
  have hsize : f.cells.toList.length =
      plan.metadata.slotCount * plan.layout.cells plan.metadata.dims := by
    rw [Array.length_toList, f.size_cells, hf]
    rfl
  refine List.ext_getElem? fun i => ?_
  by_cases hi : i < plan.metadata.slotCount * plan.layout.cells plan.metadata.dims
  · -- A place is a slot and a place in that slot.
    have hslot : i / plan.layout.cells plan.metadata.dims < plan.metadata.slotCount :=
      (Nat.div_lt_iff_lt_mul h.cells_pos).mpr hi
    have hk := Nat.mod_lt i h.cells_pos
    have hcell := hslots _ hslot (i % plan.layout.cells plan.metadata.dims)
      ((hvolume _ hslot).symm ▸ hk)
    rw [hvolume _ hslot] at hcell
    have hrow := getElem?_flatMap_range hrows hslot hk
    rw [Nat.div_add_mod'] at hcell hrow
    rw [hrow, Array.getElem?_toList, hcell]
    simp [Tensor.map]
  · rw [List.getElem?_eq_none (by omega),
      List.getElem?_eq_none (by rw [length_flatMap_range hrows]; omega)]

/-- The index names each slot, by a name without a slash. -/
structure NamesSlots (index : SlotIndex) (vars : Nat) : Prop where
  plain : ∀ name ∈ index.keys, '/' ∉ name.toList
  covers : ∀ slot < vars, ∃ name, index.get? name = some (slot + 1)

theorem containerRecord_eq {shear : Bool} {vars : Nat} {c : Container Float}
    (hshear : N.record.shearOffset.isSome = shear)
    (h : N.InContainer plan.metadata.index vars c) : containerRecord shear c = .ok N.record := by
  obtain ⟨x, hx, hxs⟩ := h.coords_eq .x
  obtain ⟨y, hy, hys⟩ := h.coords_eq .y
  obtain ⟨z, hz, hzs⟩ := h.coords_eq .z
  have hdx := h.spacing_eq .x
  have hdy := h.spacing_eq .y
  have hdz := h.spacing_eq .z
  have hrecord (offset : Option Float) (h : N.record.shearOffset = offset) :
      (.ok ⟨N.record.time, ⟨x.cells.toList, y.cells.toList, z.cells.toList⟩,
        ⟨N.record.spacing.get .x, N.record.spacing.get .y, N.record.spacing.get .z⟩, offset⟩ :
          Except ContainerFault (CoordinateRecord Float)) = .ok N.record := by
    rw [hxs, hys, hzs, ← h]
    rfl
  unfold containerRecord
  refine bind_eq_ok_iff.mpr ⟨_, h.time_eq, ?_⟩
  refine bind_eq_ok_iff.mpr ⟨_, hx, bind_eq_ok_iff.mpr ⟨_, hy, bind_eq_ok_iff.mpr ⟨_, hz, ?_⟩⟩⟩
  refine bind_eq_ok_iff.mpr ⟨_, hdx, bind_eq_ok_iff.mpr ⟨_, hdy, bind_eq_ok_iff.mpr ⟨_, hdz, ?_⟩⟩⟩
  cases hsome : N.record.shearOffset with
  | none =>
    rw [hsome] at hshear
    subst hshear
    exact hrecord none hsome
  | some offset =>
    have hread : optional (c.scalar "persist/shear_delta_y") = .ok (some offset) := by
      rw [h.offset_eq offset hsome]
      rfl
    rw [hsome] at hshear
    subst hshear
    exact bind_eq_ok_iff.mpr ⟨some offset, hread, hrecord _ hsome⟩

theorem exists_containerValues (readsPersistence : Bool) (c : Container Float) :
    ∃ values, containerValues readsPersistence c = .ok values := by
  cases readsPersistence with
  | false => exact ⟨.empty, rfl⟩
  | true => exact exists_containerPersistence c

theorem exists_readContainer {store : ContainerStore Float} {sub : Subdomain}
    {subs : List Subdomain} {c : Container Float} (hsubs : plan.subdomains = sub :: subs)
    (hopen : store.openFile sub.path = .ok c) (hfits : N.Fits plan)
    (hindex : NamesSlots plan.metadata.index plan.metadata.slotCount)
    (hin : N.InContainer plan.metadata.index plan.metadata.slotCount c) :
    ∃ s : Snapshot Float α, plan.readContainer store false = .ok s ∧ plan.Gives N s := by
  -- The dataset of a slot is listed, so there is at least one.
  have hlisted : ∀ slot < plan.metadata.slotCount, ∃ name,
      plan.metadata.index.get? name = some (slot + 1) ∧
        "data" ++ "/" ++ name ∈ c.keys ∧ '/' ∉ name.toList := by
    intro slot hlt
    obtain ⟨name, hname⟩ := hindex.covers slot hlt
    exact ⟨name, hname, Container.exists_read_iff.mp ⟨_, hin.cells_eq name slot hname hlt⟩,
      hindex.plain name (Table.mem_keys_iff.mpr ⟨_, hname⟩)⟩
  obtain ⟨_, -, hentry, hslash⟩ := hlisted 0 hfits.slots_pos
  obtain ⟨names, hnames⟩ := Container.exists_names hentry hslash
  have hread : ∀ name ∈ names, ∀ slot,
      datasetSlot? plan.metadata.index plan.metadata.slotCount name = some slot →
        c.read ("data/" ++ name) = .ok (N.cells slot) := by
    intro name _ slot hslot
    obtain ⟨hget, hlt⟩ := datasetSlot?_eq_some_iff.mp hslot
    exact hin.cells_eq name slot hget hlt
  obtain ⟨f, hfill, hshape, hholds⟩ := exists_fillSlots (p := sub.path)
    (f := (.fill (plan.layout.shape plan.metadata.slotCount plan.metadata.dims) 0 : Tensor α))
    hread hfits.shape_eq rfl
  have hslots : ∀ slot < plan.metadata.slotCount, HoldsSlot f slot (N.cells slot) := by
    intro slot hlt
    obtain ⟨name, hname, hentry, hslash⟩ := hlisted slot hlt
    exact hholds slot hlt (.inr ⟨name, (Container.mem_names hnames).mpr ⟨hentry, hslash⟩,
      datasetSlot?_eq_some_iff.mpr ⟨hname, hlt⟩⟩)
  have hrecord := containerRecord_eq hfits.shear_eq hin
  obtain ⟨values, hvalues⟩ := exists_containerValues plan.readsPersistence c
  refine ⟨.ofContent (plan.content plan.metadata.dims plan.grid f N.record values), ?_,
    _, f, values, rfl, hshape, toList_of_holdsSlots hfits hshape hslots⟩
  rw [readContainer_eq_bind plan store false hsubs]
  refine bind_eq_ok_iff.mpr ⟨c, mapError_eq_ok_iff.mpr hopen, ?_⟩
  refine bind_eq_ok_iff.mpr ⟨names, mapError_eq_ok_iff.mpr hnames, ?_⟩
  refine bind_eq_ok_iff.mpr ⟨f, hfill, ?_⟩
  refine bind_eq_ok_iff.mpr ⟨N.record, mapError_eq_ok_iff.mpr hrecord, ?_⟩
  exact bind_eq_ok_iff.mpr ⟨values, mapError_eq_ok_iff.mpr hvalues, rfl⟩

variable {bytes fields coords rest : Bytes} {sub : Subdomain}

omit [Zero α] [Narrowing Float α] in
theorem stored_of_inRecords (hprecision : plan.metadata.dims.precision = .double)
    (hfits : N.Fits plan) (hin : N.InRecords plan.metadata.slotCount bytes fields coords rest) :
    Block.Stored (plan.blockSpec plan.metadata.dims) bytes fields coords rest := by
  have hwidth : (plan.blockSpec plan.metadata.dims).precision.bytes = 8 :=
    congrArg Precision.bytes hprecision
  have hrows : ∀ slot < plan.metadata.slotCount, (N.cells slot).cells.toList.length =
      plan.layout.cells plan.metadata.dims := by
    intro slot hlt
    rw [Array.length_toList, hfits.size_cells hlt]
  have hnumber : fields.length / 8 =
      plan.metadata.slotCount * plan.layout.cells plan.metadata.dims := by
    have hlength := length_values .double fields
    rw [hin.fields_eq, length_flatMap_range hrows] at hlength
    exact hlength.symm
  have hnumber' : coords.length / 8 =
      CoordinateRecord.total plan.metadata.dims.extents plan.metadata.params.shear := by
    have hlength := length_values .double coords
    rw [hin.coords_eq, CoordinateRecord.length_toValues hfits.length_eq, hfits.shear_eq] at hlength
    exact hlength.symm
  have hwhole := hin.whole_fields
  have hwhole' := hin.whole_coords
  have hcells : (plan.blockSpec plan.metadata.dims).cells =
      plan.layout.cells plan.metadata.dims := by
    have hle := Nat.le_mul_of_pos_left (plan.layout.cells plan.metadata.dims) hfits.slots_pos
    have hlt := hin.fields_lt
    have hcount := Word.count_eight
    exact Word.wrap_eq (by omega)
  refine ⟨hin.bytes_eq, hcells ▸ hfits.cells_pos, ?_, ?_, hin.fields_lt, hin.coords_lt⟩
  · rw [Block.fieldBytes, hwidth, hcells]
    change fields.length = plan.metadata.slotCount * plan.layout.cells plan.metadata.dims * 8
    omega
  · rw [Block.coordinateBytes, hwidth]
    change coords.length =
      CoordinateRecord.total plan.metadata.dims.extents plan.metadata.params.shear * 8
    omega

omit [Zero α] in
theorem exists_single {tree : FileTree} (hdims : sub.dims = plan.metadata.dims)
    (hprecision : plan.metadata.dims.precision = .double) (hfits : N.Fits plan)
    (hread : tree.read sub.path = .ok bytes)
    (hin : N.InRecords plan.metadata.slotCount bytes fields coords rest)
    (hbehind : plan.readsPersistence = true →
      ∃ values, Block.persistenceBehind (plan.blockSpec sub.dims) rest = .ok values) :
    ∃ s : Snapshot Float α, plan.single tree sub = .ok s ∧ plan.Gives N s := by
  obtain ⟨place, path, dims⟩ := sub
  cases hdims
  have hstored := stored_of_inRecords hprecision hfits hin
  obtain ⟨b, hdecode, hcontains⟩ := hstored.exists_decode (α := α) hbehind
  have hdouble : (plan.blockSpec plan.metadata.dims).precision = .double := hprecision
  have hvars : b.vars = plan.metadata.slotCount := hcontains.vars_eq
  have hdata : b.data.toList = (List.range plan.metadata.slotCount).flatMap fun slot =>
      (N.cells slot).cells.toList.map narrow := by
    rw [hcontains.data_eq, hdouble, hin.fields_eq, List.map_flatMap]
  have hrecord : b.coords = N.record := by
    have hcoords := hcontains.coords_eq
    rw [hdouble, hin.coords_eq] at hcoords
    have hlt : N.record.toValues.length < Word.count 8 := by
      rw [CoordinateRecord.length_toValues hfits.length_eq, hfits.shear_eq]
      exact hstored.fitsWords.coordinates_lt
    have hblock := (CoordinateRecord.ofValues_eq_ok_iff hlt).mpr
      ⟨hcoords, hcontains.shear_eq, hcontains.length_eq⟩
    have hnumbers := (CoordinateRecord.ofValues_eq_ok_iff hlt).mpr
      ⟨rfl, hfits.shear_eq, hfits.length_eq⟩
    exact Except.ok.inj (hblock.symm.trans hnumbers)
  have hshape : plan.layout.shape b.vars plan.metadata.dims =
      plan.layout.shape plan.metadata.slotCount plan.metadata.dims := by
    rw [hvars]
  have hsize : b.data.size = volume (plan.layout.shape b.vars plan.metadata.dims) := by
    rw [← Array.length_toList, hdata, hvars]
    refine length_flatMap_range fun slot hlt => ?_
    rw [List.length_map, Array.length_toList, hfits.size_cells hlt]
    rfl
  have hplan : plan.decode tree ⟨place, path, plan.metadata.dims⟩ = .ok b := by
    unfold decode readBlock
    rw [hread]
    exact mapError_eq_ok_iff.mpr hdecode
  refine ⟨.ofContent (plan.content plan.metadata.dims
    (plan.grid.filter fun g => gridFits g plan.metadata.dims)
    ⟨plan.layout.shape b.vars plan.metadata.dims, b.data, hsize⟩ N.record b.persistence), ?_,
    _, _, _, rfl, hshape, hdata⟩
  rw [single_eq_bind, hplan, ← hrecord]
  simp only [bind, Except.bind, Tensor.ofArray?, dif_pos hsize]

/-- Two plans for snapshots of one run, in a container and in a collective record file of
doubles. -/
structure SameRun (c r : ReadPlan Float) (containerFile recordFile : Subdomain) : Prop where
  container : c.storage = .container
  collective : r.storage = .collective
  container_files : c.subdomains = [containerFile]
  record_files : r.subdomains = [recordFile]
  record_dims : recordFile.dims = r.metadata.dims
  precision : r.metadata.dims.precision = .double
  dims_eq : c.metadata.dims = r.metadata.dims
  index_eq : c.metadata.index = r.metadata.index
  layout_eq : c.layout = r.layout
  auxiliary_eq : c.metadata.params.writesAuxiliary = r.metadata.params.writesAuxiliary
  shear_eq : c.metadata.params.shear = r.metadata.params.shear

section SameRun

variable {c r : ReadPlan Float} {containerFile recordFile : Subdomain}

theorem SameRun.slotCount_eq (h : SameRun c r containerFile recordFile) :
    c.metadata.slotCount = r.metadata.slotCount := by
  rw [RunMetadata.slotCount, RunMetadata.slotCount, h.dims_eq, h.auxiliary_eq]

theorem SameRun.fits (h : SameRun c r containerFile recordFile) (hfits : N.Fits r) : N.Fits c where
  cells_pos := by
    rw [h.layout_eq, h.dims_eq]
    exact hfits.cells_pos
  slots_pos := by
    rw [h.slotCount_eq]
    exact hfits.slots_pos
  shape_eq := by
    rw [h.slotCount_eq, h.layout_eq, h.dims_eq]
    exact hfits.shape_eq
  length_eq := by
    rw [h.dims_eq]
    exact hfits.length_eq
  shear_eq := by
    rw [h.shear_eq]
    exact hfits.shear_eq

omit [Zero α] in
theorem SameRun.sameFields (h : SameRun c r containerFile recordFile) {s s' : Snapshot Float α}
    (hs : c.Gives N s) (hs' : r.Gives N s') : s.SameFields s' := by
  obtain ⟨grid, f, values, rfl, hshape, hcells⟩ := hs
  obtain ⟨grid', f', values', rfl, hshape', hcells'⟩ := hs'
  have hf : f = f' := by
    rw [h.slotCount_eq] at hshape hcells
    rw [h.layout_eq, h.dims_eq, ← hshape'] at hshape
    have hlist : f.cells = f'.cells := Array.toList_inj.mp (hcells.trans hcells'.symm)
    cases f
    cases f'
    cases hshape
    cases hlist
    rfl
  subst hf
  refine ⟨rfl, rfl, rfl, rfl, rfl, congrArg Dimensions.interiorBounds h.dims_eq, h.layout_eq, ?_⟩
  simp only [Snapshot.ofContent, content, h.index_eq]

/-- If the container of a run and its collective record file hold the same numbers, then both are
read, and the snapshots have the same fields. In what order the container lists its datasets does
not matter, nor what else it holds. -/
theorem read_container_eq_records (h : SameRun c r containerFile recordFile)
    (N : SnapshotNumbers) (hfits : N.Fits r)
    (hindex : NamesSlots r.metadata.index r.metadata.slotCount)
    {store : ContainerStore Float} {box : Container Float}
    (hopen : store.openFile containerFile.path = .ok box)
    (hbox : N.InContainer r.metadata.index r.metadata.slotCount box)
    {tree : FileTree} {bytes fields coords rest : Bytes}
    (hread : tree.read recordFile.path = .ok bytes)
    (hrecords : N.InRecords r.metadata.slotCount bytes fields coords rest)
    (hbehind : r.readsPersistence = true →
      ∃ values, Block.persistenceBehind (r.blockSpec recordFile.dims) rest = .ok values)
    (tree' : FileTree) (stores : Option (ContainerStore Float)) :
    ∃ s s' : Snapshot Float α, c.read tree' (some store) false = .ok s ∧
      r.read tree stores false = .ok s' ∧ s.SameFields s' := by
  have hindex' : NamesSlots c.metadata.index c.metadata.slotCount := by
    rw [h.index_eq, h.slotCount_eq]
    exact hindex
  have hbox' : N.InContainer c.metadata.index c.metadata.slotCount box := by
    rw [h.index_eq, h.slotCount_eq]
    exact hbox
  obtain ⟨s, hs, hgives⟩ := exists_readContainer (α := α) h.container_files hopen (h.fits hfits)
    hindex' hbox'
  obtain ⟨s', hs', hgives'⟩ := exists_single (α := α) h.record_dims h.precision hfits hread hrecords
    hbehind
  refine ⟨s, s', ?_, ?_, h.sameFields hgives hgives'⟩
  · unfold read
    rw [h.container]
    exact hs
  · have hstorage : r.storage ≠ .container := by
      rw [h.collective]
      decide
    rw [read_eq_readRecords hstorage]
    exact readRecords_eq_ok_iff.mpr ⟨rfl, .inl ⟨recordFile, h.record_files, hs'⟩⟩

end SameRun

def pairDims : Dimensions :=
  ⟨⟨2, 1, 1⟩, .uniform 0, 2, 0, .double, .uniform 1, .uniform 0⟩

def pairIndex : SlotIndex := .ofList [("ux", 2), ("lnrho", 1)]

/-- The plan for two slots of two cells, from one file. -/
def pairPlan (storage : Storage) (name : String) : ReadPlan Float where
  dir := ⟨"run"⟩
  storage := storage
  metadata := ⟨pairDims, .standard, pairIndex⟩
  layout := .full
  subdomains := [⟨.shared, ⟨name⟩, pairDims⟩]
  readsPersistence := false
  workers := 1
  grid := none

def zeroWord : Bytes := List.replicate 8 0

def oneWord : Bytes := [0, 0, 0, 0, 0, 0, 0xF0, 0x3F]

def zeroReal : Float := Precision.double.decode zeroWord

def oneReal : Float := Precision.double.decode oneWord

/-- The first slot has ones, the second one has zeros. -/
def pairNumbers : SnapshotNumbers where
  cells slot := .fill [1, 1, 2] (if slot = 0 then oneReal else zeroReal)
  record := ⟨zeroReal, ⟨[zeroReal, oneReal], [zeroReal], [zeroReal]⟩,
    ⟨oneReal, oneReal, oneReal⟩, none⟩

/-- The dataset of the second slot comes first, and a dataset without a slot between the two. -/
def pairContainer : Container Float :=
  .ofList [("data/ux", .fill [1, 1, 2] zeroReal), ("time", .fill [] zeroReal),
    ("data/other", .fill [3] oneReal), ("data/lnrho", .fill [1, 1, 2] oneReal),
    ("grid/x", ⟨[2], #[zeroReal, oneReal], rfl⟩), ("grid/y", .fill [1] zeroReal),
    ("grid/z", .fill [1] zeroReal), ("grid/dx", .fill [] oneReal), ("grid/dy", .fill [] oneReal),
    ("grid/dz", .fill [] oneReal)]

def pairFields : Bytes := oneWord ++ oneWord ++ zeroWord ++ zeroWord

def pairCoords : Bytes :=
  zeroWord ++ zeroWord ++ oneWord ++ zeroWord ++ zeroWord ++ oneWord ++ oneWord ++ oneWord

def pairStore : ContainerStore Float := .ofList [(["run", "allprocs", "var.h5"], pairContainer)]

def pairTree : FileTree := .ofList
  [(["run"], .directory), (["run", "allprocs"], .directory),
   (["run", "allprocs", "var.dat"], .file (frame pairFields ++ (frame pairCoords ++ [])))]

theorem sameRun_pair : SameRun (pairPlan .container "run/allprocs/var.h5")
    (pairPlan .collective "run/allprocs/var.dat") ⟨.shared, ⟨"run/allprocs/var.h5"⟩, pairDims⟩
    ⟨.shared, ⟨"run/allprocs/var.dat"⟩, pairDims⟩ :=
  ⟨rfl, rfl, rfl, rfl, rfl, rfl, rfl, rfl, rfl, rfl, rfl⟩

theorem fits_pair : pairNumbers.Fits (pairPlan .collective "run/allprocs/var.dat") where
  cells_pos := by decide
  slots_pos := by decide
  shape_eq _ _ := rfl
  length_eq a := by cases a <;> rfl
  shear_eq := rfl

theorem pairIndex_cases {name : String} {n : Nat} (h : pairIndex.get? name = some n) :
    (name = "ux" ∧ n = 2) ∨ (name = "lnrho" ∧ n = 1) := by
  have hmem : (name, n) ∈ [("ux", 2), ("lnrho", 1)] :=
    (Table.mem_of_get?_insertMany h).elim id fun hnone => nomatch hnone
  simpa using hmem

theorem namesSlots_pair : NamesSlots pairIndex 2 where
  plain name hname := by
    obtain ⟨n, hn⟩ := Table.mem_keys_iff.mp hname
    obtain ⟨rfl, -⟩ | ⟨rfl, -⟩ := pairIndex_cases hn
    · decide
    · decide
  covers slot hlt := by
    match slot, hlt with
    | 0, _ => exact ⟨"lnrho", rfl⟩
    | 1, _ => exact ⟨"ux", rfl⟩

theorem inContainer_pair : pairNumbers.InContainer pairIndex 2 pairContainer where
  cells_eq name slot h _ := by
    obtain ⟨rfl, hslot⟩ | ⟨rfl, hslot⟩ := pairIndex_cases h
    · obtain rfl : slot = 1 := by omega
      rfl
    · obtain rfl : slot = 0 := by omega
      rfl
  time_eq := rfl
  coords_eq a := by
    cases a with
    | x => exact ⟨⟨[2], #[zeroReal, oneReal], rfl⟩, rfl, rfl⟩
    | y => exact ⟨.fill [1] zeroReal, rfl, rfl⟩
    | z => exact ⟨.fill [1] zeroReal, rfl, rfl⟩
  spacing_eq a := by cases a <;> rfl
  offset_eq _ h := nomatch h

theorem inRecords_pair : pairNumbers.InRecords 2
    (frame pairFields ++ (frame pairCoords ++ [])) pairFields pairCoords [] :=
  ⟨rfl, rfl, rfl, by decide, by decide, by decide, by decide⟩

theorem read_container_eq_records_pair : ∃ s s' : Snapshot Float Float32,
    (pairPlan .container "run/allprocs/var.h5").read .empty (some pairStore) false = .ok s ∧
      (pairPlan .collective "run/allprocs/var.dat").read pairTree none false = .ok s' ∧
      s.SameFields s' :=
  read_container_eq_records sameRun_pair pairNumbers fits_pair namesSlots_pair rfl inContainer_pair
    rfl inRecords_pair nofun .empty none

end ReadPlan

end GridSnapshot
