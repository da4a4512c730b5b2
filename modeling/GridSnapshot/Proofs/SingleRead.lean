import GridSnapshot.Proofs.GlobalField
import GridSnapshot.Proofs.RoundTrip
import GridSnapshot.Proofs.SettledPlan

namespace GridSnapshot

open Outcome
open MetadataSupplier (answer)

namespace GlobalField

variable {α : Type} {σ : Type}

/-- The snapshot file of a processor. -/
def partFile (dir : Path) (o : ReadOptions) (n : Nat) (d : Dimensions) : Subdomain where
  dir := .numbered n
  path := (dir.join (SnapshotDir.numbered n).name).join (o.snapshot.fileName false)
  dims := d

/-- The plan of a read of some of the run's files. -/
def plan (F : GlobalField α) (dir : Path) (o : ReadOptions) (subs : List Subdomain) :
    ReadPlan Float where
  dir := dir
  storage := .perProcess
  metadata := F.metadata
  layout := F.layout
  subdomains := subs
  readsPersistence := o.readsPersistence
  workers := o.workerCount
  grid := none

/-- A run without a grid that has a record file for each processor, with the processor's part of the
field. -/
structure StoredIn [Narrowing Float α] (F : GlobalField α) (src : MetadataSupplier σ Float) (w : σ)
    (tree : FileTree) (dir : Path) (o : ReadOptions) (numbers : List Nat)
    (part : Nat → Part Float α) : Prop where
  steady : src.Steady w
  started : ReadPlan.checkStarted tree dir o.snapshot = .ok ()
  metadata_eq : answer (src.runMetadata dir o.snapshot.resolution) w = .ok F.metadata
  storage_eq : Storage.ofRun tree dir F.metadata.params = .ok .perProcess
  noGrid : o.snapshot.resolution = .standard →
    ∃ p, answer (src.grid dir F.metadata.dims) w = .error (.noGrid p)
  discover_eq : SnapshotDir.discover tree dir = .ok (numbers.map .numbered)
  dims_eq : ∀ n ∈ numbers,
    answer (src.processorDims dir n o.snapshot.resolution) w = .ok (part n).1
  read_eq : ∀ n ∈ numbers, ReadPlan.readBlock tree (partFile dir o n (part n).1).path
    ((F.plan dir o []).blockSpec (part n).1) = .ok (part n).2
  hasPart : ∀ n ∈ numbers, F.HasPart (part n)
  complete : Assembly.Complete F.grid (numbers.map part)

variable {F : GlobalField α} {src : MetadataSupplier σ Float} {w : σ} {tree : FileTree}
  {dir : Path} {o : ReadOptions} {numbers : List Nat} {part : Nat → Part Float α}
  {c : MetadataCache Float}

theorem isReadBy_plan (F : GlobalField α) (dir : Path) (o : ReadOptions) (subs : List Subdomain) :
    F.IsReadBy (F.plan dir o subs) := ⟨rfl, rfl, rfl, rfl⟩

namespace StoredIn

variable [Narrowing Float α] {n : Nat}

theorem holds (h : F.StoredIn src w tree dir o numbers part) (hn : n ∈ numbers)
    (subs : List Subdomain) :
    (F.plan dir o subs).Holds tree (partFile dir o n (part n).1) (part n) :=
  ⟨rfl, mapError_eq_ok_iff.mpr (h.read_eq n hn)⟩

theorem finds (h : F.StoredIn src w tree dir o numbers part) (hn : n ∈ numbers) :
    ReadPlan.Finds src w tree dir o.snapshot.resolution .perProcess F.metadata.dims
      (o.snapshot.fileName false) (.numbered n) (partFile dir o n (part n).1) where
  dir_eq := rfl
  path_eq := by
    have hread := h.read_eq n hn
    unfold ReadPlan.readBlock at hread
    split at hread
    · cases hread
    · rename_i hcontent
      exact ReadPlan.snapshotFile_eq_ok rfl hcontent
  dims_eq := h.dims_eq n hn

/-- A read of some processors is settled, whatever a valid cache holds. -/
theorem make_eq_ok (h : F.StoredIn src w tree dir o numbers part)
    (hv : c.Valid src w (tree.directory dir) o.snapshot.resolution) {choice : ProcessorChoice}
    {chosen : List Nat} (hchosen : ∀ n ∈ chosen, n ∈ numbers)
    (hselect : SnapshotDir.select tree dir .perProcess choice = .ok (chosen.map .numbered)) :
    ((ReadPlan.make src tree dir { o with processor := choice }).run.run (c, w)).1 =
      .ok (F.plan dir o (chosen.map fun n => partFile dir o n (part n).1)) := by
  have hm : answer (src.runMetadata (tree.directory dir).path o.snapshot.resolution) w =
      .ok F.metadata := h.metadata_eq
  have hsubs : List.Forall₂
      (ReadPlan.Finds src w tree dir o.snapshot.resolution .perProcess F.metadata.dims
        (o.snapshot.fileName false))
      (chosen.map .numbered) (chosen.map fun n => partFile dir o n (part n).1) := by
    rw [List.forall₂_map_left_iff, List.forall₂_map_right_iff, List.forall₂_same]
    exact fun n hn => h.finds (hchosen n hn)
  obtain ⟨c₁, hmetadata, hv₁⟩ := MetadataCache.exists_yields_run h.steady hv hm
  obtain ⟨c₂, hfound, hv₂⟩ := ReadPlan.exists_yields_findSubdomains h.steady hv₁ hm hsubs
  obtain ⟨s', hgrid⟩ := ReadPlan.exists_yields_findGrid_none h.steady hv₂ hm h.noGrid
  have hmake := ReadPlan.yields_make_iff (o := { o with processor := choice }).mpr ⟨F.metadata, _,
    .perProcess, _, _, _, none, h.started, hmetadata, h.storage_eq, hselect, hfound, hgrid, rfl⟩
  exact congrArg Prod.fst hmake

theorem make_single (h : F.StoredIn src w tree dir o numbers part)
    (hv : c.Valid src w (tree.directory dir) o.snapshot.resolution) (hn : n ∈ numbers) :
    ((ReadPlan.make src tree dir { o with processor := .single n }).run.run (c, w)).1 =
      .ok (F.plan dir o [partFile dir o n (part n).1]) :=
  h.make_eq_ok hv (List.forall_mem_singleton.mpr hn) rfl

theorem numbers_ne_nil (h : F.StoredIn src w tree dir o numbers part) : numbers ≠ [] := by
  have hparts := h.complete.ne_nil
  rw [Ne, List.map_eq_nil_iff] at hparts
  exact hparts

theorem make_all (h : F.StoredIn src w tree dir o numbers part)
    (hv : c.Valid src w (tree.directory dir) o.snapshot.resolution) :
    ((ReadPlan.make src tree dir { o with processor := .all }).run.run (c, w)).1 =
      .ok (F.plan dir o (numbers.map fun n => partFile dir o n (part n).1)) := by
  refine h.make_eq_ok hv (fun n hn => hn) ?_
  refine SnapshotDir.select_perProcess_all_eq_ok_iff.mpr ⟨h.discover_eq, ?_⟩
  rw [Ne, List.map_eq_nil_iff]
  exact h.numbers_ne_nil

variable [Zero α]

theorem exists_read_single (h : F.StoredIn src w tree dir o numbers part) (hn : n ∈ numbers)
    (store : Option (ContainerStore Float)) :
    ∃ content, (F.plan dir o [partFile dir o n (part n).1]).read tree store false =
        .ok (.ofContent content) ∧
      F.Excerpt (part n).1.base (part n).1.extent content := by
  have hplan := F.isReadBy_plan dir o [partFile dir o n (part n).1]
  rw [read_eq_readRecords hplan]
  exact exists_readOne hplan (h.hasPart n hn) rfl (h.holds hn _)

theorem exists_read_all (h : F.StoredIn src w tree dir o numbers part) (hF : F.FitsStencils)
    (store : Option (ContainerStore Float)) :
    ∃ content, (F.plan dir o (numbers.map fun n => partFile dir o n (part n).1)).read tree store
        false = .ok (.ofContent content) ∧
      F.Excerpt (fun _ => 0) F.grid.wholeExtent content := by
  have hplan := F.isReadBy_plan dir o (numbers.map fun n => partFile dir o n (part n).1)
  rw [read_eq_readRecords hplan]
  refine exists_readAll hF hplan ?_ h.complete ?_
  · intro x hx
    obtain ⟨n, hn, rfl⟩ := List.mem_map.mp hx
    exact h.hasPart n hn
  · have hsubs : (F.plan dir o (numbers.map fun n => partFile dir o n (part n).1)).subdomains =
        numbers.map fun n => partFile dir o n (part n).1 := rfl
    rw [hsubs, List.forall₂_map_left_iff, List.forall₂_map_right_iff, List.forall₂_same]
    exact fun n hn => h.holds hn _

end StoredIn

/-- A read of one processor and a read of all processors, both with the same vector fields derived
and trimmed: neither derives a field that the other does not, a field whose vectors are there is
derived, and what is derived on the part is the part's box of what is derived on the whole run. -/
theorem derived_single_eq_box {α σ : Type} [RealOps α] [Narrowing Float α] (F : GlobalField α)
    (hF : F.FitsStencils) (src : MetadataSupplier σ Float) (w : σ) (tree : FileTree) (dir : Path)
    (o : ReadOptions) (numbers : List Nat) (part : Nat → Part Float α)
    (hrun : F.StoredIn src w tree dir o numbers part) (c c' : MetadataCache Float)
    (hc : c.Valid src w (tree.directory dir) o.snapshot.resolution)
    (hc' : c'.Valid src w (tree.directory dir) o.snapshot.resolution)
    (store : Option (ContainerStore Float)) (fields : List DerivedQuantity)
    (hfields : ∀ q ∈ fields, q.kind = .vectorCalculus) (n : Nat) (hn : n ∈ numbers) :
    ∃ one all : ReadPlan Float, ∃ s s' t t' : Snapshot Float α,
      ((ReadPlan.make src tree dir { o with processor := .single n }).run.run (c, w)).1 =
        .ok one ∧
      ((ReadPlan.make src tree dir { o with processor := .all }).run.run (c', w)).1 = .ok all ∧
      one.read tree store false = .ok s ∧ all.read tree store false = .ok s' ∧
      (s.derive CentralDifference.scheme fields).1.trim = .ok t ∧
      (s'.derive CentralDifference.scheme fields).1.trim = .ok t' ∧
      Table.Matching Outcome.Alike (s.derive CentralDifference.scheme fields).2
        (s'.derive CentralDifference.scheme fields).2 ∧
      (∀ q ∈ fields, q.HasVectors F.metadata.index F.views →
        ∃ outcome, (q, outcome) ∈ (s.derive CentralDifference.scheme fields).2 ∧
          ∀ e, outcome ≠ .failed e) ∧
      t.derived = t'.derived.mapValues fun x =>
        x.sliceLast (F.layout.axes.map (F.grid.interiorSpan (part n).1.position)) := by
  obtain ⟨content, hone, hexcerpt⟩ := hrun.exists_read_single hn store
  obtain ⟨content', hall, hexcerpt'⟩ := hrun.exists_read_all hF store
  have hpair := GlobalField.Excerpt.partSnapshot hF (hrun.hasPart n hn).restricts.isPart hexcerpt
    hexcerpt'
  obtain ⟨hderived, hlog⟩ := hpair.deriveAll hfields (.nil : Table.Matching _ [] [])
  obtain ⟨t, t', ht, ht', hbox⟩ := hderived.exists_trim
  rw [hderived.layout_one] at hbox
  refine ⟨_, _, _, _, t, t', hrun.make_single hc hn, hrun.make_all hc', hone, hall, ht, ht', hlog,
    ?_, hbox⟩
  exact fun q hq hvectors => hpair.exists_outcome hF.cartesian hfields hq hvectors

end GlobalField

namespace RunRecipe

/-- The values of a made-up run as they are read back. -/
def field {α : Type} [Narrowing Float α] (r : RunRecipe) (h : r.Even) : GlobalField α where
  metadata := r.metadata
  grid := r.grid h
  values := fun idx => r.stored (r.valueAt idx)
  spacing := r.spacing.map r.precision.round

theorem hasPart_field {α : Type} [Narrowing Float α] {r : RunRecipe} (h : r.Even)
    {p : PerAxis Nat} (hp : (r.grid h).Holds p) :
    (r.field h : GlobalField α).HasPart (r.part p) :=
  ⟨(restricts_part h hp).cells, rfl⟩

/-- A vector potential in the plane of x and z, on two processors with two interior cells each. -/
def splitPlane : RunRecipe :=
  { standard ⟨4, 1, 1⟩ with
    processors := ⟨2, 1, 1⟩
    evolved := ["ax", "ay", "az"]
    twoDimensional := true }

theorem even_splitPlane : splitPlane.Even where
  cells_pos a := by cases a <;> decide
  processors_pos a := by cases a <;> decide
  divides a := by cases a <;> decide
  extent_lt a := by cases a <;> decide

theorem writable_splitPlane (p : PerAxis Nat) : splitPlane.Writable (splitPlane.partDims p) where
  cells_lt := by
    show 56 < Word.count 8
    decide
  fields_lt := by
    show 8 * (3 * 56) < Word.count 4
    decide
  coords_lt := by
    show 8 * 26 < Word.count 4
    decide
  storable _ he := absurd he List.not_mem_nil
  count_lt := by decide

def splitPlaneField : GlobalField Float := splitPlane.field even_splitPlane

theorem fitsStencils_splitPlane : splitPlaneField.FitsStencils where
  cartesian := rfl
  isWhole := isWhole even_splitPlane
  ghosts_eq := rfl
  ghosts_ge a := by cases a <;> decide
  interior_ge a := by cases a <;> decide

def splitPlanePart (n : Nat) : Part Float Float := splitPlane.part ⟨n, 0, 0⟩

def splitPlaneTree : FileTree := .ofList
  [(["run"], .directory),
   (["run", "proc0"], .directory),
   (["run", "proc0", "var.dat"],
    .file (splitPlane.snapshotFile (splitPlane.partDims ⟨0, 0, 0⟩) (splitPlane.offset ⟨0, 0, 0⟩))),
   (["run", "proc1"], .directory),
   (["run", "proc1", "var.dat"],
    .file (splitPlane.snapshotFile (splitPlane.partDims ⟨1, 0, 0⟩) (splitPlane.offset ⟨1, 0, 0⟩)))]

def splitPlaneMetadata : FixedMetadata Float where
  run := splitPlane.metadata
  processors := .ofList
    [(0, splitPlane.partDims ⟨0, 0, 0⟩), (1, splitPlane.partDims ⟨1, 0, 0⟩)]
  grid := none

theorem discover_splitPlane :
    SnapshotDir.discover splitPlaneTree ⟨"run"⟩ = .ok ([0, 1].map .numbered) := by
  have hlist : splitPlaneTree.list ⟨"run"⟩ = .ok ["proc0", "proc1"] := rfl
  exact LiesIn.discover_of_list (n := 2) (by decide) hlist (by decide)

theorem storedIn_splitPlane :
    splitPlaneField.StoredIn splitPlaneMetadata.supplier () splitPlaneTree ⟨"run"⟩
      ⟨.latest, .all, true, true, true, 2⟩ [0, 1] splitPlanePart where
  steady := ⟨fun _ _ => rfl, fun _ _ _ => rfl, fun _ _ => rfl⟩
  started := rfl
  metadata_eq := rfl
  storage_eq := rfl
  noGrid _ := ⟨_, rfl⟩
  discover_eq := discover_splitPlane
  dims_eq n hn := by
    rcases List.mem_pair.mp hn with rfl | rfl <;> rfl
  read_eq n hn := by
    have hread : splitPlaneTree.read (GlobalField.partFile ⟨"run"⟩
        ⟨.latest, .all, true, true, true, 2⟩ n (splitPlanePart n).1).path =
          .ok (splitPlane.snapshotFile (splitPlane.partDims ⟨n, 0, 0⟩)
            (splitPlane.offset ⟨n, 0, 0⟩)) := by
      rcases List.mem_pair.mp hn with rfl | rfl <;> rfl
    have hholds : (splitPlane.grid even_splitPlane).Holds ⟨n, 0, 0⟩ := by
      rcases List.mem_pair.mp hn with rfl | rfl <;> intro a <;> cases a <;> decide
    have hcells : splitPlane.layout.cells (splitPlane.partDims ⟨n, 0, 0⟩) ≠ 0 := by
      show 56 ≠ 0
      decide
    have hdecode := decode_snapshotFile (α := Float) (writable_splitPlane ⟨n, 0, 0⟩)
      (reaches_part even_splitPlane hholds) hcells
    unfold ReadPlan.readBlock
    rw [hread]
    exact hdecode
  hasPart n hn := by
    refine hasPart_field even_splitPlane ?_
    rcases List.mem_pair.mp hn with rfl | rfl <;> intro a <;> cases a <;> decide
  complete := (restricts_parts even_splitPlane).2

/-- The second of the two processors: its part is the upper half along x. -/
theorem derived_single_eq_box_splitPlane :
    ∃ one all : ReadPlan Float, ∃ s s' t t' : Snapshot Float Float,
      ((ReadPlan.make splitPlaneMetadata.supplier splitPlaneTree ⟨"run"⟩
        ⟨.latest, .single 1, true, true, true, 2⟩).run.run (.empty, ())).1 = .ok one ∧
      ((ReadPlan.make splitPlaneMetadata.supplier splitPlaneTree ⟨"run"⟩
        ⟨.latest, .all, true, true, true, 2⟩).run.run (.empty, ())).1 = .ok all ∧
      one.read splitPlaneTree none false = .ok s ∧ all.read splitPlaneTree none false = .ok s' ∧
      (s.derive CentralDifference.scheme [.bb, .jj]).1.trim = .ok t ∧
      (s'.derive CentralDifference.scheme [.bb, .jj]).1.trim = .ok t' ∧
      (∀ q ∈ [DerivedQuantity.bb, .jj],
        ∃ outcome, (q, outcome) ∈ (s.derive CentralDifference.scheme [.bb, .jj]).2 ∧
          ∀ e, outcome ≠ .failed e) ∧
      t.derived = t'.derived.mapValues fun x => x.sliceLast [⟨0, 1⟩, ⟨2, 4⟩] := by
  obtain ⟨one, all, s, s', t, t', hone, hall, hs, hs', ht, ht', -, hpresent, hbox⟩ :=
    GlobalField.derived_single_eq_box splitPlaneField fitsStencils_splitPlane
      splitPlaneMetadata.supplier () splitPlaneTree ⟨"run"⟩ ⟨.latest, .all, true, true, true, 2⟩
      [0, 1] splitPlanePart storedIn_splitPlane .empty .empty
      (MetadataCache.valid_of_get?_eq_none rfl) (MetadataCache.valid_of_get?_eq_none rfl) none
      [.bb, .jj] (by decide) 1 (by decide)
  refine ⟨one, all, s, s', t, t', hone, hall, hs, hs', ht, ht', fun q hq => ?_, hbox⟩
  refine hpresent q hq ⟨?_, ?_⟩
  · rcases List.mem_pair.mp hq with rfl | rfl <;> exact List.cons_ne_nil _ _
  · have haa : splitPlaneField.views.get? "aa" = some ⟨0, 3⟩ := rfl
    rcases List.mem_pair.mp hq with rfl | rfl <;>
      exact fun name hname => by
        obtain rfl := List.mem_singleton.mp hname
        exact ⟨⟨0, 3⟩, haa, rfl⟩

end RunRecipe

end GridSnapshot
