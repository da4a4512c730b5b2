import GridSnapshot.Storage
import GridSnapshot.Proofs.NumberedNames
import GridSnapshot.Proofs.RunFiles
import GridSnapshot.Proofs.RunTexts
import GridSnapshot.Proofs.TextBytes

namespace GridSnapshot

open Outcome
open GridSnapshot.Path (IsName)

namespace RunRecipe

variable {r : RunRecipe} {t : FileTree} {dir : Path} {place : Place} {name home text : String}
  {content : Bytes} {node : FileNode} {p : PerAxis Nat}

/-- A run whose files can be read back: its processors share the cells evenly, it has record files
under their usual name, its numbers fit into words, and its records are short enough. -/
structure IsStorable (r : RunRecipe) : Prop where
  even : r.Even
  recordFiles : r.HasRecordFiles
  fileName_eq : r.fileName = "var.dat"
  evolved_lt : r.evolved.length < Word.count 8
  auxiliary_lt : r.auxiliary.length < Word.count 8
  processors_le : r.processors.x * (r.processors.y * r.processors.z) ≤ Word.count 8
  writable : if r.collective then r.Writable r.wholeDims else r.Writable (r.partDims (.uniform 0))

theorem isAdmitted_concat {names : List String} :
    TreeEntry.IsAdmitted (names ++ [name], node) dir ↔ FileTree.Admits (dir.under names) name := by
  constructor
  · intro hex
    obtain ⟨names', name', heq, hadmits⟩ := hex
    obtain ⟨rfl, hname⟩ := List.append_inj' heq rfl
    rw [(List.cons.inj hname).1]
    exact hadmits
  · exact fun hadmits => ⟨names, name, rfl, hadmits⟩

theorem processors_lt (h : r.IsStorable) (a : Axis) : r.processors.get a < Word.count 8 := by
  have hwhole := h.even.extent_lt a
  have hle := Nat.le_of_dvd (h.even.cells_pos a) (h.even.divides a)
  rw [wholeDims, extent_dims] at hwhole
  omega

theorem IsStorable.fitsWords (h : r.IsStorable) : r.FitsWords where
  extent_lt := h.even.extent_lt
  processors_lt := processors_lt h
  evolved_lt := h.evolved_lt
  auxiliary_lt := h.auxiliary_lt

namespace LiesIn

variable (hl : r.LiesIn t dir place)
include hl

theorem admits_file (he : ([name], node) ∈ r.treeEntries) : FileTree.Admits dir name :=
  isAdmitted_concat.mp (hl.admitted ([] ++ [name], node) he)

theorem read_file (hname : IsName name) (he : ([name], .file content) ∈ r.treeEntries) :
    t.read (dir.join name) = .ok content :=
  hl.leadsTo.read_join hname (hl.admits_file he) (hl.get?_eq _ he)

theorem leadsTo_home (hhome : IsName home) (he : ([home], .directory) ∈ r.treeEntries) :
    t.LeadsTo (dir.join home) (place ++ [home]) :=
  hl.leadsTo.join hhome (hl.admits_file he) (hl.get?_eq _ he)

theorem admits_inner (he : ([home, name], node) ∈ r.treeEntries) :
    FileTree.Admits (dir.join home) name :=
  isAdmitted_concat.mp (hl.admitted ([home] ++ [name], node) he)

theorem get?_inner (he : ([home, name], node) ∈ r.treeEntries) :
    t.get? (place ++ [home] ++ [name]) = some node := by
  rw [List.append_assoc]
  exact hl.get?_eq _ he

theorem read_inner (hhome : IsName home) (hname : IsName name)
    (he : ([home], .directory) ∈ r.treeEntries)
    (he' : ([home, name], .file content) ∈ r.treeEntries) :
    t.read ((dir.join home).join name) = .ok content :=
  (hl.leadsTo_home hhome he).read_join hname (hl.admits_inner he') (hl.get?_inner he')

omit hl in
theorem mem_metadata {e : TreeEntry} (he : e ∈ r.metadataEntries) : e ∈ r.treeEntries :=
  List.mem_append_left _ he

theorem readText_file (hname : name ∈ fileNames)
    (he : ([name], .file (textBytes text)) ∈ r.metadataEntries) :
    t.readText (dir.join name) = .ok text :=
  TextBytes.readText_eq (hl.read_file (isName_of_mem hname) (mem_metadata he))

theorem hasTexts : r.HasTexts t dir where
  dims := hl.readText_file (by decide) (by simp [metadataEntries])
  index := hl.readText_file (by decide) (by simp [metadataEntries])
  params := hl.readText_file (by decide) (by simp [metadataEntries])

omit hl in
theorem mem_part {e : TreeEntry} (hcollective : r.collective = false) (hp : p ∈ r.positions)
    (he : e ∈ r.partEntries p) : e ∈ r.treeEntries := by
  refine List.mem_append_right _ ?_
  rw [snapshotEntries, if_neg (by simp [hcollective])]
  exact List.mem_cons_of_mem _ (List.mem_flatMap.mpr ⟨p, hp, he⟩)

theorem processorDims_eq (h : r.IsStorable) (hcollective : r.collective = false)
    (hp : p ∈ r.positions) :
    MetadataFiles.processorDims t dir (r.processorNumber p) .standard = .ok (r.partDims p) := by
  have hholds : (r.grid h.even).Holds p := ProcessorGrid.mem_positions.mp hp
  have hname : IsName "dim.dat" := isName_of_mem (by decide)
  have hread := hl.read_inner (isName_processorDir (r.processorNumber p)) hname
    (mem_part hcollective hp List.mem_cons_self)
    (mem_part hcollective hp (List.mem_cons_of_mem _ List.mem_cons_self))
  exact hl.hasTexts.processorDims_eq h.fitsWords hholds (TextBytes.readText_eq hread)

/-- A run of record files has no container with its grid. -/
theorem isPresent_container (h : r.Even) : t.isPresent (dir.join "grid.h5") = false := by
  have hname : IsName "grid.h5" := ⟨by decide, by decide, by decide, by decide⟩
  apply hl.leadsTo.isPresent_join hname
  rw [Table.get?_eq_none_iff, ← FileTree.mem_namesIn_iff, hl.namesIn_eq, treeEntries,
    List.filterMap_append, filterMap_topName?_metadataEntries,
    filterMap_topName?_snapshotEntries h, List.mem_append]
  refine not_or.mpr ⟨by split <;> split <;> decide, ?_⟩
  split
  · decide
  · rw [List.mem_cons]
    refine not_or.mpr ⟨by decide, fun hmem => ?_⟩
    obtain ⟨n, -, hn⟩ := List.mem_map.mp hmem
    exact processorDir_ne (by decide) n hn

theorem storage_eq (h : r.IsStorable) {settings : RunSettings Float}
    (hsettings : SameStorage settings r.params) :
    Storage.ofRun t dir settings =
      .ok (if r.collective then .collective else .perProcess) := by
  have hstrategy := hsettings.ioStrategy_eq
  have hcollective := hsettings.collective_eq
  unfold Storage.ofRun
  rw [hl.isPresent_container h.even, hstrategy, hcollective]
  rcases h.recordFiles with hr | hr
  · simp [params, hr]
  · simp [params, hr]

omit hl in
theorem suffix?_processorDir (n : Nat) :
    SnapshotDir.suffix? (MetadataFiles.processorDir n) = some (Nat.toDigits 10 n) := by
  rw [SnapshotDir.suffix?, toList_processorDir]
  rfl

omit hl in
theorem ofName?_processorDir {n : Nat} (h : n < Word.count 8) :
    SnapshotDir.ofName? (MetadataFiles.processorDir n) = some (.numbered n) := by
  have hparse : Decimal.parseSize? (Nat.toDigits 10 n) = some n := by
    rw [Decimal.parseSize?, Decimal.parseSize_toDigits h]
    rfl
  unfold SnapshotDir.ofName?
  rw [suffix?_processorDir, Option.bind_eq_bind, Option.bind_some, hparse]
  rfl

omit hl in
theorem mergeSort_range (n : Nat) : (List.range n).mergeSort (· ≤ ·) = List.range n := by
  apply List.mergeSort_of_pairwise
  exact List.pairwise_lt_range.imp fun hlt => by simpa using Nat.le_of_lt hlt

/-- Of the names in a run directory, those of processor directories. -/
def isCandidate (name : String) : Bool :=
  (SnapshotDir.suffix? name).isSome ∧ name ≠ "proc_bounds.dat"

theorem filter_isCandidate (h : r.Even) (hcollective : r.collective = false) :
    (t.namesIn place).filter isCandidate =
      (List.range (r.processors.x * (r.processors.y * r.processors.z))).map
        MetadataFiles.processorDir := by
  have hmetadata : (r.metadataEntries.filterMap TreeEntry.topName?).filter isCandidate = [] := by
    rw [filterMap_topName?_metadataEntries]
    split <;> split <;> decide
  have hdirs (ns : List Nat) : (ns.map MetadataFiles.processorDir).filter isCandidate =
      ns.map MetadataFiles.processorDir := by
    refine List.filter_eq_self.mpr fun name hname => ?_
    obtain ⟨n, -, rfl⟩ := List.mem_map.mp hname
    have hne : MetadataFiles.processorDir n ≠ "proc_bounds.dat" := processorDir_ne (by decide) n
    simp [isCandidate, suffix?_processorDir, hne]
  have hbounds : isCandidate "proc_bounds.dat" = false := by decide
  rw [hl.namesIn_eq, treeEntries, List.filterMap_append, List.filter_append, hmetadata,
    List.nil_append, filterMap_topName?_snapshotEntries h, if_neg (by simp [hcollective]),
    List.filter_cons_of_neg (by simp [hbounds]), hdirs]

omit hl in
theorem filterMap_ofName? {ns : List Nat} (h : ∀ n ∈ ns, n < Word.count 8) :
    (ns.map MetadataFiles.processorDir).filterMap SnapshotDir.ofName? = ns.map .numbered := by
  induction ns with
  | nil => rfl
  | cons n ns ih =>
    obtain ⟨hn, hns⟩ := List.forall_mem_cons.mp h
    rw [List.map_cons, List.filterMap_cons, ofName?_processorDir hn, ih hns, List.map_cons]

omit hl in
/-- The directories of the first processors are found in the order of their numbers. -/
theorem discover_of_list {names : List String} {n : Nat} (hn : n ≤ Word.count 8)
    (hlist : t.list dir = .ok names)
    (hcandidates : names.filter isCandidate = (List.range n).map MetadataFiles.processorDir) :
    SnapshotDir.discover t dir = .ok ((List.range n).map .numbered) := by
  have hlt : ∀ k ∈ List.range n, k < Word.count 8 :=
    fun k hk => Nat.lt_of_lt_of_le (List.mem_range.mp hk) hn
  unfold isCandidate at hcandidates
  unfold SnapshotDir.discover
  rw [hlist]
  simp only [hcandidates, NaturalOrder.sort_processorDirs, mergeSort_range,
    filterMap_ofName? hlt]

theorem discover_eq (h : r.IsStorable) (hcollective : r.collective = false) :
    SnapshotDir.discover t dir =
      .ok (r.positions.map fun p => .numbered (r.processorNumber p)) := by
  have hcandidates := hl.filter_isCandidate h.even hcollective
  rw [discover_of_list h.processors_le hl.leadsTo.list hcandidates, ← map_processorNumber h.even,
    List.map_map]
  rfl

end LiesIn

end RunRecipe

end GridSnapshot
