import GridSnapshot.Proofs.Coverage
import GridSnapshot.Proofs.LaidOutTree
import Mathlib.Data.List.Nodup

namespace GridSnapshot

open Outcome

namespace FileTree

theorem nodup_namesIn (t : FileTree) (place : Place) : (t.namesIn place).Nodup := by
  refine List.Nodup.filterMap ?_ t.nodup
  intro target target' name h h'
  rw [nameIn?_eq_some_iff.mp h, nameIn?_eq_some_iff.mp h']

theorem nodup_list {t : FileTree} {p : Path} {names : List String} (h : t.list p = .ok names) :
    names.Nodup := by
  unfold list at h
  cases hresolve : t.resolve p with
  | error fault =>
    rw [hresolve] at h
    cases h
  | ok place =>
    simp only [hresolve] at h
    cases hnode : t.node? place with
    | none =>
      rw [hnode] at h
      cases h
    | some node =>
      rw [hnode] at h
      cases node with
      | file content => cases h
      | directory =>
        cases h
        exact nodup_namesIn t place

end FileTree

namespace SnapshotDir

variable {tree : FileTree} {dir : Path} {dirs : List SnapshotDir} {d d' : SnapshotDir}
  {name : String}

/-- The directory is named as a run names that of a processor, with no zeros or sign in front of
the number. -/
def IsPlain (d : SnapshotDir) : Prop := ∃ n, d = numbered n

theorem name_of_ofName? (h : ofName? name = some d) :
    d.name = name ∧ ∃ n, d.processor = some n := by
  unfold ofName? at h
  obtain ⟨digits, -, h⟩ := Option.bind_eq_some_iff.mp h
  obtain ⟨n, -, h⟩ := Option.bind_eq_some_iff.mp h
  cases h
  exact ⟨rfl, n, rfl⟩

theorem ofName?_of_mem_discover (h : discover tree dir = .ok dirs) (hd : d ∈ dirs) :
    ofName? d.name = some d := by
  unfold discover at h
  cases hlist : tree.list dir with
  | error fault =>
    rw [hlist] at h
    cases h
  | ok names =>
    rw [hlist] at h
    cases h
    obtain ⟨name, -, hname⟩ := List.mem_filterMap.mp hd
    rw [(name_of_ofName? hname).1]
    exact hname

theorem nodup_discover (h : discover tree dir = .ok dirs) : (dirs.map SnapshotDir.name).Nodup := by
  have hspec : ∀ d ∈ dirs, ofName? d.name = some d := fun d hd => ofName?_of_mem_discover h hd
  refine List.Nodup.map_on ?_ ?_
  · intro d hd d' hd' heq
    have hsame := hspec d hd
    rw [heq, hspec d' hd'] at hsame
    exact (Option.some.inj hsame).symm
  · unfold discover at h
    cases hlist : tree.list dir with
    | error fault =>
      rw [hlist] at h
      cases h
    | ok names =>
      rw [hlist] at h
      cases h
      refine List.Nodup.filterMap ?_ ?_
      · intro name name' d hd hd'
        rw [← (name_of_ofName? hd).1, (name_of_ofName? hd').1]
      · exact (List.mergeSort_perm _ _).nodup_iff.mpr ((FileTree.nodup_list hlist).filter _)

/-- Plain directories of one processor are the same. -/
theorem IsPlain.eq_of_processor_eq (h : d.IsPlain) (h' : d'.IsPlain)
    (heq : d.processor = d'.processor) : d = d' := by
  obtain ⟨n, rfl⟩ := h
  obtain ⟨n', rfl⟩ := h'
  rw [Option.some.inj heq]

end SnapshotDir

/-- The dimensions are those in the directory of that name, in the processor grid of the whole
run. -/
def Subdomain.HasDimsOf (sub : Subdomain) (tree : FileTree) (dir : Path) (res : Resolution)
    (name : String) : Prop :=
  ∃ whole text d position, MetadataFiles.wholeDims tree dir res = .ok whole ∧
    tree.readText ((dir.join name).join (MetadataFiles.dimFileName res)) = .ok text ∧
    DimFile.parse text = .ok (d, position) ∧
    sub.dims = { d with position := position, processors := whole.processors }

namespace ReadPlan

variable {plan : ReadPlan Float} {tree : FileTree} {dir : Path} {o : ReadOptions}

/-- What a plan for all processors pairs. -/
structure Paired (plan : ReadPlan Float) (tree : FileTree) (dir : Path) (o : ReadOptions) :
    Prop where
  discovered : SnapshotDir.discover tree dir = .ok (plan.subdomains.map Subdomain.dir)
  names_nodup : (plan.subdomains.map fun sub => sub.dir.name).Nodup
  /-- A snapshot file lies in the directory that was found. -/
  file : ∀ sub ∈ plan.subdomains,
    sub.path = (dir.join sub.dir.name).join (o.snapshot.fileName false) ∧ tree.isFile sub.path
  /-- Its dimensions lie where the number at the end of that directory's name leads. -/
  dims : ∀ sub ∈ plan.subdomains, SnapshotDir.ofName? sub.dir.name = some sub.dir ∧
    ∃ n, sub.dir.processor = some n ∧
      sub.HasDimsOf tree dir o.snapshot.resolution (MetadataFiles.processorDir n)
  /-- In a plain directory that is the directory itself. -/
  plain_dims : ∀ sub ∈ plan.subdomains, sub.dir.IsPlain →
    sub.HasDimsOf tree dir o.snapshot.resolution sub.dir.name
  /-- No two plain directories are of one processor. -/
  plain_distinct : plan.subdomains.Pairwise fun sub sub' =>
    sub.dir.IsPlain → sub'.dir.IsPlain → sub.dir.processor ≠ sub'.dir.processor

theorem isFile_of_snapshotFile {d : SnapshotDir} {name : String} {p : Path}
    (h : snapshotFile tree dir .perProcess d name = .ok p) :
    p = (dir.join d.name).join name ∧ tree.isFile p := by
  unfold snapshotFile at h
  simp only at h
  split at h
  · cases h
  · rename_i hfile
    cases h
    refine ⟨rfl, ?_⟩
    simpa [Storage.isContainer] using hfile

theorem plain_distinct_of_nodup {subs : List Subdomain}
    (h : (subs.map fun sub => sub.dir.name).Nodup) :
    subs.Pairwise fun sub sub' =>
      sub.dir.IsPlain → sub'.dir.IsPlain → sub.dir.processor ≠ sub'.dir.processor := by
  refine (List.pairwise_map.mp h).imp ?_
  intro sub sub' hname hplain hplain' heq
  exact hname (congrArg SnapshotDir.name (hplain.eq_of_processor_eq hplain' heq))

/-- A plan for all processors pairs each snapshot file with the dimensions that its directory's
number leads to, and with those of its own directory if that is plain. -/
theorem paired_of_make {σ : Type} (tree : FileTree) (dir : Path) (o : ReadOptions)
    (c : MetadataCache Float) (w : σ) (plan : ReadPlan Float)
    (hv : c.Valid (MetadataFiles.supplier tree) w (tree.directory dir) o.snapshot.resolution)
    (hall : o.processor = .all)
    (hmake : ((make (MetadataFiles.supplier tree) tree dir o).run.run (c, w)).1 = .ok plan)
    (hstorage : plan.storage = .perProcess) : plan.Paired tree dir o := by
  obtain ⟨metadata, s₁, storage, dirs, subs, s₂, grid, -, hrun, -, hdirs, hsubs, -, rfl⟩ :=
    yields_make_iff.mp (show Yields _ (c, w) plan _ from Prod.ext hmake rfl)
  simp only at hstorage
  subst hstorage
  have hsteady : (MetadataFiles.supplier tree : MetadataSupplier σ Float).Steady w :=
    MetadataFiles.steady_supplier
  obtain ⟨hm, c', rfl, hv'⟩ := MetadataCache.answer_of_yields_run hsteady hv hrun
  have hfinds := finds_of_yields_findSubdomains hsteady hv' hm hsubs
  have hmap := map_dir_findSubdomains hsubs
  rw [hall, SnapshotDir.select_perProcess_all_eq_ok_iff, ← hmap] at hdirs
  have hdiscover := hdirs.1
  have hnames : (subs.map fun sub => sub.dir.name).Nodup := by
    have hnodup := SnapshotDir.nodup_discover hdiscover
    rwa [List.map_map] at hnodup
  have hdims : ∀ sub ∈ subs, SnapshotDir.ofName? sub.dir.name = some sub.dir ∧
      ∃ n, sub.dir.processor = some n ∧
        sub.HasDimsOf tree dir o.snapshot.resolution (MetadataFiles.processorDir n) := by
    intro sub hsub
    have hname := SnapshotDir.ofName?_of_mem_discover hdiscover (List.mem_map_of_mem hsub)
    obtain ⟨-, n, hn⟩ := SnapshotDir.name_of_ofName? hname
    have hanswer := (hfinds sub hsub).dims_eq
    rw [hn] at hanswer
    exact ⟨hname, n, hn, MetadataFiles.processorDims_eq_ok_iff.mp hanswer⟩
  exact
    { discovered := hdiscover
      names_nodup := hnames
      file := by
        intro sub hsub
        exact isFile_of_snapshotFile (hfinds sub hsub).path_eq
      dims := hdims
      plain_dims := by
        intro sub hsub hplain
        obtain ⟨-, n, hn, hhas⟩ := hdims sub hsub
        obtain ⟨n', hn'⟩ := hplain
        rw [hn'] at hn ⊢
        cases hn
        exact hhas
      plain_distinct := plain_distinct_of_nodup hnames }

/-- Two processors with a directory each, named by their numbers. -/
theorem paired_of_make_gappedRun : ∃ plan : ReadPlan Float,
    ((make (MetadataFiles.supplier gappedRun) gappedRun ⟨"run"⟩ wholeRead).run.run
      (.empty, ())).1 = .ok plan ∧
    plan.subdomains.map Subdomain.dir = [.numbered 0, .numbered 2] ∧
    ∀ sub ∈ plan.subdomains, sub.HasDimsOf gappedRun ⟨"run"⟩ .standard sub.dir.name := by
  obtain ⟨grid, hmake⟩ := make_gappedRun
  have hpaired := paired_of_make gappedRun ⟨"run"⟩ wholeRead .empty () (gappedPlan grid)
    (MetadataCache.valid_of_get?_eq_none rfl) rfl hmake rfl
  refine ⟨gappedPlan grid, hmake, rfl, fun sub hsub => hpaired.plain_dims sub hsub ?_⟩
  rcases List.mem_pair.mp hsub with rfl | rfl
  · exact ⟨0, rfl⟩
  · exact ⟨2, rfl⟩

/-- Two directories whose names end in the same number, for two parts of the run. -/
def aliasedRun : FileTree := .ofList
  [(["run"], .directory),
   (["run", "dim.dat"], .file (asciiText "3 1 1 1 0 0\nS\n0 0 0\n3 1 1\n")),
   (["run", "index.pro"], .file []),
   (["run", "proc0"], .directory),
   (["run", "proc0", "dim.dat"], .file (asciiText "1 1 1 1 0 0\nS\n0 0 0\n0 0 0\n")),
   (["run", "proc0", "var.dat"], .file oneCellFile),
   (["run", "proc00"], .directory),
   (["run", "proc00", "dim.dat"], .file (asciiText "1 1 1 1 0 0\nS\n0 0 0\n1 0 0\n")),
   (["run", "proc00", "var.dat"], .file oneCellFile)]

/-- The second file with the dimensions of the first. -/
def aliasedPart : Subdomain :=
  ⟨⟨"proc00", some 0⟩, ⟨"run/proc00/var.dat"⟩, rowDims 1 0⟩

def aliasedPlan (grid : Option (Grid Float)) : ReadPlan Float :=
  { gappedPlan grid with subdomains := [gappedPart 0, aliasedPart] }

theorem discover_aliasedRun :
    SnapshotDir.discover aliasedRun ⟨"run"⟩ = .ok [.numbered 0, aliasedPart.dir] := by
  have hsort : NaturalOrder.sort ["proc0", "proc00"] = ["proc0", "proc00"] :=
    List.mergeSort_of_pairwise (by decide +kernel)
  have hlist : aliasedRun.list ⟨"run"⟩ = .ok ["dim.dat", "index.pro", "proc0", "proc00"] := rfl
  unfold SnapshotDir.discover
  rw [hlist]
  change Except.ok ((NaturalOrder.sort ["proc0", "proc00"]).filterMap SnapshotDir.ofName?) = _
  rw [hsort]
  rfl

theorem make_aliasedRun : ∃ grid,
    ((make (MetadataFiles.supplier aliasedRun) aliasedRun ⟨"run"⟩ wholeRead).run.run
      (.empty, ())).1 = .ok (aliasedPlan grid) := by
  have hmetadata : MetadataSupplier.answer ((MetadataFiles.supplier aliasedRun).runMetadata ⟨"run"⟩
      .standard) () = .ok (aliasedPlan none).metadata := rfl
  have hdirs : SnapshotDir.select aliasedRun ⟨"run"⟩ .perProcess .all =
      .ok [.numbered 0, aliasedPart.dir] :=
    SnapshotDir.select_perProcess_all_eq_ok_iff.mpr ⟨discover_aliasedRun, by decide⟩
  have hsubs : List.Forall₂ (Finds (MetadataFiles.supplier aliasedRun) () aliasedRun ⟨"run"⟩
      .standard .perProcess (rowDims 3 0) "var.dat") [.numbered 0, aliasedPart.dir]
      (aliasedPlan none).subdomains :=
    .cons ⟨rfl, rfl, rfl⟩ (.cons ⟨rfl, rfl, rfl⟩ .nil)
  refine make_eq_ok MetadataFiles.steady_supplier (MetadataCache.valid_of_get?_eq_none rfl) rfl
    hmetadata rfl hdirs hsubs ?_
  intro e h
  rw [MetadataFiles.answer_grid] at h
  exact MetadataFiles.grid_eq_error h

/-- A zero in front of the number is not noticed: two files are planned for one processor, the
second with dimensions from the directory of the first. -/
theorem make_aliasedRun_mispairs : ∃ plan : ReadPlan Float,
    ((make (MetadataFiles.supplier aliasedRun) aliasedRun ⟨"run"⟩ wholeRead).run.run
      (.empty, ())).1 = .ok plan ∧
    plan.storage = .perProcess ∧ plan.subdomains = [gappedPart 0, aliasedPart] ∧
    ¬ (plan.subdomains.map fun sub => sub.dir.processor).Nodup ∧
    ¬ aliasedPart.HasDimsOf aliasedRun ⟨"run"⟩ .standard aliasedPart.dir.name := by
  obtain ⟨grid, hmake⟩ := make_aliasedRun
  refine ⟨aliasedPlan grid, hmake, rfl, rfl, ?_, ?_⟩
  · have hsubs : (aliasedPlan grid).subdomains = [gappedPart 0, aliasedPart] := rfl
    rw [hsubs]
    decide
  · intro hhas
    obtain ⟨whole, text, d, position, -, htext, hparse, hdims⟩ := hhas
    have hown : aliasedRun.readText ⟨"run/proc00/dim.dat"⟩ =
        .ok "1 1 1 1 0 0\nS\n0 0 0\n1 0 0\n" := rfl
    cases hown.symm.trans htext
    have hlast : DimFile.parse "1 1 1 1 0 0\nS\n0 0 0\n1 0 0\n" = .ok (_, ⟨1, 0, 0⟩) := rfl
    cases hlast.symm.trans hparse
    cases congrArg (fun d => d.position.x) hdims

end ReadPlan

end GridSnapshot
