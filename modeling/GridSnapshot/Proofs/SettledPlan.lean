import GridSnapshot.ReadPlan
import GridSnapshot.Proofs.CachedAnswers
import GridSnapshot.Proofs.TreeGrowth
import Mathlib.Data.List.Forall2

namespace GridSnapshot

open Outcome
open MetadataSupplier (answer)

namespace Planning

variable {σ ω α : Type} {s s' : MetadataCache ω × σ} {a : α}

theorem yields_check_iff {e : Except ReadFault α} :
    Yields (check e : Planning σ ω α) s a s' ↔ e = .ok a ∧ s' = s := by
  constructor
  · intro h
    cases h
    exact ⟨rfl, rfl⟩
  · intro hboth
    obtain ⟨rfl, rfl⟩ := hboth
    rfl

theorem yields_consult_iff {step : Consulting σ ω α} :
    Yields (consult step) s a s' ↔ Yields step s a s' := by
  unfold Yields consult
  simp only [ExceptT.run_mk, StateT.run_bind]
  generalize step.run.run s = first
  obtain ⟨outcome, t⟩ : Except MetadataFault α × (MetadataCache ω × σ) := first
  cases outcome with
  | error e =>
    constructor <;> intro h <;> cases h
  | ok a =>
    constructor <;> intro h <;> cases h <;> rfl

end Planning

namespace ReadPlan

variable {σ ω : Type} {src : MetadataSupplier σ ω} {tree : FileTree} {s s' : MetadataCache ω × σ}

theorem yields_make_iff {dir : Path} {o : ReadOptions} {plan : ReadPlan ω} :
    Yields (make src tree dir o) s plan s' ↔
      ∃ metadata s₁ storage dirs subs s₂ grid,
        checkStarted tree dir o.snapshot = .ok () ∧
        Yields (MetadataCache.run src (tree.directory dir) o.snapshot.resolution) s metadata s₁ ∧
        Storage.ofRun tree dir metadata.params = .ok storage ∧
        SnapshotDir.select tree dir storage o.processor = .ok dirs ∧
        Yields (findSubdomains src tree (tree.directory dir) o.snapshot.resolution storage
          metadata.dims (o.snapshot.fileName storage.isContainer) dirs) s₁ subs s₂ ∧
        Yields (findGrid src (tree.directory dir) o.snapshot.resolution) s₂ grid s' ∧
        plan = ⟨dir, storage, metadata,
          .ofOutput metadata.params.twoDimensional metadata.dims, subs, o.readsPersistence,
          o.workerCount, grid⟩ := by
  unfold make
  simp only [yields_bind_iff, Planning.yields_check_iff, Planning.yields_consult_iff,
    yields_pure_iff]
  constructor
  · intro h
    obtain ⟨_, _, ⟨hstarted, rfl⟩, metadata, s₁, hmetadata, storage, _, ⟨hstorage, rfl⟩, dirs, _,
      ⟨hdirs, rfl⟩, subs, s₂, hsubs, grid, _, hgrid, hplan, rfl⟩ := h
    exact ⟨metadata, _, storage, dirs, subs, s₂, grid, hstarted, hmetadata, hstorage, hdirs, hsubs,
      hgrid, hplan⟩
  · intro h
    obtain ⟨metadata, s₁, storage, dirs, subs, s₂, grid, hstarted, hmetadata, hstorage, hdirs,
      hsubs, hgrid, hplan⟩ := h
    exact ⟨_, _, ⟨hstarted, rfl⟩, metadata, s₁, hmetadata, storage, _, ⟨hstorage, rfl⟩, dirs, _,
      ⟨hdirs, rfl⟩, subs, s₂, hsubs, grid, _, hgrid, hplan, rfl⟩

theorem snapshotFile_eq_ok {dir q : Path} {storage : Storage} {d : SnapshotDir} {name : String}
    {content : Bytes} (hq : q = (dir.join d.name).join name) (h : tree.read q = .ok content) :
    snapshotFile tree dir storage d name = .ok q := by
  subst hq
  have hfile := FileTree.isFile_of_read h
  simp [snapshotFile, hfile]

section Subdomains

variable {dir : Directory} {res : Resolution} {storage : Storage} {whole : Dimensions}
  {name : String} {d : SnapshotDir} {ds : List SnapshotDir} {sub : Subdomain}
  {subs : List Subdomain}

theorem yields_findSubdomain_iff :
    Yields (findSubdomain src tree dir res storage whole name d) s sub s' ↔
      sub.dir = d ∧ snapshotFile tree dir.path storage d name = .ok sub.path ∧
        match d.processor with
        | some n => Yields (MetadataCache.processorDims src dir n res) s sub.dims s'
        | none => sub.dims = whole ∧ s' = s := by
  unfold findSubdomain
  simp only [yields_bind_iff, Planning.yields_check_iff]
  obtain ⟨sdir, path, dims⟩ := sub
  cases d.processor with
  | none =>
    simp only [yields_pure_iff, Subdomain.mk.injEq]
    constructor
    · intro h
      obtain ⟨_, _, ⟨hfile, rfl⟩, ⟨rfl, rfl, rfl⟩, rfl⟩ := h
      exact ⟨rfl, hfile, rfl, rfl⟩
    · intro h
      obtain ⟨rfl, hfile, rfl, rfl⟩ := h
      exact ⟨_, _, ⟨hfile, rfl⟩, ⟨rfl, rfl, rfl⟩, rfl⟩
  | some n =>
    simp only [yields_bind_iff, Planning.yields_consult_iff, yields_pure_iff, Subdomain.mk.injEq]
    constructor
    · intro h
      obtain ⟨_, _, ⟨hfile, rfl⟩, _, _, hdims, ⟨rfl, rfl, rfl⟩, rfl⟩ := h
      exact ⟨rfl, hfile, hdims⟩
    · intro h
      obtain ⟨rfl, hfile, hdims⟩ := h
      exact ⟨_, _, ⟨hfile, rfl⟩, _, _, hdims, ⟨rfl, rfl, rfl⟩, rfl⟩

theorem yields_findSubdomains_cons_iff :
    Yields (findSubdomains src tree dir res storage whole name (d :: ds)) s subs s' ↔
      ∃ sub rest s₁, Yields (findSubdomain src tree dir res storage whole name d) s sub s₁ ∧
        Yields (findSubdomains src tree dir res storage whole name ds) s₁ rest s' ∧
        subs = sub :: rest := by
  simp only [findSubdomains, yields_bind_iff, yields_pure_iff]
  constructor
  · intro hex
    obtain ⟨sub, s₁, hsub, rest, _, hrest, rfl, rfl⟩ := hex
    exact ⟨sub, rest, s₁, hsub, hrest, rfl⟩
  · intro hex
    obtain ⟨sub, rest, s₁, hsub, hrest, rfl⟩ := hex
    exact ⟨sub, s₁, hsub, rest, s', hrest, rfl, rfl⟩

theorem map_dir_findSubdomains
    (h : Yields (findSubdomains src tree dir res storage whole name ds) s subs s') :
    subs.map Subdomain.dir = ds := by
  induction ds generalizing s subs with
  | nil =>
    obtain ⟨rfl, -⟩ := yields_pure_iff.mp h
    rfl
  | cons d ds ih =>
    obtain ⟨sub, rest, s₁, hsub, hrest, rfl⟩ := yields_findSubdomains_cons_iff.mp h
    rw [List.map_cons, (yields_findSubdomain_iff.mp hsub).1, ih hrest]

end Subdomains

section Steady

variable {w : σ} {c : MetadataCache ω} {metadata : RunMetadata ω} {dir : Directory}
  {res : Resolution} {storage : Storage} {whole : Dimensions} {name : String}
  {ds : List SnapshotDir} {subs : List Subdomain}

/-- The file of a directory is there, with the dimensions that the source answers. -/
structure Finds (src : MetadataSupplier σ ω) (w : σ) (tree : FileTree) (dir : Path)
    (res : Resolution) (storage : Storage) (whole : Dimensions) (name : String) (d : SnapshotDir)
    (sub : Subdomain) : Prop where
  dir_eq : sub.dir = d
  path_eq : snapshotFile tree dir storage d name = .ok sub.path
  dims_eq : match d.processor with
    | some n => answer (src.processorDims dir n res) w = .ok sub.dims
    | none => sub.dims = whole

theorem exists_yields_findSubdomains (hsteady : src.Steady w) (hv : c.Valid src w dir res)
    (hm : answer (src.runMetadata dir.path res) w = .ok metadata)
    (h : List.Forall₂ (Finds src w tree dir.path res storage whole name) ds subs) :
    ∃ c', Yields (findSubdomains src tree dir res storage whole name ds) (c, w) subs (c', w) ∧
      c'.Valid src w dir res := by
  induction h generalizing c with
  | nil => exact ⟨c, yields_pure_iff.mpr ⟨rfl, rfl⟩, hv⟩
  | @cons d sub ds subs hd _ ih =>
    obtain ⟨c', hsub, hv'⟩ : ∃ c', Yields (findSubdomain src tree dir res storage whole name d)
        (c, w) sub (c', w) ∧ c'.Valid src w dir res := by
      have hdims := hd.dims_eq
      simp only [yields_findSubdomain_iff, hd.dir_eq, hd.path_eq, true_and]
      cases hproc : d.processor with
      | none =>
        simp only [hproc] at hdims
        exact ⟨c, ⟨hdims, rfl⟩, hv⟩
      | some n =>
        simp only [hproc] at hdims
        exact MetadataCache.exists_yields_processorDims hsteady hv hm hdims
    obtain ⟨c'', hrest, hv''⟩ := ih hv'
    exact ⟨c'', yields_findSubdomains_cons_iff.mpr ⟨sub, subs, (c', w), hsub, hrest, rfl⟩, hv''⟩

/-- The files that are found lie where they are looked for, with the dimensions that the source
answers, whatever a valid cache holds. -/
theorem finds_of_yields_findSubdomains {s' : MetadataCache ω × σ} (hsteady : src.Steady w)
    (hv : c.Valid src w dir res) (hm : answer (src.runMetadata dir.path res) w = .ok metadata)
    (h : Yields (findSubdomains src tree dir res storage whole name ds) (c, w) subs s') :
    ∀ sub ∈ subs, Finds src w tree dir.path res storage whole name sub.dir sub := by
  induction ds generalizing c subs with
  | nil =>
    obtain ⟨rfl, -⟩ := yields_pure_iff.mp h
    exact fun _ hsub => nomatch hsub
  | cons d ds ih =>
    obtain ⟨sub, rest, s₁, hsub, hrest, rfl⟩ := yields_findSubdomains_cons_iff.mp h
    obtain ⟨rfl, hpath, hdims⟩ := yields_findSubdomain_iff.mp hsub
    obtain ⟨hanswer, c', rfl, hv'⟩ : (match sub.dir.processor with
        | some n => answer (src.processorDims dir.path n res) w = .ok sub.dims
        | none => sub.dims = whole) ∧ ∃ c', s₁ = (c', w) ∧ c'.Valid src w dir res := by
      cases hproc : sub.dir.processor with
      | none =>
        simp only [hproc] at hdims
        exact ⟨hdims.1, c, hdims.2, hv⟩
      | some n =>
        simp only [hproc] at hdims
        exact MetadataCache.answer_of_yields_processorDims hsteady hv hm hdims
    exact List.forall_mem_cons.mpr ⟨⟨rfl, hpath, hanswer⟩, ih hv' hrest⟩

/-- At full resolution, the grid of a read is what the source answers. -/
theorem exists_yields_findGrid_standard (hsteady : src.Steady w) {g : Option (Grid ω)}
    (hv : c.Valid src w dir .standard)
    (hm : answer (src.runMetadata dir.path .standard) w = .ok metadata)
    (hg : MetadataCache.noGridAsNone (answer (src.grid dir.path metadata.dims) w) = .ok g) :
    ∃ s', Yields (findGrid src dir .standard) (c, w) g s' := by
  obtain ⟨c', hyields, -⟩ := MetadataCache.exists_yields_grid hsteady hv hm hg
  refine ⟨(c', w), Planning.yields_consult_iff.mpr ?_⟩
  unfold Yields at hyields ⊢
  simp only [ExceptT.run_mk, StateT.run_map, hyields]
  rfl

/-- A run without a grid is read without one. -/
theorem exists_yields_findGrid_none (hsteady : src.Steady w) (hv : c.Valid src w dir res)
    (hm : answer (src.runMetadata dir.path res) w = .ok metadata)
    (hgrid : res = .standard →
      ∃ p, answer (src.grid dir.path metadata.dims) w = .error (.noGrid p)) :
    ∃ s', Yields (findGrid src dir res) (c, w) none s' := by
  cases res with
  | downsampled => exact ⟨(c, w), yields_pure_iff.mpr ⟨rfl, rfl⟩⟩
  | standard =>
    obtain ⟨p, hnone⟩ := hgrid rfl
    refine exists_yields_findGrid_standard hsteady hv hm ?_
    rw [hnone]
    rfl

/-- A source that has a grid, none, or one that makes no sense does not fail a read. -/
theorem exists_yields_findGrid (hsteady : src.Steady w) (hv : c.Valid src w dir res)
    (hm : answer (src.runMetadata dir.path res) w = .ok metadata)
    (hgrid : ∀ e, answer (src.grid dir.path metadata.dims) w = .error e →
      (∃ p, e = .noGrid p) ∨ ∃ p fault, e = .unparsable p fault) :
    ∃ g s', Yields (findGrid src dir res) (c, w) g s' := by
  cases res with
  | downsampled => exact ⟨none, (c, w), yields_pure_iff.mpr ⟨rfl, rfl⟩⟩
  | standard =>
    cases hg : MetadataCache.noGridAsNone (answer (src.grid dir.path metadata.dims) w) with
    | ok g =>
      obtain ⟨s', hyields⟩ := exists_yields_findGrid_standard hsteady hv hm hg
      exact ⟨g, s', hyields⟩
    | error e =>
      obtain ⟨c', hfails⟩ := MetadataCache.exists_fails_grid hsteady hv hm hg
      obtain ⟨p, fault, rfl⟩ : ∃ p fault, e = .unparsable p fault := by
        cases ha : answer (src.grid dir.path metadata.dims) w with
        | ok g => rw [ha] at hg; cases hg
        | error e' =>
          rw [ha] at hg
          rcases hgrid e' ha with ⟨p, rfl⟩ | ⟨p, fault, rfl⟩
          · cases hg
          · cases hg
            exact ⟨p, fault, rfl⟩
      refine ⟨none, (c', w), Planning.yields_consult_iff.mpr ?_⟩
      unfold Fails at hfails
      unfold Yields
      simp only [ExceptT.run_mk, StateT.run_map, hfails]
      rfl

/-- The plan of a read of full resolution or not, from the answers of its source. -/
theorem make_eq_ok {tree : FileTree} {dir : Path} {o : ReadOptions}
    {dirs : List SnapshotDir} (hsteady : src.Steady w)
    (hv : c.Valid src w (tree.directory dir) o.snapshot.resolution)
    (hstarted : checkStarted tree dir o.snapshot = .ok ())
    (hm : answer (src.runMetadata dir o.snapshot.resolution) w = .ok metadata)
    (hstorage : Storage.ofRun tree dir metadata.params = .ok storage)
    (hdirs : SnapshotDir.select tree dir storage o.processor = .ok dirs)
    (hsubs : List.Forall₂ (Finds src w tree dir o.snapshot.resolution storage metadata.dims
      (o.snapshot.fileName storage.isContainer)) dirs subs)
    (hgrid : ∀ e, answer (src.grid dir metadata.dims) w = .error e →
      (∃ p, e = .noGrid p) ∨ ∃ p fault, e = .unparsable p fault) :
    ∃ grid, ((make src tree dir o).run.run (c, w)).1 = .ok
      ⟨dir, storage, metadata, .ofOutput metadata.params.twoDimensional metadata.dims, subs,
        o.readsPersistence, o.workerCount, grid⟩ := by
  have hm : answer (src.runMetadata (tree.directory dir).path o.snapshot.resolution) w =
      .ok metadata := hm
  obtain ⟨c₁, hmetadata, hv₁⟩ := MetadataCache.exists_yields_run hsteady hv hm
  obtain ⟨c₂, hfound, hv₂⟩ := exists_yields_findSubdomains hsteady hv₁ hm hsubs
  obtain ⟨grid, s', hgrid⟩ := exists_yields_findGrid hsteady hv₂ hm hgrid
  have hmake := yields_make_iff.mpr ⟨metadata, _, storage, dirs, subs, _, grid, hstarted, hmetadata,
    hstorage, hdirs, hfound, hgrid, rfl⟩
  exact ⟨grid, congrArg Prod.fst hmake⟩

end Steady

end ReadPlan

namespace SnapshotDir

theorem select_perProcess_all_eq_ok_iff {tree : FileTree} {dir : Path} {dirs : List SnapshotDir} :
    select tree dir .perProcess .all = .ok dirs ↔ discover tree dir = .ok dirs ∧ dirs ≠ [] := by
  unfold select
  rw [bind_eq_ok_iff]
  constructor
  · intro hex
    obtain ⟨found, hfound, h⟩ := hex
    cases found with
    | nil => cases h
    | cons d ds =>
      cases h
      exact ⟨hfound, List.cons_ne_nil _ _⟩
  · intro hboth
    obtain ⟨hfound, hne⟩ := hboth
    cases dirs with
    | nil => exact absurd rfl hne
    | cons d ds => exact ⟨_, hfound, rfl⟩

end SnapshotDir

end GridSnapshot
