import GridSnapshot.Proofs.DecodedPlan
import GridSnapshot.Proofs.FileAnswers
import GridSnapshot.Proofs.SettledPlan
import GridSnapshot.Proofs.WrittenRun

namespace GridSnapshot

open Outcome
open MetadataSupplier (answer)
open GridSnapshot.Path (IsName)

namespace RunRecipe

variable {r : RunRecipe} {t : FileTree} {dir : Path} {place : Place} {p : PerAxis Nat}
  {o : ReadOptions}

def partSubdomain (r : RunRecipe) (dir : Path) (p : PerAxis Nat) : Subdomain where
  dir := .numbered (r.processorNumber p)
  path := (dir.join (MetadataFiles.processorDir (r.processorNumber p))).join "var.dat"
  dims := r.partDims p

def sharedSubdomain (r : RunRecipe) (dir : Path) : Subdomain where
  dir := .shared
  path := (dir.join "allprocs").join "var.dat"
  dims := r.wholeDims

/-- The snapshot files that a read opens. -/
def subdomains (r : RunRecipe) (dir : Path) : List Subdomain :=
  if r.collective then [r.sharedSubdomain dir] else r.positions.map (r.partSubdomain dir)

/-- The plan of a read of the run. -/
structure IsPlanOf (plan : ReadPlan Float) (r : RunRecipe) (dir : Path) : Prop where
  storage_eq : plan.storage = if r.collective then .collective else .perProcess
  dims_eq : plan.metadata.dims = r.wholeDims
  settings : SameStorage plan.metadata.params r.params
  layout_eq : plan.layout = r.layout
  subdomains_eq : plan.subdomains = r.subdomains dir
  readsPersistence_eq : plan.readsPersistence = true

theorem IsPlanOf.slotCount_eq {plan : ReadPlan Float} (h : IsPlanOf plan r dir) :
    plan.metadata.slotCount = r.slotCount := by
  have hauxiliary : plan.metadata.params.writesAuxiliary = r.writesAuxiliary :=
    h.settings.writesAuxiliary_eq
  rw [RunMetadata.slotCount, h.dims_eq, hauxiliary, slotCount]

namespace LiesIn

variable (hl : r.LiesIn t dir place)
include hl

theorem read_part (h : r.IsStorable) (hcollective : r.collective = false)
    (hp : p ∈ r.positions) :
    t.read (r.partSubdomain dir p).path = .ok (r.snapshotFile (r.partDims p) (r.offset p)) := by
  have hname : IsName "var.dat" := isName_of_mem (by decide)
  have hfile : ([MetadataFiles.processorDir (r.processorNumber p), "var.dat"],
      FileNode.file (r.snapshotFile (r.partDims p) (r.offset p))) ∈ r.treeEntries :=
    mem_part hcollective hp (by simp [partEntries, h.fileName_eq])
  exact hl.read_inner (isName_processorDir _) hname
    (mem_part hcollective hp List.mem_cons_self) hfile

theorem read_shared (h : r.IsStorable) (hcollective : r.collective = true) :
    t.read (r.sharedSubdomain dir).path = .ok (r.snapshotFile r.wholeDims (.uniform 0)) := by
  have hhome : IsName "allprocs" := isName_of_mem (by decide)
  have hname : IsName "var.dat" := isName_of_mem (by decide)
  have hentries : r.snapshotEntries = [(["allprocs"], .directory),
      (["allprocs", "var.dat"], .file (r.snapshotFile r.wholeDims (.uniform 0)))] := by
    rw [snapshotEntries, if_pos hcollective, h.fileName_eq]
  refine hl.read_inner hhome hname ?_ ?_
  · exact List.mem_append_right _ (by simp [hentries])
  · exact List.mem_append_right _ (by simp [hentries])

theorem finds {σ : Type} {w : σ} (h : r.IsStorable) (storage : Storage) :
    List.Forall₂ (ReadPlan.Finds (MetadataFiles.supplier t) w t dir .standard storage r.wholeDims
      "var.dat") ((r.subdomains dir).map Subdomain.dir) (r.subdomains dir) := by
  rw [List.forall₂_map_left_iff, List.forall₂_same]
  intro sub hsub
  unfold subdomains at hsub
  split at hsub
  · rename_i hcollective
    obtain rfl := List.mem_singleton.mp hsub
    exact ⟨rfl, ReadPlan.snapshotFile_eq_ok rfl (hl.read_shared h hcollective), rfl⟩
  · rename_i hcollective
    have hcollective : r.collective = false := by simpa using hcollective
    obtain ⟨p, hp, rfl⟩ := List.mem_map.mp hsub
    exact ⟨rfl, ReadPlan.snapshotFile_eq_ok rfl (hl.read_part h hcollective hp),
      hl.processorDims_eq h hcollective hp⟩

end LiesIn

variable {α : Type} [Zero α] [Narrowing Float α] {plan : ReadPlan Float}

/-- What the files of the run hold. -/
def parts (r : RunRecipe) : List (Part Float α) :=
  if r.collective then [(r.wholeDims, r.block r.wholeDims (.uniform 0))]
  else r.positions.map r.part

end RunRecipe

end GridSnapshot
