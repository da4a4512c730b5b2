import GridSnapshot.Proofs.FileAnswers
import GridSnapshot.Proofs.IndexText
import GridSnapshot.Proofs.ParameterText
import GridSnapshot.Proofs.RunParts

namespace GridSnapshot.RunRecipe

open Outcome

variable {r : RunRecipe} {t : FileTree} {dir : Path} {p : PerAxis Nat}

/-- The extents, the processors and the fields of the run are counted in words. -/
structure FitsWords (r : RunRecipe) : Prop where
  extent_lt : ∀ a, r.wholeDims.extent a < Word.count 8
  processors_lt : ∀ a, r.processors.get a < Word.count 8
  evolved_lt : r.evolved.length < Word.count 8
  auxiliary_lt : r.auxiliary.length < Word.count 8

theorem fits_dims (h : r.FitsWords) {cells position last : PerAxis Nat}
    (hcells : ∀ a, cells.get a ≤ r.cells.get a) (hlast : ∀ a, last.get a < Word.count 8) :
    DimFile.Fits (r.dims cells position) last where
  extents_lt a := by
    have hwhole := h.extent_lt a
    have hle := hcells a
    rw [wholeDims, extent_dims] at hwhole
    have hextent : (r.dims cells position).extents.get a = cells.get a + 2 * r.ghost :=
      extent_dims cells position a
    omega
  ghosts_lt a := by
    have hwhole := h.extent_lt a
    rw [wholeDims, extent_dims] at hwhole
    have hghost : (r.dims cells position).ghosts.get a = r.ghost := ghost_dims cells position a
    omega
  evolved_lt := h.evolved_lt
  auxiliary_lt := h.auxiliary_lt
  last_lt := hlast

theorem fits_wholeDims (h : r.FitsWords) : DimFile.Fits r.wholeDims r.processors :=
  fits_dims h (fun _ => Nat.le_refl _) h.processors_lt

theorem fits_partDims (h : r.FitsWords) (hp : ∀ a, p.get a < r.processors.get a) :
    DimFile.Fits (r.partDims p) p := by
  refine fits_dims h (fun a => ?_) fun a => Nat.lt_trans (hp a) (h.processors_lt a)
  rw [partCells, PerAxis.get_ofFn]
  exact Nat.div_le_self _ _

/-- The texts of the files that a run keeps beside its snapshots. -/
structure HasTexts (r : RunRecipe) (t : FileTree) (dir : Path) : Prop where
  dims : t.readText (dir.join "dim.dat") = .ok (DimFile.render r.wholeDims r.processors)
  index : t.readText (dir.join "index.pro") = .ok (IndexFile.render r.index.entries)
  params : t.readText (dir.join "param.nml") = .ok r.paramFile

theorem HasTexts.wholeDims_eq (h : r.HasTexts t dir) (hfits : r.FitsWords) :
    MetadataFiles.wholeDims t dir .standard = .ok r.wholeDims :=
  MetadataFiles.wholeDims_of_readText (fits_wholeDims hfits) h.dims

theorem HasTexts.run_eq (h : r.HasTexts t dir) (hfits : r.FitsWords) :
    MetadataFiles.run t dir .standard =
      .ok ⟨r.wholeDims, Namelist.params (Namelist.scan r.paramFile),
        IndexFile.parse (IndexFile.render r.index.entries)⟩ := by
  have hindex : MetadataFiles.text t (dir.join "index.pro") =
      .ok (IndexFile.render r.index.entries) := by
    rw [MetadataFiles.text, h.index]
    rfl
  have hparams : MetadataFiles.params t dir =
      .ok (Namelist.params (Namelist.scan r.paramFile)) := by
    simp only [MetadataFiles.params, h.params]
  unfold MetadataFiles.run
  refine bind_eq_ok_iff.mpr ⟨_, h.wholeDims_eq hfits, ?_⟩
  refine bind_eq_ok_iff.mpr ⟨_, hindex, ?_⟩
  exact bind_eq_ok_iff.mpr ⟨_, hparams, rfl⟩

/-- A dimension file of a processor says its part. -/
theorem HasTexts.processorDims_eq (h : r.HasTexts t dir) (hfits : r.FitsWords)
    (hp : ∀ a, p.get a < r.processors.get a) {n : Nat}
    (hpart : t.readText ((dir.join (MetadataFiles.processorDir n)).join "dim.dat") =
      .ok (DimFile.render (r.partDims p) p)) :
    MetadataFiles.processorDims t dir n .standard = .ok (r.partDims p) :=
  MetadataFiles.processorDims_eq_ok_iff.mpr ⟨_, _, _, _, h.wholeDims_eq hfits, hpart,
    DimFile.parse_render (fits_partDims hfits hp), rfl⟩

end GridSnapshot.RunRecipe
