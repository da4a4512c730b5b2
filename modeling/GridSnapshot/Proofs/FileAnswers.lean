import GridSnapshot.Metadata.Files
import GridSnapshot.Proofs.CachedAnswers
import GridSnapshot.Proofs.DimensionText

namespace GridSnapshot.MetadataFiles

variable {σ : Type} {t : FileTree} {w : σ}

theorem steady_supplier : (supplier t : MetadataSupplier σ Float).Steady w where
  runMetadata _ _ := rfl
  processorDims _ _ _ := rfl
  grid _ _ := rfl

open MetadataSupplier (answer)

theorem answer_grid (p : Path) (d : Dimensions) :
    answer ((supplier t : MetadataSupplier σ Float).grid p d) w = grid t p d := rfl

/-- A dimension file of a whole run is read as what it was made from. -/
theorem wholeDims_of_readText {dir : Path} {res : Resolution} {d : Dimensions}
    {counts : PerAxis Nat} (hfits : DimFile.Fits d counts)
    (h : t.readText (dir.join (dimFileName res)) = .ok (DimFile.render d counts)) :
    wholeDims t dir res = .ok { d with processors := counts, position := .uniform 0 } := by
  have htext : text t (dir.join (dimFileName res)) = .ok (DimFile.render d counts) := by
    rw [text, h]
    rfl
  unfold wholeDims
  refine Outcome.bind_eq_ok_iff.mpr ⟨_, htext, ?_⟩
  exact Outcome.bind_eq_ok_iff.mpr
    ⟨_, Outcome.mapError_eq_ok_iff.mpr (DimFile.parse_render hfits), rfl⟩

theorem processorDims_eq_ok_iff {dir : Path} {n : Nat} {res : Resolution} {dims : Dimensions} :
    processorDims t dir n res = .ok dims ↔
      ∃ whole text d position, wholeDims t dir res = .ok whole ∧
        t.readText ((dir.join (processorDir n)).join (dimFileName res)) = .ok text ∧
        DimFile.parse text = .ok (d, position) ∧
        dims = { d with position := position, processors := whole.processors } := by
  unfold processorDims
  rw [Outcome.bind_eq_ok_iff]
  constructor
  · intro h
    obtain ⟨whole, hwhole, h⟩ := h
    cases hread : t.readText ((dir.join (processorDir n)).join (dimFileName res)) with
    | error fault =>
      simp only [hread] at h
      cases fault <;> cases h
    | ok text =>
      simp only [hread] at h
      obtain ⟨⟨d, position⟩, hparse, h⟩ := Outcome.bind_eq_ok_iff.mp h
      cases h
      exact ⟨whole, text, d, position, hwhole, rfl, Outcome.mapError_eq_ok_iff.mp hparse, rfl⟩
  · intro h
    obtain ⟨whole, text, d, position, hwhole, htext, hparse, rfl⟩ := h
    refine ⟨whole, hwhole, ?_⟩
    simp only [htext]
    exact Outcome.bind_eq_ok_iff.mpr ⟨_, Outcome.mapError_eq_ok_iff.mpr hparse, rfl⟩

/-- A grid file is missing, or it cannot be parsed, or it has a grid. -/
theorem grid_eq_error {dir : Path} {d : Dimensions} {e : MetadataFault}
    (h : grid t dir d = .error e) : (∃ p, e = .noGrid p) ∨ ∃ p fault, e = .unparsable p fault := by
  unfold grid at h
  obtain ⟨fault, -, rfl⟩ := Outcome.mapError_eq_error_iff.mp h
  split
  · exact .inl ⟨_, rfl⟩
  · exact .inr ⟨_, _, rfl⟩

end GridSnapshot.MetadataFiles
