import GridSnapshot.Proofs.LaidOutTree
import GridSnapshot.Proofs.ParameterText
import GridSnapshot.Proofs.RunParts
import Mathlib.Data.List.Nodup

namespace GridSnapshot

open GridSnapshot.Path (IsName)

namespace RunRecipe

variable {r : RunRecipe} {p : PerAxis Nat} {e : TreeEntry}

def partEntries (r : RunRecipe) (p : PerAxis Nat) : List TreeEntry :=
  let home := MetadataFiles.processorDir (r.processorNumber p)
  [([home], .directory),
   ([home, "dim.dat"], .file (textBytes (DimFile.render (r.partDims p) p))),
   ([home, r.fileName], .file (r.snapshotFile (r.partDims p) (r.offset p)))]

def snapshotEntries (r : RunRecipe) : List TreeEntry :=
  if r.collective then
    [(["allprocs"], .directory),
     (["allprocs", r.fileName], .file (r.snapshotFile r.wholeDims (.uniform 0)))]
  else
    (["proc_bounds.dat"], .file (List.replicate 16 0)) :: r.positions.flatMap r.partEntries

/-- The files that say how to read the snapshots. -/
def metadataEntries (r : RunRecipe) : List TreeEntry :=
  [(["dim.dat"], .file (textBytes (DimFile.render r.wholeDims r.processors))),
   (["index.pro"], .file (textBytes (IndexFile.render r.index.entries))),
   (["param.nml"], .file (textBytes r.paramFile))]
  ++ (if r.started then [(["time_series.dat"], .file (textBytes "#--it-----t-----\n"))] else [])
  ++ (if r.writesGrid then [(["grid.dat"], .file r.gridFile)] else [])

def treeEntries (r : RunRecipe) : List TreeEntry := r.metadataEntries ++ r.snapshotEntries

theorem actions_eq (r : RunRecipe) (dir : Path) :
    r.actions dir = .makeDirectory dir :: r.treeEntries.map (TreeEntry.action dir) := by
  have hpart (p : PerAxis Nat) :
      r.partActions dir p = (r.partEntries p).map (TreeEntry.action dir) := rfl
  have hparts : r.positions.flatMap (r.partActions dir) =
      (r.positions.flatMap r.partEntries).map (TreeEntry.action dir) := by
    rw [List.map_flatMap]
    exact List.flatMap_congr fun p _ => hpart p
  unfold actions treeEntries metadataEntries snapshotEntries
  rw [hparts]
  cases r.started <;> cases r.writesGrid <;> cases r.collective <;> rfl

theorem toList_processorDir (n : Nat) :
    (MetadataFiles.processorDir n).toList = "proc".toList ++ Nat.toDigits 10 n := by
  have htext : MetadataFiles.processorDir n = "proc" ++ toString n := rfl
  rw [htext, String.toList_append, Nat.toString_eq_repr, Nat.toList_repr]

theorem isName_processorDir (n : Nat) : IsName (MetadataFiles.processorDir n) := by
  have hlist := toList_processorDir n
  have hne (name : String) (h : name.toList.head? ≠ some 'p') :
      MetadataFiles.processorDir n ≠ name := by
    intro heq
    subst heq
    rw [hlist] at h
    exact h rfl
  refine ⟨hne _ (by decide), hne _ (by decide), hne _ (by decide), ?_⟩
  rw [hlist, List.mem_append]
  exact not_or.mpr ⟨by decide, Decimal.not_mem_toDigits (by decide) n⟩

theorem processorDir_inj {m n : Nat}
    (h : MetadataFiles.processorDir m = MetadataFiles.processorDir n) : m = n := by
  have hlist := congrArg String.toList h
  rw [toList_processorDir, toList_processorDir, List.append_cancel_left_eq] at hlist
  have hvalue := congrArg (fun cs => Nat.ofDigitChars 10 cs 0) hlist
  simpa only [Nat.ofDigitChars_ten_toDigits] using hvalue

def fileNames : List String :=
  ["dim.dat", "index.pro", "param.nml", "time_series.dat", "grid.dat", "proc_bounds.dat",
    "allprocs", "var.dat"]

theorem isName_of_mem {name : String} (h : name ∈ fileNames) : IsName name := by
  simp only [fileNames, List.mem_cons, List.not_mem_nil, or_false] at h
  rcases h with rfl | rfl | rfl | rfl | rfl | rfl | rfl | rfl
  all_goals exact ⟨by decide, by decide, by decide, by decide⟩

theorem processorDir_ne {name : String} (h : name.toList[4]?.any Char.isDigit = false) (n : Nat) :
    MetadataFiles.processorDir n ≠ name := by
  intro heq
  subst heq
  obtain ⟨c, cs, hcs⟩ := List.exists_cons_of_ne_nil (Nat.toDigits_ne_nil (n := n) (b := 10))
  have hdigit : c.isDigit = true :=
    Nat.isDigit_of_mem_toDigits (by decide) (by decide) (hcs ▸ List.mem_cons_self)
  rw [toList_processorDir, hcs] at h
  have hfifth : ("proc".toList ++ c :: cs)[4]?.any Char.isDigit = c.isDigit := rfl
  rw [hfifth, hdigit] at h
  cases h

theorem mem_metadataEntries (he : e ∈ r.metadataEntries) :
    ∃ name content, name ∈ ["dim.dat", "index.pro", "param.nml", "time_series.dat", "grid.dat"] ∧
      e = ([name], .file content) := by
  simp only [metadataEntries, List.mem_append, List.mem_cons, List.not_mem_nil, or_false] at he
  rcases he with ((rfl | rfl | rfl) | he) | he
  · exact ⟨_, _, by decide, rfl⟩
  · exact ⟨_, _, by decide, rfl⟩
  · exact ⟨_, _, by decide, rfl⟩
  · split at he
    · exact ⟨_, _, by decide, List.mem_singleton.mp he⟩
    · cases he
  · split at he
    · exact ⟨_, _, by decide, List.mem_singleton.mp he⟩
    · cases he

theorem nodup_metadataEntries (r : RunRecipe) : (r.metadataEntries.map Prod.fst).Nodup := by
  unfold metadataEntries
  cases r.started <;> cases r.writesGrid <;> simp

theorem map_processorNumber (h : r.Even) : r.positions.map r.processorNumber =
    List.range (r.processors.x * (r.processors.y * r.processors.z)) :=
  (r.grid h).map_number_positions

theorem filterMap_topName?_snapshotEntries (h : r.Even) :
    r.snapshotEntries.filterMap TreeEntry.topName? =
      if r.collective then ["allprocs"]
      else "proc_bounds.dat" ::
        (List.range (r.processors.x * (r.processors.y * r.processors.z))).map
          MetadataFiles.processorDir := by
  unfold snapshotEntries
  split
  · rfl
  · have hparts (ps : List (PerAxis Nat)) :
        (ps.flatMap r.partEntries).filterMap TreeEntry.topName? =
          (ps.map r.processorNumber).map MetadataFiles.processorDir := by
      induction ps with
      | nil => rfl
      | cons p ps ih =>
        rw [List.flatMap_cons, List.filterMap_append, ih]
        rfl
    rw [← map_processorNumber h, ← hparts]
    rfl

theorem filterMap_topName?_metadataEntries (r : RunRecipe) :
    r.metadataEntries.filterMap TreeEntry.topName? =
      ["dim.dat", "index.pro", "param.nml"] ++
        (if r.started then ["time_series.dat"] else []) ++
        (if r.writesGrid then ["grid.dat"] else []) := by
  unfold metadataEntries
  cases r.started <;> cases r.writesGrid <;> rfl

/-- The run lies under a directory, and nothing else lies directly in it. -/
structure LiesIn (r : RunRecipe) (t : FileTree) (dir : Path) (place : Place) : Prop where
  leadsTo : t.LeadsTo dir place
  get?_eq : ∀ e ∈ r.treeEntries, t.get? (place ++ e.1) = some e.2
  admitted : ∀ e ∈ r.treeEntries, e.IsAdmitted dir
  namesIn_eq : t.namesIn place = r.treeEntries.filterMap TreeEntry.topName?

variable {t t' : FileTree} {dir : Path} {place : Place} {name home : String} {content : Bytes}

end RunRecipe

end GridSnapshot
