import GridSnapshot.Proofs.FileWrites
import GridSnapshot.Proofs.RunFiles
import GridSnapshot.Proofs.RunTexts
import GridSnapshot.Proofs.TextBytes

namespace GridSnapshot

open GridSnapshot.Path (IsName)
open GridSnapshot.MetadataFiles (processorDir)

namespace RunRecipe

variable {r : RunRecipe} {t t' : FileTree} {dir q : Path} {p p' : PerAxis Nat} {name : String}
  {names : List String} {content : Bytes} {e : TreeEntry}

theorem mem_positions_iff : p ∈ r.positions ↔ ∀ a, p.get a < r.processors.get a := by
  simp only [positions, List.mem_flatMap, List.mem_map, List.mem_range]
  constructor
  · intro hex a
    obtain ⟨z, hz, y, hy, x, hx, rfl⟩ := hex
    cases a <;> assumption
  · intro h
    exact ⟨p.z, h .z, p.y, h .y, p.x, h .x, rfl⟩

theorem nodup_map_processorNumber (r : RunRecipe) :
    (r.positions.map r.processorNumber).Nodup := by
  cases hpositions : r.positions with
  | nil => exact List.nodup_nil
  | cons p ps =>
    have hp : p ∈ r.positions := hpositions ▸ List.mem_cons_self
    have hpos : ∀ a, 0 < r.processors.get a := fun a =>
      Nat.zero_lt_of_lt (mem_positions_iff.mp hp a)
    -- The numbers depend on the processors only, so parts without cells do.
    let g : ProcessorGrid := ⟨r.processors, .uniform 0, .uniform 0, hpos, fun a => by
      rw [PerAxis.get_uniform, Nat.mul_zero]
      decide⟩
    have hnumbers : r.positions.map r.processorNumber = _ := g.map_number_positions
    rw [← hpositions, hnumbers]
    exact List.nodup_range

/-- Processors with the same number are the same. -/
theorem processorNumber_inj (hp : p ∈ r.positions) (hp' : p' ∈ r.positions)
    (h : r.processorNumber p = r.processorNumber p') : p = p' :=
  List.inj_on_of_nodup_map (nodup_map_processorNumber r) hp hp' h

/-- The snapshot files of a run. -/
def snapshotPaths (r : RunRecipe) (dir : Path) : List Path :=
  if r.collective then [(dir.join SnapshotDir.shared.name).join r.fileName]
  else r.positions.map fun p => (dir.join (processorDir (r.processorNumber p))).join r.fileName

/-- The files that say how to read the snapshots. -/
def metadataPaths (r : RunRecipe) (dir : Path) : List Path :=
  [dir.join "dim.dat", dir.join "index.pro", dir.join "param.nml"] ++
    if r.collective then []
    else r.positions.map fun p => (dir.join (processorDir (r.processorNumber p))).join "dim.dat"

def partDimsEntry (r : RunRecipe) (p : PerAxis Nat) : TreeEntry :=
  ([processorDir (r.processorNumber p), "dim.dat"],
    .file (textBytes (DimFile.render (r.partDims p) p)))

/-- The files with names of their own, which are all but the snapshots. -/
def namedEntries (r : RunRecipe) : List TreeEntry :=
  r.metadataEntries ++
    if r.collective then []
    else (["proc_bounds.dat"], .file (List.replicate 16 0)) :: r.positions.map r.partDimsEntry

theorem partDimsEntry_mem (hcollective : r.collective = false) (hp : p ∈ r.positions) :
    r.partDimsEntry p ∈ r.namedEntries := by
  refine List.mem_append_right _ ?_
  rw [hcollective, if_neg Bool.false_ne_true]
  exact List.mem_cons_of_mem _ (List.mem_map_of_mem hp)

theorem mem_metadataPaths_of_part (hcollective : r.collective = false) (hp : p ∈ r.positions) :
    (dir.join (processorDir (r.processorNumber p))).join "dim.dat" ∈ r.metadataPaths dir := by
  refine List.mem_append_right _ ?_
  rw [hcollective, if_neg Bool.false_ne_true]
  exact List.mem_map_of_mem hp

theorem isName_of_named (he : e ∈ r.namedEntries) : e.1 ≠ [] ∧ ∀ name ∈ e.1, IsName name := by
  rcases List.mem_append.mp he with he | he
  · obtain ⟨name, content, hname, rfl⟩ := mem_metadataEntries he
    have hfile : IsName name := isName_of_mem (List.mem_append_left _ hname)
    exact ⟨List.cons_ne_nil _ _, List.forall_mem_singleton.mpr hfile⟩
  · split at he
    · cases he
    · rcases List.mem_cons.mp he with rfl | he
      · exact ⟨List.cons_ne_nil _ _, List.forall_mem_singleton.mpr (isName_of_mem (by decide))⟩
      · obtain ⟨p, -, rfl⟩ := List.mem_map.mp he
        exact ⟨List.cons_ne_nil _ _, List.forall_mem_cons.mpr ⟨isName_processorDir _,
          List.forall_mem_singleton.mpr (isName_of_mem (by decide))⟩⟩

theorem nodup_namedEntries (r : RunRecipe) : (r.namedEntries.map Prod.fst).Nodup := by
  have hpart (names : List String) (h : names ∈ (r.positions.map r.partDimsEntry).map Prod.fst) :
      names.length = 2 := by
    rw [List.map_map] at h
    obtain ⟨p, -, rfl⟩ := List.mem_map.mp h
    rfl
  unfold namedEntries
  rw [List.map_append, List.nodup_append]
  refine ⟨nodup_metadataEntries r, ?_, ?_⟩
  · split
    · exact List.nodup_nil
    · rw [List.map_cons, List.nodup_cons]
      refine ⟨fun hmem => absurd (hpart _ hmem) (by decide), ?_⟩
      rw [List.map_map]
      refine (nodup_map_processorNumber r).of_map.map_on fun p hp p' hp' heq => ?_
      exact processorNumber_inj hp hp' (processorDir_inj (List.cons.inj heq).1)
  · intro names hnames names' hnames' heq
    obtain ⟨e, he, rfl⟩ := List.mem_map.mp hnames
    obtain ⟨name, content, hname, rfl⟩ := mem_metadataEntries he
    subst heq
    split at hnames'
    · cases hnames'
    · rcases List.mem_cons.mp hnames' with hbounds | hmem
      · cases hbounds
        exact absurd hname (by decide)
      · exact absurd (hpart _ hmem) (by simp)

theorem exists_written (h : (r.write dir t).2 = true) : ∃ t', r.write dir t = (t', true) :=
  ⟨_, Prod.ext rfl h⟩

theorem mem_actions_iff : .writeFile q content ∈ r.actions dir ↔
    ∃ names, q = dir.under names ∧ (names, .file content) ∈ r.treeEntries := by
  rw [actions_eq]
  constructor
  · intro h
    rcases List.mem_cons.mp h with h | h
    · cases h
    · obtain ⟨⟨names, node⟩, he, heq⟩ := List.mem_map.mp h
      cases node with
      | directory => cases heq
      | file content' =>
        cases heq
        exact ⟨names, rfl, he⟩
  · intro h
    obtain ⟨names, rfl, he⟩ := h
    exact List.mem_cons_of_mem _ (List.mem_map.mpr ⟨_, he, rfl⟩)

theorem mem_treeEntries_of_named (he : e ∈ r.namedEntries) : e ∈ r.treeEntries := by
  rcases List.mem_append.mp he with he | he
  · exact List.mem_append_left _ he
  · refine List.mem_append_right _ ?_
    unfold snapshotEntries
    split at he
    · cases he
    · rename_i hcollective
      rw [if_neg hcollective]
      rcases List.mem_cons.mp he with rfl | he
      · exact List.mem_cons_self
      · obtain ⟨p, hp, rfl⟩ := List.mem_map.mp he
        refine List.mem_cons_of_mem _ (List.mem_flatMap.mpr ⟨p, hp, ?_⟩)
        exact List.mem_cons_of_mem _ List.mem_cons_self

/-- A run writes its snapshots, and the files that have names of their own. -/
theorem snapshot_or_named (h : .writeFile q content ∈ r.actions dir) :
    q ∈ r.snapshotPaths dir ∨
      ∃ names, q = dir.under names ∧ (names, .file content) ∈ r.namedEntries := by
  obtain ⟨names, rfl, he⟩ := mem_actions_iff.mp h
  rcases List.mem_append.mp he with he | he
  · exact .inr ⟨names, rfl, List.mem_append_left _ he⟩
  · unfold snapshotPaths namedEntries
    unfold snapshotEntries at he
    by_cases hcollective : r.collective = true
    · rw [if_pos hcollective] at he ⊢
      rcases List.mem_pair.mp he with heq | heq
      · cases heq
      · cases heq
        exact .inl (List.mem_singleton.mpr rfl)
    · rw [if_neg hcollective] at he ⊢
      rw [if_neg hcollective]
      rcases List.mem_cons.mp he with heq | he
      · cases heq
        exact .inr ⟨_, rfl, List.mem_append_right _ List.mem_cons_self⟩
      · obtain ⟨p, hp, he⟩ := List.mem_flatMap.mp he
        simp only [partEntries, List.mem_cons, List.not_mem_nil, or_false] at he
        rcases he with heq | heq | heq
        · cases heq
        · cases heq
          exact .inr ⟨_, rfl, List.mem_append_right _
            (List.mem_cons_of_mem _ (List.mem_map.mpr ⟨p, hp, rfl⟩))⟩
        · cases heq
          exact .inl (List.mem_map.mpr ⟨p, hp, rfl⟩)

/-- No snapshot file is written over one of the files that say how to read it. -/
def KeepsMetadata (r : RunRecipe) (dir : Path) (t : FileTree) : Prop :=
  ∀ q ∈ r.snapshotPaths dir, ∀ q' ∈ r.metadataPaths dir, t.resolve q ≠ t.resolve q'

theorem exists_names_of_snapshot (hq : q ∈ r.snapshotPaths dir) :
    ∃ home, IsName home ∧ q = dir.under [home, r.fileName] ∧
      ∃ content, .writeFile q content ∈ r.actions dir := by
  unfold snapshotPaths at hq
  split at hq
  · rename_i hcollective
    obtain rfl := List.mem_singleton.mp hq
    refine ⟨"allprocs", isName_of_mem (by decide), rfl, r.snapshotFile r.wholeDims (.uniform 0), ?_⟩
    refine mem_actions_iff.mpr ⟨["allprocs", r.fileName], rfl, ?_⟩
    refine List.mem_append_right _ ?_
    rw [snapshotEntries, if_pos hcollective]
    exact List.mem_cons_of_mem _ List.mem_cons_self
  · rename_i hcollective
    obtain ⟨p, hp, rfl⟩ := List.mem_map.mp hq
    refine ⟨processorDir (r.processorNumber p), isName_processorDir _, rfl,
      r.snapshotFile (r.partDims p) (r.offset p), ?_⟩
    refine mem_actions_iff.mpr ⟨[processorDir (r.processorNumber p), r.fileName], rfl, ?_⟩
    refine List.mem_append_right _ ?_
    rw [snapshotEntries, if_neg hcollective]
    refine List.mem_cons_of_mem _ (List.mem_flatMap.mpr ⟨p, hp, ?_⟩)
    exact List.mem_cons_of_mem _ (List.mem_cons_of_mem _ List.mem_cons_self)

/-- The files of the whole run lie higher than the snapshots, those of the processors beside. -/
theorem exists_names_of_metadata (hq : q ∈ r.metadataPaths dir) :
    ∃ names, names ≠ [] ∧ (∀ name ∈ names, IsName name) ∧ q = dir.under names ∧
      (names.length = 1 ∨ r.collective = false ∧ names.getLast? = some "dim.dat") := by
  rcases List.mem_append.mp hq with hq | hq
  · have hroot : ∃ name ∈ fileNames, q = dir.under [name] := by
      simp only [List.mem_cons, List.not_mem_nil, or_false] at hq
      rcases hq with rfl | rfl | rfl
      · exact ⟨"dim.dat", by decide, rfl⟩
      · exact ⟨"index.pro", by decide, rfl⟩
      · exact ⟨"param.nml", by decide, rfl⟩
    obtain ⟨name, hname, rfl⟩ := hroot
    have hnames : ∀ name' ∈ [name], IsName name' :=
      List.forall_mem_singleton.mpr (isName_of_mem hname)
    exact ⟨[name], List.cons_ne_nil _ _, hnames, rfl, .inl rfl⟩
  · split at hq
    · cases hq
    · rename_i hcollective
      obtain ⟨p, -, rfl⟩ := List.mem_map.mp hq
      refine ⟨[processorDir (r.processorNumber p), "dim.dat"], List.cons_ne_nil _ _,
        List.forall_mem_cons.mpr ⟨isName_processorDir _, ?_⟩, rfl,
        .inr ⟨eq_false_of_ne_true hcollective, rfl⟩⟩
      exact List.forall_mem_singleton.mpr (isName_of_mem (by decide))

/-- Snapshots with a name of their own lie in places of their own. -/
theorem keepsMetadata_of_isName (hwrite : r.write dir t = (t', true)) (hname : IsName r.fileName)
    (hne : r.collective = false → r.fileName ≠ "dim.dat") : r.KeepsMetadata dir t' := by
  intro q hq q' hq' heq
  obtain ⟨home, hhome, rfl, content, hmem⟩ := exists_names_of_snapshot hq
  obtain ⟨names, hnames, hall, rfl, hshape⟩ := exists_names_of_metadata hq'
  obtain ⟨place, hplace⟩ := exists_resolve_of_mem hwrite hmem
  have hsnapshot : ∀ name ∈ [home, r.fileName], IsName name :=
    List.forall_mem_cons.mpr ⟨hhome, List.forall_mem_singleton.mpr hname⟩
  have hsame : [home, r.fileName] = names :=
    FileTree.names_eq_of_resolve hsnapshot (List.cons_ne_nil _ _) hall hnames hplace
      (heq.symm.trans hplace)
  subst hsame
  rcases hshape with hone | ⟨hcollective, hlast⟩
  · cases hone
  · exact hne hcollective (Option.some.inj hlast)

section Written

variable (hwrite : r.write dir t = (t', true))
include hwrite

/-- A file with a name of its own holds what was written to it, if no snapshot lies in its place. -/
theorem read_named (he : (names, .file content) ∈ r.namedEntries)
    (hkept : ∀ q ∈ r.snapshotPaths dir, t'.resolve q ≠ t'.resolve (dir.under names)) :
    t'.read (dir.under names) = .ok content := by
  have hmem : .writeFile (dir.under names) content ∈ r.actions dir :=
    mem_actions_iff.mpr ⟨names, rfl, mem_treeEntries_of_named he⟩
  obtain ⟨place, hplace⟩ := exists_resolve_of_mem hwrite hmem
  refine read_runActions hwrite (.inr hmem) fun q' content' hmem' heq => ?_
  rcases snapshot_or_named hmem' with hq' | ⟨names', rfl, he'⟩
  · exact absurd heq (hkept q' hq')
  · obtain ⟨hne, hnames⟩ := isName_of_named he
    obtain ⟨hne', hnames'⟩ := isName_of_named he'
    have hsame : names' = names :=
      FileTree.names_eq_of_resolve hnames' hne' hnames hne (heq.trans hplace) hplace
    cases List.inj_on_of_nodup_map (nodup_namedEntries r) he he' hsame.symm
    rfl

variable (hkeeps : r.KeepsMetadata dir t')
include hkeeps

theorem readText_root {text : String} (hname : dir.join name ∈ r.metadataPaths dir)
    (he : ([name], .file (textBytes text)) ∈ r.metadataEntries) :
    t'.readText (dir.join name) = .ok text := by
  have hread := read_named hwrite (List.mem_append_left _ he) fun q hq => hkeeps q hq _ hname
  exact TextBytes.readText_eq hread

theorem hasTexts_of_write : r.HasTexts t' dir where
  dims := readText_root hwrite hkeeps (by simp [metadataPaths]) (by simp [metadataEntries])
  index := readText_root hwrite hkeeps (by simp [metadataPaths]) (by simp [metadataEntries])
  params := readText_root hwrite hkeeps (by simp [metadataPaths]) (by simp [metadataEntries])

theorem readText_part (hcollective : r.collective = false) (hp : p ∈ r.positions) :
    t'.readText ((dir.join (processorDir (r.processorNumber p))).join "dim.dat") =
      .ok (DimFile.render (r.partDims p) p) := by
  have he : ([processorDir (r.processorNumber p), "dim.dat"],
      .file (textBytes (DimFile.render (r.partDims p) p))) ∈ r.namedEntries :=
    partDimsEntry_mem hcollective hp
  have hpath : (dir.join (processorDir (r.processorNumber p))).join "dim.dat" ∈
      r.metadataPaths dir := mem_metadataPaths_of_part hcollective hp
  have hread := read_named hwrite he fun q hq => hkeeps q hq _ hpath
  exact TextBytes.readText_eq hread

end Written

/-- A run that its texts can declare: its numbers fit into words, its names and its tag are free of
the characters that the texts are made up with, and its doubles are read as they are printed. -/
structure IsDeclarable (r : RunRecipe) : Prop where
  fits : r.FitsWords
  slots_lt : r.evolved.length + r.auxiliary.length < Word.count 8
  names : ∀ name ∈ r.evolved ++ r.auxiliary, IndexFile.IsFieldName name
  tag : r.HasPlainTag
  eos : r.HasReadBackEos

/-- Whatever tree a run is written into, its metadata are read back as it declares them, and so are
the dimensions of its parts. -/
theorem metadata_write (r : RunRecipe) (h : r.IsDeclarable) (dir : Path) (t t' : FileTree)
    (hwrite : r.write dir t = (t', true)) (hkeeps : r.KeepsMetadata dir t') :
    MetadataFiles.run t' dir .standard = .ok r.metadata ∧
      (r.collective = false → ∀ p ∈ r.positions,
        MetadataFiles.processorDims t' dir (r.processorNumber p) .standard =
          .ok (r.partDims p)) := by
  have htexts := hasTexts_of_write hwrite hkeeps
  constructor
  · rw [htexts.run_eq h.fits, params_paramFile h.tag h.eos, index_indexFile h.names h.slots_lt,
      metadata]
  · intro hcollective p hp
    have hpart := readText_part hwrite hkeeps hcollective hp
    exact htexts.processorDims_eq h.fits (mem_positions_iff.mp hp) hpart

/-- Two processors, with names that come again or are empty, and snapshots with a name of their
own. -/
def oddlyNamed : RunRecipe :=
  { standard ⟨2, 1, 1⟩ with
    ghost := 0
    processors := ⟨2, 1, 1⟩
    evolved := ["lnrho", "u x", "lnrho"]
    auxiliary := ["", "i*2"]
    writesAuxiliary := true
    ioStrategy := some "MPI-IO"
    coordinates := .spherical
    fileName := "VAR0" }

theorem isDeclarable_oddlyNamed : oddlyNamed.IsDeclarable where
  fits := {
    extent_lt := fun a => by cases a <;> decide
    processors_lt := fun a => by cases a <;> decide
    evolved_lt := by decide
    auxiliary_lt := by decide }
  slots_lt := by decide
  names := by decide
  tag tag htag := by
    cases htag
    decide
  eos := hasReadBackEos_standard rfl

theorem written_oddlyNamed :
    (oddlyNamed.write ⟨"run"⟩ (.ofList [(["run"], .directory)])).2 = true := by
  decide +kernel

theorem metadata_write_oddlyNamed :
    ∃ t', oddlyNamed.write ⟨"run"⟩ (.ofList [(["run"], .directory)]) = (t', true) ∧
      MetadataFiles.run t' ⟨"run"⟩ .standard = .ok oddlyNamed.metadata ∧
      (oddlyNamed.collective = false → ∀ p ∈ oddlyNamed.positions,
        MetadataFiles.processorDims t' ⟨"run"⟩ (oddlyNamed.processorNumber p) .standard =
          .ok (oddlyNamed.partDims p)) := by
  obtain ⟨t', hwrite⟩ := exists_written written_oddlyNamed
  have hname : IsName oddlyNamed.fileName := ⟨by decide, by decide, by decide, by decide⟩
  have hkeeps := keepsMetadata_of_isName hwrite hname fun _ => by decide
  exact ⟨t', hwrite, metadata_write oddlyNamed isDeclarable_oddlyNamed ⟨"run"⟩ _ t' hwrite hkeeps⟩

/-- One processor, whose snapshot has the name of its dimension file. -/
def misnamed : RunRecipe :=
  { standard (.uniform 1) with
    ghost := 0
    fileName := "dim.dat" }

theorem isDeclarable_misnamed : misnamed.IsDeclarable where
  fits := {
    extent_lt := fun a => by cases a <;> decide
    processors_lt := fun a => by cases a <;> decide
    evolved_lt := by decide
    auxiliary_lt := by decide }
  slots_lt := by decide
  names name hname := nomatch hname
  tag tag htag := by
    cases htag
    decide
  eos := hasReadBackEos_standard rfl

/-- A snapshot that has the name of the dimension file is written over it, and its dimensions are
not read any more. -/
theorem metadata_write_misnamed_lost : misnamed.IsDeclarable ∧ misnamed.collective = false ∧
    .uniform 0 ∈ misnamed.positions ∧
    ∃ t', misnamed.write ⟨"run"⟩ (.ofList [(["run"], .directory)]) = (t', true) ∧
      MetadataFiles.processorDims t' ⟨"run"⟩ (misnamed.processorNumber (.uniform 0)) .standard ≠
        .ok (misnamed.partDims (.uniform 0)) := by
  have htaken : (misnamed.write ⟨"run"⟩ (.ofList [(["run"], .directory)])).2 = true := by
    decide +kernel
  have hlost : (MetadataFiles.processorDims
      (misnamed.write ⟨"run"⟩ (.ofList [(["run"], .directory)])).1 ⟨"run"⟩
      (misnamed.processorNumber (.uniform 0)) .standard).isOk = false := by
    decide +kernel
  obtain ⟨t', hwrite⟩ := exists_written htaken
  rw [hwrite] at hlost
  refine ⟨isDeclarable_misnamed, rfl, by decide, t', hwrite, fun heq => ?_⟩
  rw [heq] at hlost
  cases hlost

end RunRecipe

end GridSnapshot
