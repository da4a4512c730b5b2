import GridSnapshot.RunRecipe
import GridSnapshot.Proofs.NamelistText

namespace GridSnapshot

namespace RunRecipe

open Namelist (entryLine scanned IsKey IsEntry)

variable {r : RunRecipe}

def initEntries (r : RunRecipe) : List (String × List Char) :=
  [("COORD_SYSTEM", ['\''] ++ r.coordinates.name.toList ++ ['\'']),
   ("LSHEAR", (logicalText r.shearOffset.isSome).toList),
   ("LWRITE_AUX", (logicalText r.writesAuxiliary).toList),
   ("LWRITE_2D", (logicalText r.twoDimensional).toList)]
  ++ (r.ioStrategy.toList.map fun tag => ("IO_STRATEGY", ['"'] ++ tag.toList ++ ['"']))
  ++ [("LCOLLECTIVE_IO", (logicalText r.collective).toList)]

def eosEntries (r : RunRecipe) : List (String × List Char) :=
  [("CP", (Decimal.shortestText r.eos.cp).toList),
   ("GAMMA", (Decimal.shortestText r.eos.gamma).toList),
   ("CS0", (Decimal.shortestText r.eos.soundSpeed).toList),
   ("RHO0", (Decimal.shortestText r.eos.density).toList)]

def paramLines (r : RunRecipe) : List (List Char) :=
  ["&INIT_PARS".toList] ++ r.initEntries.map entryLine ++
    [['/'], "&EOS_INIT_PARS".toList] ++ r.eosEntries.map entryLine ++ [['/']]

theorem toList_paramFile (r : RunRecipe) :
    r.paramFile.toList = r.paramLines.flatMap (· ++ ['\n']) := by
  have htext (s : String) : toString s = s := rfl
  unfold paramFile paramLines initEntries eosEntries
  cases r.ioStrategy with
  | none => simp [htext, entryLine, Namelist.keyLine]
  | some tag => simp [htext, entryLine, Namelist.keyLine]

/-- The tag of a run that has record files. -/
def HasRecordFiles (r : RunRecipe) : Prop := r.ioStrategy = none ∨ r.ioStrategy = some "dist"

/-- The tag of the run can stand between quotes. -/
def HasPlainTag (r : RunRecipe) : Prop := ∀ tag ∈ r.ioStrategy, Namelist.IsQuotable tag.toList

def paramKeys : List String :=
  ["COORD_SYSTEM", "LSHEAR", "LWRITE_AUX", "LWRITE_2D", "IO_STRATEGY", "LCOLLECTIVE_IO", "CP",
    "GAMMA", "CS0", "RHO0"]

theorem isKey_of_mem {key : String} (h : key ∈ paramKeys) :
    IsKey key.toList ∧ '\n' ∉ key.toList := by
  simp only [paramKeys, List.mem_cons, List.not_mem_nil, or_false] at h
  rcases h with rfl | rfl | rfl | rfl | rfl | rfl | rfl | rfl | rfl | rfl
  all_goals exact ⟨⟨by decide, by decide, _, _, rfl, by decide, by decide, by decide⟩, by decide⟩

theorem isEntry {key : String} {value : List Char} (h : key ∈ paramKeys) (hvalue : '\n' ∉ value) :
    IsEntry (key, value) :=
  ⟨(isKey_of_mem h).1, (isKey_of_mem h).2, hvalue⟩

theorem feed_not_mem_logicalText (b : Bool) : '\n' ∉ (logicalText b).toList := by
  cases b <;> decide

theorem feed_not_mem_shortestText (x : Float) : '\n' ∉ (Decimal.shortestText x).toList :=
  Decimal.not_mem_shortestText (by decide) (by decide) (by decide) (by decide) x

theorem isEntry_initEntries (h : r.HasPlainTag) : ∀ e ∈ r.initEntries, IsEntry e := by
  have hname : '\n' ∉ ['\''] ++ r.coordinates.name.toList ++ ['\''] := by
    cases r.coordinates <;> decide
  intro e he
  rcases List.mem_append.mp he with he | he
  · rcases List.mem_append.mp he with he | he
    · simp only [List.mem_cons, List.not_mem_nil, or_false] at he
      rcases he with rfl | rfl | rfl | rfl
      · exact isEntry (by decide) hname
      · exact isEntry (by decide) (feed_not_mem_logicalText _)
      · exact isEntry (by decide) (feed_not_mem_logicalText _)
      · exact isEntry (by decide) (feed_not_mem_logicalText _)
    · obtain ⟨tag, htag, rfl⟩ := List.mem_map.mp he
      have hfeed := (h tag (Option.mem_toList.mp htag)).feed_not_mem
      exact isEntry (by decide) (by simp [hfeed])
  · obtain rfl := List.mem_singleton.mp he
    exact isEntry (by decide) (feed_not_mem_logicalText _)

theorem isEntry_eosEntries (r : RunRecipe) : ∀ e ∈ r.eosEntries, IsEntry e := by
  intro e he
  simp only [eosEntries, List.mem_cons, List.not_mem_nil, or_false] at he
  rcases he with rfl | rfl | rfl | rfl
  · exact isEntry (by decide) (feed_not_mem_shortestText _)
  · exact isEntry (by decide) (feed_not_mem_shortestText _)
  · exact isEntry (by decide) (feed_not_mem_shortestText _)
  · exact isEntry (by decide) (feed_not_mem_shortestText _)

theorem scan_paramFile (h : r.HasPlainTag) :
    Namelist.scan r.paramFile =
      (r.initEntries.map scanned ++ r.eosEntries.map scanned).foldl Namelist.addFirst .empty := by
  have hinit := isEntry_initEntries h
  have heos := isEntry_eosEntries r
  have hlines : ∀ l ∈ r.paramLines, '\n' ∉ l ∧ Text.dropReturn l = l := by
    intro l hl
    simp only [paramLines, List.mem_append, List.mem_cons, List.mem_map, List.not_mem_nil,
      or_false] at hl
    rcases hl with (((rfl | ⟨e, he, rfl⟩) | rfl | rfl) | ⟨e, he, rfl⟩) | rfl
    · decide
    · exact (hinit e he).line_ok
    · decide
    · decide
    · exact (heos e he).line_ok
    · decide
  have hgroups : ["&INIT_PARS".toList].filterMap Namelist.scanLine = [] ∧
      [['/'], "&EOS_INIT_PARS".toList].filterMap Namelist.scanLine = [] ∧
      [['/']].filterMap Namelist.scanLine = [] := by
    decide
  rw [Namelist.scan, toList_paramFile, Text.lines_flatMap hlines, paramLines]
  simp only [List.filterMap_append, hgroups, Namelist.filterMap_scanLine hinit,
    Namelist.filterMap_scanLine heos, List.nil_append, List.append_nil]

/-- A key of the parameter file has the value of its first line. -/
theorem get?_scan_paramFile (h : r.HasPlainTag) (key : String) :
    (Namelist.scan r.paramFile).get? key =
      ((r.initEntries ++ r.eosEntries).map scanned).lookup key := by
  rw [scan_paramFile h, Namelist.get?_foldl_addFirst, List.map_append]
  rfl

/-- No key comes again. -/
theorem nodup_paramEntries (r : RunRecipe) :
    ((r.initEntries ++ r.eosEntries).map Prod.fst).Nodup := by
  unfold initEntries eosEntries
  cases r.ioStrategy <;> simp

theorem map_fst_scanned (es : List (String × List Char)) :
    (es.map scanned).map Prod.fst = es.map Prod.fst := by
  rw [List.map_map]
  rfl

theorem get?_of_mem (h : r.HasPlainTag) {key : String} {value : List Char}
    (hmem : (key, value) ∈ r.initEntries ++ r.eosEntries) :
    (Namelist.scan r.paramFile).get? key = some (Namelist.firstValue (value ++ [','])) := by
  rw [get?_scan_paramFile h]
  apply Table.lookup_of_mem
  · rw [map_fst_scanned]
    exact nodup_paramEntries r
  · exact List.mem_map.mpr ⟨_, hmem, rfl⟩

theorem get?_strategy (h : r.HasPlainTag) :
    (Namelist.scan r.paramFile).get? "IO_STRATEGY" = r.ioStrategy := by
  cases htag : r.ioStrategy with
  | none =>
    rw [get?_scan_paramFile h]
    apply Table.lookup_eq_none_of_not_mem
    rw [map_fst_scanned]
    simp [initEntries, eosEntries, htag]
  | some tag =>
    have hmem : ("IO_STRATEGY", ['"'] ++ tag.toList ++ ['"']) ∈ r.initEntries ++ r.eosEntries := by
      simp [initEntries, htag]
    rw [get?_of_mem h hmem, Namelist.firstValue_quoted (h tag htag), String.ofList_toList]

theorem logical?_firstValue (b : Bool) :
    Namelist.logical? (Namelist.firstValue ((logicalText b).toList ++ [','])) = some b := by
  cases b <;> decide

theorem ofName?_firstValue (c : CoordinateSystem) :
    CoordinateSystem.ofName?
      (Namelist.firstValue (['\''] ++ c.name.toList ++ ['\''] ++ [','])).toList = some c := by
  cases c <;> decide

/-- The settings say in the same way how snapshots are stored. -/
structure SameStorage (s s' : RunSettings Float) : Prop where
  ioStrategy_eq : s.ioStrategy = s'.ioStrategy
  collective_eq : s.collective = s'.collective
  writesAuxiliary_eq : s.writesAuxiliary = s'.writesAuxiliary
  twoDimensional_eq : s.twoDimensional = s'.twoDimensional
  shear_eq : s.shear = s'.shear

theorem flag_of_mem (h : r.HasPlainTag) {key : String} {b : Bool}
    (hmem : (key, (logicalText b).toList) ∈ r.initEntries ++ r.eosEntries) :
    (((Namelist.scan r.paramFile).get? key).bind Namelist.logical?).getD false = b := by
  rw [get?_of_mem h hmem, Option.bind_some, logical?_firstValue, Option.getD_some]

/-- What a parameter file says of the storage is read back. -/
theorem storage_paramFile (h : r.HasPlainTag) :
    SameStorage (Namelist.params (Namelist.scan r.paramFile)) r.params := by
  have hstrategy := get?_strategy h
  have hflag (key : String) (b : Bool)
      (hmem : (key, (logicalText b).toList) ∈ r.initEntries ++ r.eosEntries) :=
    flag_of_mem h hmem
  generalize Namelist.scan r.paramFile = entries at hstrategy hflag ⊢
  exact ⟨hstrategy, hflag "LCOLLECTIVE_IO" r.collective (by simp [initEntries]),
    hflag "LWRITE_AUX" r.writesAuxiliary (by simp [initEntries]),
    hflag "LWRITE_2D" r.twoDimensional (by simp [initEntries]),
    hflag "LSHEAR" r.shearOffset.isSome (by simp [initEntries])⟩

/-- The printed double is parsed as the same double. -/
def IsReadBack (x : Float) : Prop :=
  Decimal.parseReal? (Decimal.shortestText x).toList = some x

theorem real_of_mem (h : r.HasPlainTag) {key : String} {x standard : Float}
    (hmem : (key, (Decimal.shortestText x).toList) ∈ r.initEntries ++ r.eosEntries)
    (hx : IsReadBack x) :
    (((Namelist.scan r.paramFile).get? key).bind Namelist.real?).getD standard = x := by
  rw [get?_of_mem h hmem, Option.bind_some, Decimal.real?_firstValue, hx, Option.getD_some]

theorem coordinates_paramFile (h : r.HasPlainTag) :
    (Namelist.params (Namelist.scan r.paramFile)).coordinates = r.coordinates := by
  have hmem : ("COORD_SYSTEM", ['\''] ++ r.coordinates.name.toList ++ ['\'']) ∈
      r.initEntries ++ r.eosEntries := by simp [initEntries]
  simp only [Namelist.params, get?_of_mem h hmem, Option.bind_some, ofName?_firstValue,
    Option.getD_some]

/-- The doubles of the equation of state are read back. -/
structure HasReadBackEos (r : RunRecipe) : Prop where
  cp : IsReadBack r.eos.cp
  gamma : IsReadBack r.eos.gamma
  soundSpeed : IsReadBack r.eos.soundSpeed
  density : IsReadBack r.eos.density

theorem hasReadBackEos_standard (h : r.eos = .standard) : r.HasReadBackEos where
  cp := by
    rw [h]
    unfold IsReadBack
    decide +kernel
  gamma := by
    rw [h]
    unfold IsReadBack
    decide +kernel
  soundSpeed := by
    rw [h]
    unfold IsReadBack
    decide +kernel
  density := by
    rw [h]
    unfold IsReadBack
    decide +kernel

theorem eos_paramFile (h : r.HasPlainTag) (heos : r.HasReadBackEos) :
    (Namelist.params (Namelist.scan r.paramFile)).eos = r.eos := by
  unfold Namelist.params
  simp only
  rw [real_of_mem h (by simp [eosEntries]) heos.cp, real_of_mem h (by simp [eosEntries]) heos.gamma,
    real_of_mem h (by simp [eosEntries]) heos.soundSpeed,
    real_of_mem h (by simp [eosEntries]) heos.density]

/-- A parameter file is read as the parameters that it was made from. -/
theorem params_paramFile (h : r.HasPlainTag) (heos : r.HasReadBackEos) :
    Namelist.params (Namelist.scan r.paramFile) = r.params := by
  have hstorage := storage_paramFile h
  have hcoordinates := coordinates_paramFile h
  have heos := eos_paramFile h heos
  generalize Namelist.params (Namelist.scan r.paramFile) = s at hstorage hcoordinates heos ⊢
  obtain ⟨tag, collective, auxiliary, two, shear, coordinates, eos⟩ := s
  obtain ⟨rfl, rfl, rfl, rfl, rfl⟩ := hstorage
  simp only at hcoordinates heos
  rw [hcoordinates, heos]
  rfl

end RunRecipe

end GridSnapshot
