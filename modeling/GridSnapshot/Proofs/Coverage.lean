import GridSnapshot.Proofs.DecodedPlan
import GridSnapshot.Proofs.FileAnswers
import GridSnapshot.Proofs.NumberedNames
import GridSnapshot.Proofs.SettledPlan

namespace GridSnapshot

open Outcome

namespace ReadPlan

variable {α : Type} [Zero α] [Narrowing Float α] {plan : ReadPlan Float} {tree : FileTree}
  {sub : Subdomain} {parts : List (Part Float α)} {asm : Assembly Float α} {s : Snapshot Float α}

/-- The snapshot is the only part as it was read. -/
structure Returned (plan : ReadPlan Float) (s : Snapshot Float α) (part : Part Float α) : Prop where
  shape_eq : s.f.shape = plan.layout.shape plan.metadata.slotCount part.1
  cell_eq : ∀ idx, Cell.Inside (plan.layout.shape plan.metadata.slotCount part.1) idx →
    s.f.get? idx = part.2.at? (plan.layout.shape plan.metadata.slotCount part.1) idx
  coords_eq : s.coords = part.2.coords.coords.map (·.map narrow)

/-- The snapshot has the extents of the whole run, and what any part owns is that of the last part
that owns it, if where the parts end are words. -/
structure Stitched (plan : ReadPlan Float) (s : Snapshot Float α) (parts : List (Part Float α)) :
    Prop where
  shape_eq : s.f.shape = plan.layout.shape plan.metadata.slotCount plan.metadata.dims
  length_eq : ∀ a, (s.coords.get a).length = plan.metadata.dims.extent a
  cell_eq : (∀ x ∈ parts, x.1.FitsWords) → ∀ slot < plan.metadata.slotCount, ∀ i,
    (∀ a ∈ plan.layout.axes, i.get a < plan.metadata.dims.extent a) →
    (∃ x ∈ parts, x.Owns plan.layout.axes i) →
      ∃ x v, Part.lastOwner plan.layout.axes i parts = some x ∧
        x.2.at? (plan.layout.shape plan.metadata.slotCount x.1)
          (plan.layout.index slot (x.1.within i)) = some v ∧
        s.f.get? (plan.layout.index slot i) = some v
  coord_eq : (∀ x ∈ parts, x.1.FitsWords) → ∀ a, ∀ k < plan.metadata.dims.extent a,
    (∃ x ∈ parts, (x.1.owned a).Contains k) →
    ∃ x v, Part.lastOwner [a] (.uniform k) parts = some x ∧
      (x.2.coords.coords.get a)[k - x.1.base a]? = some v ∧
      (s.coords.get a)[k]? = some (narrow v)

omit [Zero α] in
theorem returned_of_single (h : plan.single tree sub = .ok s) :
    ∃ part, plan.Holds tree sub part ∧ plan.Returned s part := by
  obtain ⟨block, f, hdecode, hf, rfl⟩ := single_eq_ok_iff.mp h
  have hholds : plan.Holds tree sub (sub.dims, block) := ⟨rfl, hdecode⟩
  have hvars : block.vars = plan.metadata.slotCount := hholds.matches.vars_eq
  rw [hvars, Tensor.ofArray?] at hf
  split at hf
  · cases hf
    refine ⟨(sub.dims, block), hholds, ⟨rfl, fun idx hin => ?_, rfl⟩⟩
    exact if_pos hin
  · cases hf

theorem stitched_of_run (hparts : List.Forall₂ (plan.Holds tree) plan.subdomains parts)
    (hrun : (Assembly.empty plan.layout plan.metadata.dims plan.metadata.slotCount).placeAll parts =
      .ok asm) (hf : s.f = asm.f) (hcoords : s.coords = asm.coords) : plan.Stitched s parts where
  shape_eq := hf ▸ (Assembly.over_empty.placeAll hrun).shape_eq
  length_eq a := hcoords ▸ (Assembly.over_empty.placeAll hrun).length_eq a
  cell_eq hw slot hs i hi hown := by
    cases hlast : Part.lastOwner plan.layout.axes i parts with
    | none =>
      obtain ⟨x, hx, hxown⟩ := hown
      exact absurd hxown (Part.lastOwner_eq_none_iff.mp hlast x hx)
    | some x =>
      obtain ⟨hx, hxown⟩ := Part.lastOwner_mem hlast
      have hwithin : Cell.Inside (plan.layout.shape plan.metadata.slotCount x.1)
          (plan.layout.index slot (x.1.within i)) :=
        StoredAxes.inside_index.mpr ⟨hs, fun a ha => Dimensions.within_lt (hxown a ha)⟩
      obtain ⟨v, hv⟩ := (Assembly.over_empty.fills_of_placeAll hrun hx).exists_at? hwithin
      refine ⟨x, v, rfl, hv, ?_⟩
      rw [hf, Assembly.get?_placeAll Assembly.over_empty hw hrun hs hi, hlast]
      exact hv
  coord_eq hw a k hk hown := by
    cases hlast : Part.lastOwner [a] (.uniform k) parts with
    | none =>
      obtain ⟨x, hx, hxown⟩ := hown
      exact absurd (Part.owns_singleton_iff.mpr hxown) (Part.lastOwner_eq_none_iff.mp hlast x hx)
    | some x =>
      obtain ⟨hx, hxown⟩ := Part.lastOwner_mem hlast
      have hlen : ∀ x ∈ parts, (x.2.coords.coords.get a).length = x.1.extent a := by
        intro x hx
        obtain ⟨sub, -, hholds⟩ := exists_holds hparts hx
        exact hholds.matches.length_eq a
      have hlt : k - x.1.base a < (x.2.coords.coords.get a).length := by
        rw [hlen x hx]
        exact (Dimensions.sub_start_owned (Part.owns_singleton_iff.mp hxown)).2.2
      refine ⟨x, _, rfl, List.getElem?_eq_getElem hlt, ?_⟩
      rw [hcoords, Assembly.getElem?_coords_placeAll Assembly.over_empty hw hrun hlen hk, hlast]
      simp only [List.getElem?_eq_getElem hlt, Option.map_some]

/-- A read of all processors reads every directory that was found. A single one is returned as it
is. Several are stitched to the extents of the whole run, and each cell and each coordinate that
any of them owns was written from its file, last from that of the last owner. -/
theorem read_all_processors {σ : Type} (src : MetadataSupplier σ Float) (tree : FileTree)
    (dir : Path) (o : ReadOptions) (state : MetadataCache Float × σ) (plan : ReadPlan Float)
    (store : Option (ContainerStore Float)) (cancelled : Bool) (s : Snapshot Float α)
    (hall : o.processor = .all) (hmake : ((make src tree dir o).run.run state).1 = .ok plan)
    (hstorage : plan.storage = .perProcess) (hread : plan.read tree store cancelled = .ok s) :
    ∃ parts : List (Part Float α),
      SnapshotDir.discover tree dir = .ok (plan.subdomains.map Subdomain.dir) ∧
      List.Forall₂ (plan.Holds tree) plan.subdomains parts ∧
      ((∃ part, parts = [part] ∧ plan.Returned s part) ∨
        (2 ≤ parts.length ∧ plan.Stitched s parts)) := by
  obtain ⟨metadata, s₁, storage, dirs, subs, s₂, grid, -, -, -, hdirs, hsubs, -, rfl⟩ :=
    yields_make_iff.mp (show Yields _ state plan _ from Prod.ext hmake rfl)
  simp only at hstorage
  subst hstorage
  rw [hall, SnapshotDir.select_perProcess_all_eq_ok_iff, ← map_dir_findSubdomains hsubs] at hdirs
  obtain ⟨-, hcases⟩ := readRecords_eq_ok_iff.mp hread
  rcases hcases with ⟨sub, rfl, hsingle⟩ | ⟨hmany, hstitched⟩
  · obtain ⟨part, hholds, hreturned⟩ := returned_of_single hsingle
    exact ⟨[part], hdirs.1, .cons hholds .nil, .inl ⟨part, rfl, hreturned⟩⟩
  · obtain ⟨parts, asm, c, hparts, hrun, -, rfl⟩ := stitched_eq_ok_iff.mp hstitched
    refine ⟨parts, hdirs.1, hparts, .inr ⟨?_, stitched_of_run hparts hrun rfl rfl⟩⟩
    rw [← hparts.length_eq]
    exact hmany

/-- A file of one cell in single precision, with the value one. -/
def oneCellFile : Bytes :=
  Record.frame [0, 0, 0x80, 0x3f] ++ Record.frame (List.replicate 28 0)

def asciiText (text : String) : Bytes := text.toList.map fun c => UInt8.ofNat c.toNat

/-- Three processors along x with one cell each; the directory of the second is missing. -/
def gappedRun : FileTree := .ofList
  [(["run"], .directory),
   (["run", "dim.dat"], .file (asciiText "3 1 1 1 0 0\nS\n0 0 0\n3 1 1\n")),
   (["run", "index.pro"], .file []),
   (["run", "proc0"], .directory),
   (["run", "proc0", "dim.dat"], .file (asciiText "1 1 1 1 0 0\nS\n0 0 0\n0 0 0\n")),
   (["run", "proc0", "var.dat"], .file oneCellFile),
   (["run", "proc2"], .directory),
   (["run", "proc2", "dim.dat"], .file (asciiText "1 1 1 1 0 0\nS\n0 0 0\n2 0 0\n")),
   (["run", "proc2", "var.dat"], .file oneCellFile)]

/-- A row of cells along x without margins, in single precision. -/
def rowDims (extent position : Nat) : Dimensions :=
  ⟨⟨extent, 1, 1⟩, ⟨0, 0, 0⟩, 1, 0, .single, ⟨3, 1, 1⟩, ⟨position, 0, 0⟩⟩

def gappedPart (n : Nat) : Subdomain :=
  ⟨.numbered n, ⟨"run/proc" ++ toString n ++ "/var.dat"⟩, rowDims 1 n⟩

def gappedPlan (grid : Option (Grid Float)) : ReadPlan Float where
  dir := ⟨"run"⟩
  storage := .perProcess
  metadata := ⟨rowDims 3 0, .standard, .empty⟩
  layout := .full
  subdomains := [gappedPart 0, gappedPart 2]
  readsPersistence := false
  workers := 2
  grid := grid

def wholeRead : ReadOptions := ⟨.latest, .all, false, false, true, 2⟩

theorem discover_gappedRun :
    SnapshotDir.discover gappedRun ⟨"run"⟩ = .ok [.numbered 0, .numbered 2] := by
  have hsort : NaturalOrder.sort ["proc0", "proc2"] = ["proc0", "proc2"] := by
    have hsorted : [0, 2].mergeSort (· ≤ ·) = [0, 2] :=
      List.mergeSort_of_pairwise (by simp)
    have hdirs := NaturalOrder.sort_processorDirs [0, 2]
    rw [hsorted] at hdirs
    exact hdirs
  have hlist : gappedRun.list ⟨"run"⟩ = .ok ["dim.dat", "index.pro", "proc0", "proc2"] := rfl
  unfold SnapshotDir.discover
  rw [hlist]
  change Except.ok ((NaturalOrder.sort ["proc0", "proc2"]).filterMap SnapshotDir.ofName?) = _
  rw [hsort]
  rfl

theorem make_gappedRun : ∃ grid,
    ((make (MetadataFiles.supplier gappedRun) gappedRun ⟨"run"⟩ wholeRead).run.run
      (.empty, ())).1 = .ok (gappedPlan grid) := by
  have hmetadata : MetadataSupplier.answer ((MetadataFiles.supplier gappedRun).runMetadata ⟨"run"⟩
      .standard) () = .ok (gappedPlan none).metadata := rfl
  have hdirs : SnapshotDir.select gappedRun ⟨"run"⟩ .perProcess .all =
      .ok [.numbered 0, .numbered 2] :=
    SnapshotDir.select_perProcess_all_eq_ok_iff.mpr ⟨discover_gappedRun, by decide⟩
  have hsubs : List.Forall₂ (Finds (MetadataFiles.supplier gappedRun) () gappedRun ⟨"run"⟩ .standard
      .perProcess (rowDims 3 0) "var.dat") [.numbered 0, .numbered 2]
      (gappedPlan none).subdomains :=
    .cons ⟨rfl, rfl, rfl⟩ (.cons ⟨rfl, rfl, rfl⟩ .nil)
  refine make_eq_ok MetadataFiles.steady_supplier (MetadataCache.valid_of_get?_eq_none rfl) rfl
    hmetadata rfl hdirs hsubs ?_
  intro e h
  rw [MetadataFiles.answer_grid] at h
  exact MetadataFiles.grid_eq_error h

theorem exists_holds_gappedPart (grid : Option (Grid Float)) {n : Nat} (hn : n = 0 ∨ n = 2) :
    ∃ b : Block Float Float, (gappedPlan grid).Holds gappedRun (gappedPart n) (rowDims 1 n, b) := by
  have hok : ((gappedPlan none).decode gappedRun (gappedPart n) :
      Except ReadFault (Block Float Float)).toOption.isSome = true := by
    rcases hn with rfl | rfl <;> decide +kernel
  have hsame : (gappedPlan grid).decode gappedRun (gappedPart n) =
      ((gappedPlan none).decode gappedRun (gappedPart n) :
        Except ReadFault (Block Float Float)) := rfl
  cases hdecode : ((gappedPlan none).decode gappedRun (gappedPart n) :
      Except ReadFault (Block Float Float)) with
  | error e => rw [hdecode] at hok; cases hok
  | ok b => exact ⟨b, rfl, hsame.trans hdecode⟩

theorem read_gappedRun (grid : Option (Grid Float)) :
    ∃ s : Snapshot Float Float, (gappedPlan grid).read gappedRun none false = .ok s ∧
      s.f.shape = [1, 1, 1, 3] ∧ s.f.get? [0, 0, 0, 1] = some 0 := by
  obtain ⟨b, hb⟩ := exists_holds_gappedPart grid (.inl rfl)
  obtain ⟨b', hb'⟩ := exists_holds_gappedPart grid (.inr rfl)
  let parts : List (Part Float Float) := [(rowDims 1 0, b), (rowDims 1 2, b')]
  have hparts : List.Forall₂ ((gappedPlan grid).Holds gappedRun) (gappedPlan grid).subdomains
      parts := .cons hb (.cons hb' .nil)
  have hmem : ∀ x ∈ parts, x.1 = rowDims 1 0 ∨ x.1 = rowDims 1 2 := by
    intro x hx
    rcases List.mem_pair.mp hx with rfl | rfl
    · exact .inl rfl
    · exact .inr rfl
  have hover : (Assembly.empty .full (rowDims 3 0) 1 : Assembly Float Float).Over .full 1
      (rowDims 3 0) := Assembly.over_empty
  have hw : ∀ x ∈ parts, x.1.FitsWords := by
    intro x hx a
    rcases hmem x hx with h | h <;> rw [h] <;> cases a <;> decide
  have hfits : ∀ x ∈ parts, x.Fits .full 1 (rowDims 3 0) := by
    intro x hx
    obtain ⟨sub, -, hholds⟩ := exists_holds hparts hx
    refine ⟨fun a => ?_, hholds.matches.vars_eq, Nat.le_of_eq ?_⟩
    · rcases hmem x hx with h | h <;> rw [h] <;> cases a <;> decide
    · rw [hholds.size_eq]
      rcases hmem x hx with h | h <;> rw [h] <;> rfl
  obtain ⟨asm, hrun⟩ := (hover.placeAll_ok_iff hw).mpr hfits
  obtain ⟨_, -, hscalars⟩ := Assembly.exists_scalars_placeAll hover hrun (List.cons_ne_nil _ _)
  have hlast : Part.lastOwner StoredAxes.full.axes ⟨1, 0, 0⟩ parts = none := by
    rw [Part.lastOwner_eq_none_iff]
    intro x hx hown
    have hown : (x.1.owned .x).Contains 1 := hown .x (by decide)
    rcases hmem x hx with h | h <;> rw [h] at hown <;> exact absurd hown (by decide)
  have hstitched : (gappedPlan grid).stitched gappedRun = .ok _ :=
    stitched_eq_ok_iff.mpr ⟨parts, asm, _, hparts, hrun, hscalars, rfl⟩
  have hread : (gappedPlan grid).readRecords gappedRun false = .ok _ :=
    readRecords_eq_ok_iff.mpr ⟨rfl, .inr ⟨Nat.le_refl 2, hstitched⟩⟩
  refine ⟨_, hread, ?_, ?_⟩
  · exact (hover.placeAll hrun).shape_eq
  · have hcell : asm.f.get? (StoredAxes.full.index 0 ⟨1, 0, 0⟩) = _ :=
      Assembly.get?_placeAll hover hw hrun (by decide) fun a _ => by cases a <;> decide
    rw [hlast] at hcell
    exact hcell

/-- A missing directory is not noticed: its cells stay as they were before any file was read. -/
theorem read_gappedRun_leaves_gap :
    ∃ plan, ∃ s : Snapshot Float Float,
      ((make (MetadataFiles.supplier gappedRun) gappedRun ⟨"run"⟩ wholeRead).run.run
        (.empty, ())).1 = .ok plan ∧
      plan.storage = .perProcess ∧ plan.read gappedRun none false = .ok s ∧
      s.f.shape = plan.layout.shape plan.metadata.slotCount plan.metadata.dims ∧
      Cell.Inside s.f.shape [0, 0, 0, 1] ∧ s.f.get? [0, 0, 0, 1] = some 0 ∧
      ∀ sub ∈ plan.subdomains, ¬ (sub.dims.owned .x).Contains 1 := by
  obtain ⟨grid, hmake⟩ := make_gappedRun
  obtain ⟨s, hread, hshape, hcell⟩ := read_gappedRun grid
  refine ⟨gappedPlan grid, s, hmake, rfl, hread, hshape, ?_, hcell, ?_⟩
  · rw [hshape]
    decide
  · have hsubs : (gappedPlan grid).subdomains = (gappedPlan none).subdomains := rfl
    rw [hsubs]
    decide

/-- The other directories are read, and give what they own. -/
theorem read_all_processors_gappedRun :
    ∃ plan : ReadPlan Float, ∃ s : Snapshot Float Float, ∃ parts : List (Part Float Float),
      plan.read gappedRun none false = .ok s ∧
      SnapshotDir.discover gappedRun ⟨"run"⟩ = .ok (plan.subdomains.map Subdomain.dir) ∧
      2 ≤ parts.length ∧ (∀ x ∈ parts, x.1.FitsWords) ∧ plan.Stitched s parts := by
  obtain ⟨grid, hmake⟩ := make_gappedRun
  obtain ⟨s, hread, -, -⟩ := read_gappedRun grid
  obtain ⟨parts, hdirs, hparts, hcases⟩ := read_all_processors (MetadataFiles.supplier gappedRun)
    gappedRun ⟨"run"⟩ wholeRead (.empty, ()) (gappedPlan grid) none false s rfl hmake rfl hread
  refine ⟨gappedPlan grid, s, parts, hread, hdirs, ?_⟩
  rcases hcases with ⟨part, rfl, -⟩ | hcases
  · cases hparts.length_eq
  · refine ⟨hcases.1, fun x hx => ?_, hcases.2⟩
    obtain ⟨sub, hsub, hdims, -⟩ := exists_holds hparts hx
    rw [hdims]
    rcases List.mem_pair.mp hsub with rfl | rfl <;> intro a <;> cases a <;> decide

end ReadPlan

end GridSnapshot
