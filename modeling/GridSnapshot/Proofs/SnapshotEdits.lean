import GridSnapshot.Proofs.SnapshotCalls

namespace GridSnapshot

open Outcome Call

namespace Snapshot

/-- A change of a snapshot. -/
inductive Edit (ω α : Type) where
  | addDerived (name : String) (t : Tensor α)
  | noteFailure (name : String) (e : DerivationFault)
  | write (name : String) (g : Nat → α → α)
  | derive (op : CurlScheme ω α) (fields : List DerivedQuantity)
  | trim

variable {ω α : Type} [RealOps ω] [RealOps α] [Narrowing ω α] {s s' : Snapshot ω α} {name : String}
  {t : Tensor α}

/-- What a change leaves behind, whether its call comes to its end or not. -/
def edit (s : Snapshot ω α) : Edit ω α → Snapshot ω α
  | .addDerived name t => ((addingDerived name t).run.run s).2
  | .noteFailure name e => s.noteFailure name e
  | .write name g => ((writing name g : Call Empty _ _).run.run s).2
  | .derive op fields => (s.derive op fields).1
  | .trim => (trimming.run.run s).2

def editAll (s : Snapshot ω α) (edits : List (Edit ω α)) : Snapshot ω α := edits.foldl edit s

theorem edit_addDerived_of_ok (h : s.addDerived name t = .ok s') :
    s.edit (.addDerived name t) = s' :=
  congrArg Prod.snd (yields_addingDerived h)

theorem edit_addDerived_of_error {e : DerivationFault} (h : s.addDerived name t = .error e) :
    s.edit (.addDerived name t) = s :=
  congrArg Prod.snd (fails_addingDerived h)

theorem Sound.edit_trim_of_ok (hs : s.Sound) (h : s.trim = .ok s') : s.edit .trim = s' :=
  congrArg Prod.snd (yields_trimming hs h)

theorem Sound.edit_trim_of_error (hs : s.Sound) {e : TrimFault} (h : s.trim = .error e) :
    s.edit .trim = s :=
  congrArg Prod.snd (fails_trimming hs.rank_eq h)

/-- A sound snapshot of a run. -/
def SoundIn (m : RunMetadata ω) (s : Snapshot ω α) : Prop := s.Sound ∧ s.metadata = m

namespace SoundIn

variable {m : RunMetadata ω}

omit [RealOps ω] [RealOps α] [Narrowing ω α] in
theorem addDerived (h : s.SoundIn m) (hs' : s.addDerived name t = .ok s') : s'.SoundIn m := by
  obtain ⟨-, rfl⟩ := addDerived_eq_ok_iff.mp hs'
  exact ⟨h.1.addDerived hs', h.2⟩

omit [RealOps ω] [RealOps α] [Narrowing ω α] in
theorem mapField {g : Nat → α → α} (h : s.SoundIn m) (hs' : s.mapField? name g = some s') :
    s'.SoundIn m := by
  obtain ⟨_, -, rfl⟩ := Option.map_eq_some_iff.mp hs'
  exact ⟨h.1.mapField hs', h.2⟩

theorem edit (h : s.SoundIn m) (e : Edit ω α) : (s.edit e).SoundIn m := by
  cases e with
  | addDerived name t =>
    cases hadd : s.addDerived name t with
    | error e =>
      rw [edit_addDerived_of_error hadd]
      exact h
    | ok s' =>
      rw [edit_addDerived_of_ok hadd]
      exact h.addDerived hadd
  | noteFailure name e => exact ⟨h.1.noteFailure name e, h.2⟩
  | write name g => exact keeps_writing (fun _ _ hwrite hs => hs.mapField hwrite) s h
  | derive op fields =>
    exact Derivation.deriveAll_preserves op (fun _ _ _ _ hs hadd => hs.addDerived hadd)
      (fun _ name e hs => ⟨hs.1.noteFailure name e, hs.2⟩) h fields []
  | trim =>
    cases htrim : s.trim with
    | error e =>
      rw [h.1.edit_trim_of_error htrim]
      exact h
    | ok s' =>
      rw [h.1.edit_trim_of_ok htrim]
      obtain ⟨-, rfl⟩ := trim_eq_ok_iff.mp htrim
      exact ⟨h.1.trim htrim, h.2⟩

theorem editAll (h : s.SoundIn m) (edits : List (Edit ω α)) : (s.editAll edits).SoundIn m := by
  induction edits generalizing s with
  | nil => exact h
  | cons e edits ih => exact ih (h.edit e)

end SoundIn

/-- What can be relied on at any time, in a run with the given metadata. -/
structure Dependable (m : RunMetadata ω) (s : Snapshot ω α) : Prop where
  metadata_eq : s.metadata = m
  /-- The last axes of each derived array are those of the tensor. -/
  suffix : ∀ name t, s.derived.get? name = some t → s.cellShape <:+ t.shape
  hasSlots : m.index.HasRoom → ∀ name slots, s.views.get? name = some slots → s.HasSlots slots
  /-- A field that has a view is found, with the cells of its slots. -/
  finds : m.index.HasRoom → ∀ name slots, s.views.get? name = some slots → ∃ t,
    s.field? name = some t ∧ s.lookup? name = some t ∧ t.shape = s.viewShape slots ∧
    ∀ c < slots.length, ∀ idx, Cell.Inside s.cellShape idx →
      ∃ x, s.f.get? ((slots.start + c) :: idx) = some x ∧
        t.get? (viewIndex slots c idx) = some x
  /-- It can be written, which changes its cells and nothing else. -/
  writes : m.index.HasRoom → ∀ name slots, s.views.get? name = some slots → ∀ g, ∃ s',
    Yields (writing name g : Call Empty _ _) s () s' ∧ s.edit (.write name g) = s' ∧
    s' = { s with f := s'.f } ∧ s'.f.shape = s.f.shape ∧
    ∀ i idx x, s.f.get? (i :: idx) = some x → s'.f.get? (i :: idx) =
      some (if slots.Contains i then
        g ((i - slots.start) * volume s.cellShape + Cell.offset s.cellShape idx) x else x)
  trim_refused_iff : (∃ e, s.trim = .error e) ↔ s.trimmed = true ∨ s.BoundExceeds
  /-- The calls that write as they go have not written anything when they are refused. -/
  trim_refused : ∀ e, s.trim = .error e → Fails trimming s (.refused e) s ∧ s.edit .trim = s
  /-- Otherwise all arrays are cut alike. -/
  trim_done : ∀ s', s.trim = .ok s' →
    Yields trimming s () s' ∧ s.edit .trim = s' ∧ s'.IsTrimOf s
  addDerived_refused_iff : ∀ name t,
    (∃ e, s.addDerived name t = .error e) ↔ ¬ s.cellShape <:+ t.shape
  addDerived_refused : ∀ name t e, s.addDerived name t = .error e →
    Fails (addingDerived name t) s (.refused e) s ∧ s.edit (.addDerived name t) = s
  addDerived_done : ∀ name t s', s.addDerived name t = .ok s' →
    Yields (addingDerived name t) s () s' ∧ s.edit (.addDerived name t) = s'

theorem SoundIn.dependable {m : RunMetadata ω} (h : s.SoundIn m) : s.Dependable m where
  metadata_eq := h.2
  suffix := h.1.suffix
  hasSlots hroom := h.1.hasSlots (h.2 ▸ hroom)
  finds hroom name slots hview := by
    have hslots := h.1.hasSlots (h.2 ▸ hroom) name slots hview
    obtain ⟨hshape, hcells⟩ := view_spec h.1 hslots
    exact ⟨s.view slots, field?_eq_some hview, lookup?_eq_some hview, hshape, hcells⟩
  writes hroom name slots hview g := by
    have hslots := h.1.hasSlots (h.2 ▸ hroom) name slots hview
    obtain ⟨s', hs', hrest, hshape, hcells⟩ := mapField?_spec h.1 hview hslots g
    have hyields := yields_writing (ε := Empty) hview hslots hs'
    exact ⟨s', hyields, congrArg Prod.snd hyields, hrest, hshape, hcells⟩
  trim_refused_iff := exists_trim_eq_error_iff
  trim_refused _ he := ⟨fails_trimming h.1.rank_eq he, h.1.edit_trim_of_error he⟩
  trim_done _ hs' := ⟨yields_trimming h.1 hs', h.1.edit_trim_of_ok hs',
    isTrimOf_of_trim h.1.rank_eq h.1.bounds_le h.1.suffix hs'⟩
  addDerived_refused_iff _ _ := exists_addDerived_eq_error_iff
  addDerived_refused _ _ _ he := ⟨fails_addingDerived he, edit_addDerived_of_error he⟩
  addDerived_done _ _ _ hs' := ⟨yields_addingDerived hs', edit_addDerived_of_ok hs'⟩

/-- A snapshot can be relied on after whatever was done to it. -/
theorem dependable_editAll (c : SnapshotContent ω α) (h : c.WellFormed)
    (edits : List (Edit ω α)) : ((ofContent c).editAll edits).Dependable c.metadata :=
  have hstart : (ofContent c).SoundIn c.metadata := ⟨sound_ofContent h, rfl⟩
  (hstart.editAll edits).dependable

/-- A snapshot of a plane that still has coordinates along the axis it does not store. -/
def planeContent : SnapshotContent Float Float where
  f := .fill [2, 3, 4] 0
  layout := .xz
  coords := ⟨[0, 1, 2, 3], [0, 1, 2], [0, 1, 2]⟩
  time := 0
  spacing := .uniform 1
  shearOffset := none
  bounds := ⟨⟨1, 3⟩, ⟨1, 2⟩, ⟨1, 2⟩⟩
  metadata := ⟨⟨⟨4, 3, 3⟩, ⟨1, 1, 1⟩, 2, 0, .double, .uniform 1, .uniform 0⟩, .standard,
    .ofList [("lnrho", 1), ("ss", 2)]⟩
  persistence := .empty
  grid := none

def planeEdits : List (Edit Float Float) :=
  [.addDerived "layers" (.fill [5, 3, 4] 1), .write "ss" fun _ x => x,
    .addDerived "narrow" (.fill [2, 4] 1), .derive CentralDifference.scheme [.rho, .bb]]

theorem wellFormed_plane : planeContent.WellFormed where
  rank_eq := rfl
  bounds_le a := by cases a <;> decide

/-- The plane can be trimmed once, and its entropy is found at any time. -/
theorem dependable_editAll_plane :
    planeContent.WellFormed ∧ planeContent.metadata.index.HasRoom ∧
    ((ofContent planeContent).editAll planeEdits).Dependable planeContent.metadata ∧
    ((ofContent planeContent).editAll (planeEdits ++ [.trim])).Dependable planeContent.metadata ∧
    ∃ s' e, ((ofContent planeContent).editAll planeEdits).trim = .ok s' ∧
      s'.trim = .error e := by
  have hs := dependable_editAll planeContent wellFormed_plane planeEdits
  refine ⟨wellFormed_plane, by decide +kernel, hs,
    dependable_editAll planeContent wellFormed_plane _, ?_⟩
  exact ⟨_, .alreadyTrimmed, rfl, rfl⟩

/-- One cell of a vector whose slots do not fit behind the last word. -/
def lastWordContent : SnapshotContent Float Float where
  f := .fill [1, 1, 1, 1] 0
  layout := .full
  coords := ⟨[0], [0], [0]⟩
  time := 0
  spacing := .uniform 1
  shearOffset := none
  bounds := ⟨⟨0, 1⟩, ⟨0, 1⟩, ⟨0, 1⟩⟩
  metadata := ⟨⟨⟨1, 1, 1⟩, ⟨0, 0, 0⟩, 1, 0, .double, .uniform 1, .uniform 0⟩, .standard,
    .ofList [("ux", 18446744073709551615)]⟩
  persistence := .empty
  grid := none

/-- The vector has a view without slots, where a read stops. -/
theorem lastWord_view_without_slots :
    lastWordContent.WellFormed ∧
    ∃ slots, (ofContent lastWordContent).views.get? "uu" = some slots ∧
      ¬ (ofContent lastWordContent).HasSlots slots ∧
      (ofContent lastWordContent).isCutOutside slots = true := by
  refine ⟨⟨rfl, fun a => by cases a <;> decide⟩, ⟨18446744073709551614, 1⟩, ?_, ?_, ?_⟩
  · decide
  · decide
  · decide

end Snapshot

end GridSnapshot
