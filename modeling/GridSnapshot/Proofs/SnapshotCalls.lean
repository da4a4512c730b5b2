import GridSnapshot.Proofs.Calls
import GridSnapshot.Proofs.SoundSnapshots

namespace GridSnapshot

open Outcome Call

/-- Each span can be cut from one of the last axes. -/
def CutsLast (spans : List Span) (shape : List Nat) : Prop :=
  spans.length ≤ shape.length ∧
    List.Forall₂ Span.In spans (shape.drop (shape.length - spans.length))

instance (spans : List Span) (shape : List Nat) : Decidable (CutsLast spans shape) :=
  inferInstanceAs (Decidable (_ ∧ _))

theorem cutsLast_append {spans : List Span} {extents : List Nat} (lead : List Nat)
    (h : List.Forall₂ Span.In spans extents) : CutsLast spans (lead ++ extents) := by
  have hlead : (lead ++ extents).length - spans.length = lead.length := by
    rw [List.length_append, h.length_eq, Nat.add_sub_cancel]
  refine ⟨?_, ?_⟩
  · rw [h.length_eq, List.length_append]
    exact Nat.le_add_left _ _
  · rw [hlead, List.drop_left]
    exact h

namespace Snapshot

variable {ω α ε : Type}

/-- Stores a derived field step by step. -/
def addingDerived (name : String) (t : Tensor α) : Call DerivationFault (Snapshot ω α) Unit := do
  let s ← get
  deny (if s.cellShape.isSuffixOf t.shape then none
    else some (.shapeMismatch (.derived name t.shape s.cellShape)))
  modify fun s => { s with failures := s.failures.erase name }
  modify fun s => { s with derived := s.derived.insert name t }

/-- Writes to a field, if there is one, and stops where a view that wrapped is cut. -/
def writing (name : String) (g : Nat → α → α) : Call ε (Snapshot ω α) Unit := do
  let s ← get
  match s.views.get? name with
  | none => pure ()
  | some slots =>
    need (s.isCutOutside slots = false)
    modify fun s => (s.mapField? name g).getD s

/-- Checks the bound along the stored axis at a place. -/
def checkStored (a : Axis) (k : Nat) : Call TrimFault (Snapshot ω α) Unit := do
  let s ← get
  match s.f.shape[k + 1]? with
  | none => throw .outOfRange
  | some extent => deny (s.boundFault a extent)

def checkCoords (a : Axis) : Call TrimFault (Snapshot ω α) Unit := do
  let s ← get
  deny (s.boundFault a (s.coords.get a).length)

def cutCoords (a : Axis) : Call TrimFault (Snapshot ω α) Unit := do
  let s ← get
  need ((s.bounds.get a).In (s.coords.get a).length)
  modify fun s => { s with coords := .ofFn fun b =>
    if b = a then (s.bounds.get a).slice (s.coords.get a) else s.coords.get b }

section Cutting

variable [Zero α]

def cutTensor (spans : List Span) : Call TrimFault (Snapshot ω α) Unit := do
  let s ← get
  need (CutsLast spans s.f.shape)
  modify fun s => { s with f := s.f.sliceLast spans }

def cutDerived (spans : List Span) (name : String) (t : Tensor α) :
    Call TrimFault (Snapshot ω α) Unit := do
  need (CutsLast spans t.shape)
  modify fun s => { s with derived := s.derived.insert name (t.sliceLast spans) }

/-- Drops the ghost cells step by step in the order of the checks and the writes. -/
def trimming : Call TrimFault (Snapshot ω α) Unit := do
  let s ← get
  deny (if s.trimmed then some .alreadyTrimmed else none)
  s.layout.axes.zipIdx.forM fun (a, k) => checkStored a k
  Axis.all.forM checkCoords
  cutTensor s.trimSpans
  s.derived.entries.forM fun (name, t) => cutDerived s.trimSpans name t
  cutCoords .x
  cutCoords .y
  cutCoords .z
  modify fun s => { s with trimmed := true }

end Cutting

variable {s s' : Snapshot ω α} {name : String} {t : Tensor α} {slots : Span}

theorem fails_addingDerived {e : DerivationFault} (h : s.addDerived name t = .error e) :
    Fails (addingDerived name t) s (.refused e) s := by
  refine yields_get.bind_fails (Fails.bind ?_)
  rw [addDerived] at h
  split at h
  · cases h
  · rename_i hsuffix
    cases h
    rw [if_neg hsuffix]
    exact checks_deny.fails

theorem yields_addingDerived (h : s.addDerived name t = .ok s') :
    Yields (addingDerived name t) s () s' := by
  obtain ⟨hsuffix, rfl⟩ := addDerived_eq_ok_iff.mp h
  refine yields_get.bind ?_
  rw [if_pos (List.isSuffixOf_iff_suffix.mpr hsuffix)]
  exact checks_deny.yields.bind (yields_modify.bind yields_modify)

theorem yields_writing (hview : s.views.get? name = some slots) (hslots : s.HasSlots slots)
    {g : Nat → α → α} (h : s.mapField? name g = some s') :
    Yields (writing name g : Call ε _ _) s () s' := by
  have hcut : s.isCutOutside slots = false := by
    rw [isCutOutside, onAxis_of_le (Nat.le_of_lt hslots.1), decide_eq_false_iff_not, Nat.not_lt]
    exact Nat.le_trans (Nat.le_of_lt hslots.1) hslots.2
  have hwrite : Yields (modify fun s => (s.mapField? name g).getD s : Call ε (Snapshot ω α) Unit)
      s () ((s.mapField? name g).getD s) := yields_modify
  rw [h] at hwrite
  refine yields_get.bind ?_
  simp only [hview]
  exact (yields_need hcut).bind hwrite

/-- What a write to a field keeps is kept however the call ends. -/
theorem keeps_writing {P : Snapshot ω α → Prop} {g : Nat → α → α}
    (h : ∀ s s', s.mapField? name g = some s' → P s → P s') :
    Keeps P (writing name g : Call ε (Snapshot ω α) Unit) := by
  refine keeps_get.bind fun s => ?_
  split
  · exact fun _ hs => hs
  · refine (keeps_need _).bind fun _ => keeps_modify fun s hs => ?_
    cases hwrite : s.mapField? name g with
    | none => exact hs
    | some s' => exact h s s' hwrite hs

theorem checks_stored (hrank : s.f.shape.length = s.layout.axes.length + 1) :
    Checks (s.layout.axes.zipIdx.forM fun (a, k) => checkStored a k) s
      ((List.zip s.layout.axes s.cellShape).findSome? fun (a, n) => s.boundFault a n) := by
  have hlength : s.cellShape.length = s.layout.axes.length := by
    rw [cellShape, List.length_tail, hrank, Nat.add_sub_cancel]
  have hzip : List.zip s.layout.axes s.cellShape =
      s.layout.axes.zipIdx.map fun (a, k) => (a, s.cellShape.getD k 0) := by
    refine List.ext_getElem (by simp [hlength]) fun i hi hi' => ?_
    simp only [List.length_map, List.length_zipIdx] at hi'
    simp [hlength, hi']
  rw [hzip, List.findSome?_map]
  refine checks_forM fun e hmem => ?_
  obtain ⟨a, k⟩ := e
  have hk : k < s.cellShape.length := by
    rw [hlength]
    exact (List.mem_zipIdx' hmem).1
  have hextent : s.f.shape[k + 1]? = some (s.cellShape.getD k 0) := by
    rw [cellShape] at hk ⊢
    rw [← List.getElem?_tail, List.getD_eq_getElem?_getD, List.getElem?_eq_getElem hk]
    rfl
  refine yields_get.run_bind.trans ?_
  simp only [hextent]
  rfl

theorem checks_coords : Checks (Axis.all.forM checkCoords) s
    ((Axis.all.map fun a => (a, (s.coords.get a).length)).findSome? fun (a, n) =>
      s.boundFault a n) := by
  rw [List.findSome?_map]
  exact checks_forM fun a _ => checks_deny

theorem trimFault_eq_or : s.trimFault = (if s.trimmed then some .alreadyTrimmed else none).or
    (((List.zip s.layout.axes s.cellShape).findSome? fun (a, n) => s.boundFault a n).or
      ((Axis.all.map fun a => (a, (s.coords.get a).length)).findSome? fun (a, n) =>
        s.boundFault a n)) := by
  rw [trimFault, trimExtents, List.findSome?_append]
  cases s.trimmed <;> rfl

theorem keeps_checkStored {P : Snapshot ω α → Prop} (a : Axis) (k : Nat) :
    Keeps P (checkStored a k) := by
  refine keeps_get.bind fun s => ?_
  split
  · exact keeps_halt _
  · exact keeps_deny _

theorem yields_cutCoords {a : Axis} (h : (s.bounds.get a).In (s.coords.get a).length) :
    Yields (cutCoords a) s () { s with coords := .ofFn fun b =>
      if b = a then (s.bounds.get a).slice (s.coords.get a) else s.coords.get b } :=
  yields_get.bind ((yields_need h).bind yields_modify)

/-- What ends with the axes of the cells can be cut if all bounds end inside. -/
theorem Sound.cutsLast_trimSpans (hs : s.Sound) (h : ¬ s.BoundExceeds)
    (ht : s.cellShape <:+ t.shape) : CutsLast s.trimSpans t.shape := by
  obtain ⟨lead, hlead⟩ := ht
  rw [← hlead]
  exact cutsLast_append lead (in_trimSpans hs.rank_eq hs.bounds_le h)

variable [Zero α]

theorem yields_cutTensor {spans : List Span} (h : CutsLast spans s.f.shape) :
    Yields (cutTensor spans) s () { s with f := s.f.sliceLast spans } :=
  yields_get.bind ((yields_need h).bind yields_modify)

/-- A trim that is refused has not written anything. -/
theorem fails_trimming {e : TrimFault} (hrank : s.f.shape.length = s.layout.axes.length + 1)
    (h : s.trim = .error e) : Fails trimming s (.refused e) s := by
  have hfault : s.trimFault = some e := by
    rw [trim] at h
    split at h
    · rename_i e' he'
      cases h
      exact he'
    · cases h
  rw [trimFault_eq_or] at hfault
  refine yields_get.bind_fails ?_
  refine checks_deny.bind_fails hfault fun hrest => ?_
  refine (checks_stored hrank).bind_fails hrest fun hlast => ?_
  have hcoords := checks_coords (s := s)
  rw [hlast] at hcoords
  exact hcoords.fails.bind

theorem yields_cutDerived {spans : List Span} {es : List (String × Tensor α)}
    (h : ∀ e ∈ es, CutsLast spans e.2.shape) :
    Yields (es.forM fun (name, t) => cutDerived spans name t) s ()
      { s with derived := s.derived.insertMany (es.map fun e => (e.1, e.2.sliceLast spans)) } := by
  induction es generalizing s with
  | nil => exact rfl
  | cons e es ih =>
    rw [List.forall_mem_cons] at h
    exact Yields.bind ((yields_need h.1).bind yields_modify) (ih h.2)

/-- A trim that is not refused comes to its end, with what one step of `trim` gives. -/
theorem yields_trimming (hs : s.Sound) (h : s.trim = .ok s') : Yields trimming s () s' := by
  obtain ⟨⟨huntrimmed, hinside⟩, rfl⟩ := trim_eq_ok_iff.mp h
  have hfault : s.trimFault = none := trimFault_eq_none_iff.mpr ⟨huntrimmed, hinside⟩
  rw [trimFault_eq_or, Option.or_eq_none_iff, Option.or_eq_none_iff] at hfault
  obtain ⟨hfirst, hstored, hcoords⟩ := hfault
  have hchecks := checks_stored hs.rank_eq
  have hchecks' := checks_coords (s := s)
  rw [hstored] at hchecks
  rw [hcoords] at hchecks'
  have hin (a : Axis) : (s.bounds.get a).In (s.coords.get a).length :=
    ⟨hs.bounds_le a, Nat.le_of_not_lt fun hlt => hinside (.inr ⟨a, hlt⟩)⟩
  have htensor := hs.cutsLast_trimSpans hinside (List.tail_suffix s.f.shape)
  refine yields_get.bind ?_
  rw [hfirst]
  refine Yields.bind checks_deny.yields ?_
  refine hchecks.yields.bind (hchecks'.yields.bind ?_)
  refine (yields_cutTensor htensor).bind ((yields_cutDerived fun e he => ?_).bind ?_)
  · have hget := Table.lookup_of_mem s.derived.nodup he
    exact hs.cutsLast_trimSpans hinside (hs.suffix e.1 e.2 hget)
  refine Yields.bind (yields_cutCoords (hin .x)) ?_
  refine Yields.bind (yields_cutCoords (hin .y)) ?_
  refine Yields.bind (yields_cutCoords (hin .z)) ?_
  have hderived := Table.insertMany_mapValues s.derived fun t => t.sliceLast s.trimSpans
  rw [← hderived]
  exact yields_modify

/-- What the writes of a trim keep is kept however the call ends. -/
theorem trimming_preserves {P : Snapshot ω α → Prop}
    (htensor : ∀ u t, P u → P { u with f := t })
    (hderived : ∀ u, ∀ e ∈ s.derived.entries, ∀ t, P u →
      P { u with derived := u.derived.insert e.1 t })
    (hcoords : ∀ u coords, P u → P { u with coords := coords })
    (htrimmed : ∀ u, P u → P { u with trimmed := true }) (h : P s) :
    P (trimming.run.run s).2 := by
  have hcut (a : Axis) : Keeps P (cutCoords a) :=
    keeps_get.bind fun _ => (keeps_need _).bind fun _ => keeps_modify fun u => hcoords u _
  rw [trimming, yields_get.run_bind]
  refine Keeps.bind (keeps_deny _) (fun _ => ?_) s h
  refine Keeps.bind (keeps_forM fun (a, k) _ => keeps_checkStored a k) fun _ => ?_
  refine Keeps.bind (keeps_forM fun _ _ => keeps_get.bind fun _ => keeps_deny _) fun _ => ?_
  refine Keeps.bind (keeps_get.bind fun _ => (keeps_need _).bind fun _ => ?_) fun _ => ?_
  · exact keeps_modify fun u => htensor u _
  refine Keeps.bind (keeps_forM fun e he => (keeps_need _).bind fun _ => ?_) fun _ => ?_
  · exact keeps_modify fun u => hderived u e he _
  refine (hcut .x).bind fun _ => (hcut .y).bind fun _ => (hcut .z).bind fun _ => ?_
  exact keeps_modify htrimmed

end Snapshot

end GridSnapshot
