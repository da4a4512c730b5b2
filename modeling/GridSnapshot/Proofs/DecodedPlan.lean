import GridSnapshot.SnapshotReading
import GridSnapshot.Proofs.DecodedBlock
import GridSnapshot.Proofs.PlacedRun
import Mathlib.Data.List.Forall2

namespace GridSnapshot

open Outcome

namespace ReadPlan

variable {α : Type} [Zero α] [Narrowing Float α] {plan : ReadPlan Float} {tree : FileTree}
  {sub : Subdomain} {part : Part Float α} {parts : List (Part Float α)}
  {asm asm' : Assembly Float α} {s : Snapshot Float α}

/-- The part is what a file of the plan holds. -/
def Holds (plan : ReadPlan Float) (tree : FileTree) (sub : Subdomain) (part : Part Float α) :
    Prop :=
  part.1 = sub.dims ∧ plan.decode tree sub = .ok part.2

omit [Zero α] in
theorem Holds.matches (h : plan.Holds tree sub part) : part.2.Matches (plan.blockSpec part.1) := by
  obtain ⟨hdims, hdecode⟩ := h
  have hblock := mapError_eq_ok_iff.mp hdecode
  unfold readBlock at hblock
  split at hblock
  · cases hblock
  · rw [hdims]
    exact Block.matches_of_decode hblock

omit [Zero α] in
theorem Holds.size_eq (h : plan.Holds tree sub part) :
    part.2.data.size = Word.wrap (volume (plan.layout.shape plan.metadata.slotCount part.1)) :=
  h.matches.size_eq.trans (Word.wrap_mul_wrap _ _)

section Fills

variable (h : plan.Holds tree sub part)
  (hfills : part.2.Fills plan.layout plan.metadata.slotCount part.1)
include h hfills

omit [Zero α]

/-- A part with enough values has no others, and a word counts them. -/
theorem Holds.size_eq_volume :
    part.2.data.size = volume (plan.layout.shape plan.metadata.slotCount part.1) :=
  Nat.le_antisymm (h.size_eq ▸ Word.wrap_le _) hfills.size_ge

theorem Holds.volume_lt :
    volume (plan.layout.shape plan.metadata.slotCount part.1) < Word.count 8 := by
  rw [← h.size_eq_volume hfills, h.size_eq]
  exact Nat.mod_lt _ (by decide)

end Fills

theorem decodeInOrder_eq_ok_iff {subs : List Subdomain} :
    decodeInOrder (plan.decode tree) placeSubdomain subs asm = .ok asm' ↔
      ∃ parts, List.Forall₂ (plan.Holds tree) subs parts ∧ asm.placeAll parts = .ok asm' := by
  induction subs generalizing asm with
  | nil =>
    simp only [decodeInOrder, List.forall₂_nil_left_iff, exists_eq_left, Except.ok.injEq]
    exact ⟨fun h => h ▸ rfl, fun h => Except.ok.inj h⟩
  | cons sub subs ih =>
    simp only [decodeInOrder, bind_eq_ok_iff]
    constructor
    · intro hex
      obtain ⟨block, hdecode, next, hplace, hrest⟩ := hex
      obtain ⟨parts, hparts, hrun⟩ := ih.mp hrest
      refine ⟨(sub.dims, block) :: parts, .cons ⟨rfl, hdecode⟩ hparts, ?_⟩
      exact Assembly.placeAll_cons_eq_ok_iff.mpr ⟨next, mapError_eq_ok_iff.mp hplace, hrun⟩
    · intro hex
      obtain ⟨parts, hparts, hrun⟩ := hex
      obtain ⟨part, rest, ⟨hdims, hdecode⟩, hrest, rfl⟩ := List.forall₂_cons_left_iff.mp hparts
      obtain ⟨next, hplace, hrun⟩ := Assembly.placeAll_cons_eq_ok_iff.mp hrun
      rw [hdims] at hplace
      exact ⟨part.2, hdecode, next, mapError_eq_ok_iff.mpr hplace, ih.mpr ⟨rest, hrest, hrun⟩⟩

omit [Zero α] in
theorem exists_holds {subs : List Subdomain} (h : List.Forall₂ (plan.Holds tree) subs parts)
    (hx : part ∈ parts) : ∃ sub ∈ subs, plan.Holds tree sub part := by
  induction h with
  | nil => cases hx
  | cons hhead _ ih =>
    rcases List.mem_cons.mp hx with rfl | hx
    · exact ⟨_, List.mem_cons_self, hhead⟩
    · obtain ⟨sub, hsub, h⟩ := ih hx
      exact ⟨sub, List.mem_cons_of_mem _ hsub, h⟩

omit [Zero α] in
theorem exists_part_of_mem {subs : List Subdomain} (h : List.Forall₂ (plan.Holds tree) subs parts)
    (hmem : sub ∈ subs) : ∃ part ∈ parts, plan.Holds tree sub part := by
  induction h with
  | nil => cases hmem
  | cons hhead _ ih =>
    rcases List.mem_cons.mp hmem with rfl | hmem
    · exact ⟨_, List.mem_cons_self, hhead⟩
    · obtain ⟨part, hpart, h⟩ := ih hmem
      exact ⟨part, List.mem_cons_of_mem _ hpart, h⟩

omit [Zero α] in
theorem single_eq_ok_iff :
    plan.single tree sub = .ok s ↔ ∃ block : Block Float α, ∃ f, plan.decode tree sub = .ok block ∧
      Tensor.ofArray? (plan.layout.shape block.vars sub.dims) block.data = some f ∧
      s = .ofContent {
        f := f
        layout := plan.layout
        coords := block.coords.coords.map (·.map narrow)
        time := narrow block.coords.time
        spacing := block.coords.spacing.map narrow
        shearOffset := block.coords.shearOffset.map narrow
        bounds := sub.dims.interiorBounds
        metadata := plan.metadata
        persistence := block.persistence
        grid := plan.grid.filter fun g => gridFits g sub.dims } := by
  unfold single
  rw [bind_eq_ok_iff]
  constructor
  · intro hex
    obtain ⟨block, hdecode, h⟩ := hex
    simp only at h
    split at h
    · cases h
    · rename_i f hf
      cases h
      exact ⟨block, f, hdecode, hf, rfl⟩
  · intro hex
    obtain ⟨block, f, hdecode, hf, rfl⟩ := hex
    refine ⟨block, hdecode, ?_⟩
    simp only [hf]
    rfl

theorem stitched_eq_ok_iff :
    plan.stitched tree = .ok s ↔ ∃ parts asm c,
      List.Forall₂ (plan.Holds tree) plan.subdomains parts ∧
      (Assembly.empty plan.layout plan.metadata.dims plan.metadata.slotCount).placeAll parts =
        .ok asm ∧
      asm.scalars = some c ∧
      s = .ofContent {
        f := asm.f
        layout := asm.layout
        coords := asm.coords
        time := c.time
        spacing := c.spacing
        shearOffset := c.shearOffset
        bounds := asm.dims.interiorBounds
        metadata := plan.metadata
        persistence := asm.persistence
        grid := plan.grid } := by
  unfold stitched
  rw [bind_eq_ok_iff]
  constructor
  · intro hex
    obtain ⟨asm, hdecode, h⟩ := hex
    obtain ⟨parts, hparts, hrun⟩ := decodeInOrder_eq_ok_iff.mp hdecode
    have hsnapshot := mapError_eq_ok_iff.mp h
    unfold Assembly.snapshot at hsnapshot
    split at hsnapshot
    · cases hsnapshot
    · rename_i c hc
      cases hsnapshot
      exact ⟨parts, asm, c, hparts, hrun, hc, rfl⟩
  · intro hex
    obtain ⟨parts, asm, c, hparts, hrun, hc, rfl⟩ := hex
    refine ⟨asm, decodeInOrder_eq_ok_iff.mpr ⟨parts, hparts, hrun⟩, mapError_eq_ok_iff.mpr ?_⟩
    rw [Assembly.snapshot, hc]

/-- What record files give, if they give anything. -/
theorem readRecords_eq_ok_iff {cancelled : Bool} :
    plan.readRecords tree cancelled = .ok s ↔ cancelled = false ∧
      ((∃ sub, plan.subdomains = [sub] ∧ plan.single tree sub = .ok s) ∨
        (2 ≤ plan.subdomains.length ∧ plan.stitched tree = .ok s)) := by
  unfold readRecords
  match plan.subdomains with
  | [] => simp
  | [sub] => cases cancelled <;> simp
  | sub :: sub' :: subs => cases cancelled <;> simp

end ReadPlan

end GridSnapshot
