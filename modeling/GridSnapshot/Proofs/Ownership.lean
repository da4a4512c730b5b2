import GridSnapshot.Metadata.Files
import GridSnapshot.Proofs.NumberedNames
import GridSnapshot.Proofs.PlacedRun
import GridSnapshot.Proofs.ProcessorGrid

namespace GridSnapshot

namespace ProcessorGrid

variable {ω α : Type} {g : ProcessorGrid}

def directory (g : ProcessorGrid) (p : PerAxis Nat) : String :=
  MetadataFiles.processorDir (g.number p)

/-- However the directories are listed, natural order is that of the processor numbers. -/
theorem sort_directories {listing : List (PerAxis Nat)} (h : listing.Perm g.positions) :
    NaturalOrder.sort (listing.map g.directory) = g.positions.map g.directory := by
  have hnames (ps : List (PerAxis Nat)) : ps.map g.directory =
      (ps.map g.number).map MetadataFiles.processorDir := by
    rw [List.map_map]
    rfl
  have hsorted : (listing.map g.number).mergeSort (· ≤ ·) = g.positions.map g.number := by
    have hperm : ((listing.map g.number).mergeSort (· ≤ ·)).Perm (g.positions.map g.number) :=
      (List.mergeSort_perm _ _).trans (h.map _)
    have hleft : ((listing.map g.number).mergeSort (· ≤ ·)).Pairwise (· ≤ ·) := by
      have htrans : ∀ a b c : Nat, decide (a ≤ b) → decide (b ≤ c) → decide (a ≤ c) := by
        simpa using fun a b c => Nat.le_trans
      have htotal : ∀ a b : Nat, (decide (a ≤ b) || decide (b ≤ a)) = true := by
        simpa using Nat.le_total
      simpa using List.pairwise_mergeSort htrans htotal (listing.map g.number)
    have hright : (g.positions.map g.number).Pairwise (· ≤ ·) := by
      rw [map_number_positions]
      exact List.pairwise_le_range
    exact hperm.eq_of_pairwise (fun a b _ _ hab hba => Nat.le_antisymm hab hba) hleft hright
  rw [hnames, hnames, NaturalOrder.sort_processorDirs, hsorted]

/-- Of the parts that write a cell the owner is placed last. -/
theorem lastOwner_eq {l : StoredAxes} {i : PerAxis Nat} {part : PerAxis Nat → Part ω α}
    {order : List (PerAxis Nat)} (hn : ∀ a, 0 < g.interior.get a)
    (hpart : ∀ p, g.Holds p → g.IsPart (part p).1 ∧ (part p).1.position = p)
    (horder : g.Ordered order) (hi : ∀ a ∈ l.axes, i.get a < g.wholeExtent a) :
    Part.lastOwner l.axes i (order.map part) = some (part (g.ownerAt l i)) := by
  have hc := holds_ownerAt (g := g) l i
  have hget (a : Axis) : (g.ownerAt l i).get a =
      if a ∈ l.axes then g.owner a (i.get a) else g.counts.get a - 1 := PerAxis.get_ofFn _ a
  obtain ⟨before, after, hsplit⟩ := List.append_of_mem ((horder.mem_iff _).mpr hc)
  have hafter : ∀ q ∈ after, g.Holds q ∧ ¬ ∀ a, q.get a ≤ (g.ownerAt l i).get a := by
    intro q hq
    have hpair := horder.pairwise
    rw [hsplit] at hpair
    refine ⟨(horder.mem_iff q).mp (by rw [hsplit]; simp [hq]), ?_⟩
    exact (List.pairwise_cons.mp (List.pairwise_append.mp hpair).2.1).1 q hq
  rw [hsplit, List.map_append, List.map_cons]
  apply Part.lastOwner_append_of_owns
  · intro a ha
    obtain ⟨hp, hpos⟩ := hpart _ hc
    refine contains_owner hp ?_ (hi a ha)
    rw [hpos, hget a, if_pos ha]
  · intro x hx hown
    obtain ⟨q, hq, rfl⟩ := List.mem_map.mp hx
    obtain ⟨hholds, hnot⟩ := hafter q hq
    obtain ⟨hp, hpos⟩ := hpart q hholds
    -- A later part that wrote the cell would lie nowhere after the owner.
    refine hnot fun a => ?_
    rw [hget a]
    split
    · rename_i ha
      have hle := le_owner (hn a) hp (hown a ha)
      rwa [hpos] at hle
    · exact Nat.le_sub_one_of_lt (hholds a)

end ProcessorGrid

namespace Assembly

variable {ω α : Type} [Zero α] [Narrowing ω α]

/-- The owner of a cell decides its value, whatever the margins hold, in every order that places a
part after those whose positions are nowhere greater. No upper margin survives except that of the
last processor, and the natural order of the directories' names is such an order. -/
theorem placeAll_owner_wins (g : ProcessorGrid) (hn : ∀ a, 0 < g.interior.get a) (l : StoredAxes)
    (vars : Nat) (whole : Dimensions) (hwhole : g.IsWhole whole) (part : PerAxis Nat → Part ω α)
    (hpart : ∀ p, g.Holds p → g.IsPart (part p).1 ∧ (part p).1.position = p)
    (hfills : ∀ p, g.Holds p → (part p).2.Fills l vars (part p).1) :
    (∀ order, g.Ordered order →
      ∃ asm, (empty l whole vars : Assembly ω α).placeAll (order.map part) = .ok asm ∧
        asm.f.shape = l.shape vars whole ∧
        ∀ slot < vars, ∀ i, (∀ a ∈ l.axes, i.get a < whole.extent a) →
          let owner := part (g.ownerAt l i)
          Cell.Inside (l.shape vars owner.1) (l.index slot (g.localAt l i)) ∧
            asm.f.get? (l.index slot i) =
              owner.2.at? (l.shape vars owner.1) (l.index slot (g.localAt l i))) ∧
    (∀ l i, ∀ a ∈ l.axes, (g.ownerAt l i).get a + 1 < g.counts.get a →
      (g.localAt l i).get a < g.interior.get a + g.ghosts.get a) ∧
    ∀ listing : List (PerAxis Nat), listing.Perm g.positions →
      ∃ order, g.Ordered order ∧
        NaturalOrder.sort (listing.map g.directory) = order.map g.directory := by
  refine ⟨?_, ?_, ?_⟩
  · intro order horder
    have hover : (empty l whole vars : Assembly ω α).Over l vars whole := over_empty
    have hparts : ∀ x ∈ order.map part, x.1.FitsWords ∧ x.Fits l vars whole := by
      intro x hx
      obtain ⟨p, hp, rfl⟩ := List.mem_map.mp hx
      have hholds := (horder.mem_iff p).mp hp
      have hin := (hpart p hholds).1
      exact ⟨hin.fitsWords, hin.fitsIn hwhole, hfills p hholds⟩
    have hwords := fun x hx => (hparts x hx).1
    obtain ⟨asm, hrun⟩ := (hover.placeAll_ok_iff hwords).mpr fun x hx => (hparts x hx).2
    refine ⟨asm, hrun, (hover.placeAll hrun).shape_eq, ?_⟩
    intro slot hs i hi owner
    have hi' : ∀ a ∈ l.axes, i.get a < g.wholeExtent a := fun a ha => hwhole a ▸ hi a ha
    have hlast := ProcessorGrid.lastOwner_eq hn hpart horder hi'
    obtain ⟨hp, hpos⟩ := hpart _ (g.holds_ownerAt l i)
    have hwithin : owner.1.within i = g.localAt l i := ProcessorGrid.within_eq_localAt hp hpos
    have howns := (Part.lastOwner_mem hlast).2
    rw [get?_placeAll hover hwords hrun hs hi, hlast, ← hwithin]
    exact ⟨StoredAxes.inside_index.mpr ⟨hs, fun a ha => Dimensions.within_lt (howns a ha)⟩, rfl⟩
  · intro l i a ha hlast
    rw [ProcessorGrid.get_ownerAt ha] at hlast
    rw [ProcessorGrid.localAt, PerAxis.get_ofFn, ProcessorGrid.get_ownerAt ha]
    exact ProcessorGrid.sub_owner_mul_lt (hn a) hlast
  · intro listing h
    exact ⟨g.positions, g.ordered_positions, g.sort_directories h⟩

/-- A part of two neighbours that has its own place along x in all its cells. -/
def stripe (p : PerAxis Nat) : Part Float Float :=
  (⟨⟨3, 3, 3⟩, ⟨1, 1, 1⟩, 1, 0, .double, ⟨2, 1, 1⟩, p⟩,
    ⟨Array.replicate 27 (Float.ofNat p.x), 1, ⟨0, .uniform [0, 0, 0], .uniform 1, none⟩, .empty⟩)

/-- The neighbours write both inner cells, and each keeps its own. -/
theorem placeAll_owner_wins_neighbours :
    ∃ asm, (empty .full ⟨⟨4, 3, 3⟩, ⟨1, 1, 1⟩, 1, 0, .double, ⟨2, 1, 1⟩, ⟨0, 0, 0⟩⟩ 1).placeAll
        [stripe ⟨0, 0, 0⟩, stripe ⟨1, 0, 0⟩] = .ok asm ∧
      asm.f.get? [0, 0, 0, 1] = some (Float.ofNat 0) ∧
      asm.f.get? [0, 0, 0, 2] = some (Float.ofNat 1) := by
  have hmain := placeAll_owner_wins .neighbours (fun a => by cases a <;> decide) .full 1
    ⟨⟨4, 3, 3⟩, ⟨1, 1, 1⟩, 1, 0, .double, ⟨2, 1, 1⟩, ⟨0, 0, 0⟩⟩ (fun a => by cases a <;> rfl) stripe
    (fun p hp => ⟨⟨hp, fun a => by cases a <;> rfl, fun a => by cases a <;> rfl⟩, rfl⟩)
    (fun p _ => ⟨rfl, by simp [stripe, volume, StoredAxes.shape, StoredAxes.cellShape,
      StoredAxes.axes, Dimensions.extent, PerAxis.get]⟩)
  obtain ⟨asm, hrun, -, hcells⟩ := hmain.1 _ ProcessorGrid.neighbours.ordered_positions
  refine ⟨asm, hrun, ?_, ?_⟩
  · have hcell := (hcells 0 (by decide) ⟨1, 0, 0⟩ (fun a _ => by cases a <;> decide)).2
    exact hcell.trans rfl
  · have hcell := (hcells 0 (by decide) ⟨2, 0, 0⟩ (fun a _ => by cases a <;> decide)).2
    exact hcell.trans rfl

end Assembly

end GridSnapshot
