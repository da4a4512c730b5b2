import GridSnapshot.Proofs.PlacedRun
import GridSnapshot.Proofs.ProcessorGrid

namespace GridSnapshot

/-- The place in the whole array of an index inside a part. -/
def Dimensions.outward (d : Dimensions) (j : PerAxis Nat) : PerAxis Nat :=
  .ofFn fun a => d.base a + j.get a

namespace Part

variable {ω α : Type}

/-- A processor's part has the cells of `f` from its base on. -/
structure RestrictsCells (x : Part ω α) (g : ProcessorGrid) (l : StoredAxes) (vars : Nat)
    (f : List Nat → α) : Prop where
  isPart : g.IsPart x.1
  vars_eq : x.2.vars = vars
  cell_eq : ∀ slot < vars, ∀ j, (∀ a ∈ l.axes, j.get a < x.1.extent a) →
    x.2.at? (l.shape vars x.1) (l.index slot j) = some (f (l.index slot (x.1.outward j)))

/-- A processor's part has the cells of `f` and the coordinates of `c` from its base on. -/
structure Restricts (x : Part ω α) (g : ProcessorGrid) (l : StoredAxes) (vars : Nat)
    (f : List Nat → α) (c : Axis → Nat → ω) : Prop where
  isPart : g.IsPart x.1
  vars_eq : x.2.vars = vars
  cell_eq : ∀ slot < vars, ∀ j, (∀ a ∈ l.axes, j.get a < x.1.extent a) →
    x.2.at? (l.shape vars x.1) (l.index slot j) = some (f (l.index slot (x.1.outward j)))
  coord_eq : ∀ a, x.2.coords.coords.get a =
    (List.range (x.1.extent a)).map fun k => c a (x.1.base a + k)

variable {g : ProcessorGrid} {l : StoredAxes} {vars : Nat} {f : List Nat → α} {c : Axis → Nat → ω}
  {whole : Dimensions} {x : Part ω α}

theorem index_outward_within {slot : Nat} {i : PerAxis Nat} (h : x.Owns l.axes i) :
    l.index slot (x.1.outward (x.1.within i)) = l.index slot i := by
  rw [StoredAxes.index, StoredAxes.index, List.cons.injEq]
  refine ⟨rfl, List.map_congr_left fun a ha => ?_⟩
  have hbase := (Dimensions.sub_start_owned (h a ha)).2.1
  rw [Dimensions.outward, Dimensions.within, PerAxis.get_ofFn, PerAxis.get_ofFn]
  omega

namespace RestrictsCells

theorem at?_within (h : x.RestrictsCells g l vars f) {slot : Nat} (hs : slot < vars)
    {i : PerAxis Nat} (hown : x.Owns l.axes i) :
    x.2.at? (l.shape vars x.1) (l.index slot (x.1.within i)) = some (f (l.index slot i)) := by
  have hin : ∀ a ∈ l.axes, (x.1.within i).get a < x.1.extent a :=
    fun a ha => Dimensions.within_lt (hown a ha)
  rw [h.cell_eq slot hs _ hin, index_outward_within hown]

/-- There is a value for the last place of the part, so there are as many as it has cells. -/
theorem fills (h : x.RestrictsCells g l vars f) : x.2.Fills l vars x.1 where
  vars_eq := h.vars_eq
  size_ge := by
    refine Nat.le_of_not_lt fun hk => ?_
    have hin := Cell.inside_ofOffset hk
    obtain ⟨slot, j, hidx⟩ := StoredAxes.exists_index hin
    rw [hidx, StoredAxes.inside_index] at hin
    have hcell := h.cell_eq slot hin.1 j hin.2
    rw [← hidx, Block.at?, Cell.offset_ofOffset hk, Array.getElem?_eq_none (Nat.le_refl _)] at hcell
    cases hcell

theorem fits (h : x.RestrictsCells g l vars f) (hw : g.IsWhole whole) : x.Fits l vars whole :=
  ⟨h.isPart.fitsIn hw, h.fills⟩

end RestrictsCells

namespace Restricts

theorem cells (h : x.Restricts g l vars f c) : x.RestrictsCells g l vars f :=
  ⟨h.isPart, h.vars_eq, h.cell_eq⟩

theorem getElem?_coords (h : x.Restricts g l vars f c) {a : Axis} {k : Nat}
    (hown : (x.1.owned a).Contains k) :
    (x.2.coords.coords.get a)[k - x.1.base a]? = some (c a k) := by
  obtain ⟨-, hbase, hlt⟩ := Dimensions.sub_start_owned hown
  rw [h.coord_eq, List.getElem?_map, List.getElem?_range hlt, Option.map_some,
    Nat.add_sub_cancel' hbase]

theorem length_coords (h : x.Restricts g l vars f c) (a : Axis) :
    (x.2.coords.coords.get a).length = x.1.extent a := by
  rw [h.coord_eq, List.length_map, List.length_range]

end Restricts

end Part

namespace Assembly

variable {ω α : Type} [Zero α] [Narrowing ω α] {g : ProcessorGrid} {l : StoredAxes} {vars : Nat}
  {f : List Nat → α} {c : Axis → Nat → ω} {whole : Dimensions} {parts : List (Part ω α)}
  {asm : Assembly ω α}

def Complete (g : ProcessorGrid) (parts : List (Part ω α)) : Prop :=
  ∀ p, g.Holds p → ∃ x ∈ parts, x.1.position = p

omit [Zero α] [Narrowing ω α] in
theorem Complete.ne_nil (h : Complete g parts) : parts ≠ [] := by
  obtain ⟨x, hx, -⟩ := h _ g.holds_zero
  exact List.ne_nil_of_mem hx

omit [Zero α] [Narrowing ω α] in
/-- If one part completes the grid, then there is one processor along each axis. -/
theorem Complete.counts_eq_one {x : Part ω α} (h : Complete g [x]) (a : Axis) :
    g.counts.get a = 1 := by
  have hpos := g.counts_pos a
  obtain ⟨first, hfirst, hzero⟩ := h _ g.holds_zero
  obtain ⟨last, hlast, hmax⟩ := h (.ofFn fun b => g.counts.get b - 1) fun b => by
    rw [PerAxis.get_ofFn]
    exact Nat.sub_lt (g.counts_pos b) Nat.one_pos
  obtain rfl := List.mem_singleton.mp hfirst
  obtain rfl := List.mem_singleton.mp hlast
  have hsame := congrArg (fun p : PerAxis Nat => p.get a) (hmax.symm.trans hzero)
  simp only [PerAxis.get_ofFn, PerAxis.get_uniform] at hsame
  omega

theorem exists_placeAll_cells (hw : g.IsWhole whole)
    (hparts : ∀ x ∈ parts, x.RestrictsCells g l vars f) :
    ∃ asm, (empty l whole vars : Assembly ω α).placeAll parts = .ok asm :=
  (over_empty.placeAll_ok_iff fun x hx => (hparts x hx).isPart.fitsWords).mpr
    fun x hx => (hparts x hx).fits hw

theorem exists_placeAll (hw : g.IsWhole whole) (hparts : ∀ x ∈ parts, x.Restricts g l vars f c) :
    ∃ asm, (empty l whole vars : Assembly ω α).placeAll parts = .ok asm :=
  exists_placeAll_cells hw fun x hx => (hparts x hx).cells

/-- What was written is right. -/
theorem get?_eq_zero_or_eq (hparts : ∀ x ∈ parts, x.Restricts g l vars f c)
    (hrun : (empty l whole vars : Assembly ω α).placeAll parts = .ok asm) {idx : List Nat}
    (hin : Cell.Inside (l.shape vars whole) idx) :
    asm.f.get? idx = some 0 ∨ asm.f.get? idx = some (f idx) := by
  obtain ⟨slot, i, rfl⟩ := StoredAxes.exists_index hin
  obtain ⟨hs, hi⟩ := StoredAxes.inside_index.mp hin
  rw [get?_placeAll over_empty (fun x hx => (hparts x hx).isPart.fitsWords) hrun hs hi]
  cases hlast : Part.lastOwner l.axes i parts with
  | none =>
    left
    have hget : (empty l whole vars : Assembly ω α).f.get? (l.index slot i) = some 0 := by
      rw [Tensor.get?_eq_some hin, empty, Tensor.cell_fill_zero]
    exact hget
  | some x =>
    right
    obtain ⟨hx, hown⟩ := Part.lastOwner_mem hlast
    exact (hparts x hx).cells.at?_within hs hown

theorem getElem?_coords_eq_zero_or_eq (hparts : ∀ x ∈ parts, x.Restricts g l vars f c)
    (hrun : (empty l whole vars : Assembly ω α).placeAll parts = .ok asm) {a : Axis} {k : Nat}
    (hk : k < whole.extent a) :
    (asm.coords.get a)[k]? = some 0 ∨ (asm.coords.get a)[k]? = some (narrow (c a k)) := by
  have hlen : ∀ x ∈ parts, (x.2.coords.coords.get a).length = x.1.extent a :=
    fun x hx => (hparts x hx).length_coords a
  rw [getElem?_coords_placeAll over_empty (fun x hx => (hparts x hx).isPart.fitsWords) hrun hlen
    hk]
  cases hlast : Part.lastOwner [a] (.uniform k) parts with
  | none =>
    left
    simp only [empty, PerAxis.get_map]
    exact List.getElem?_replicate_of_lt hk
  | some x =>
    right
    obtain ⟨hx, hown⟩ := Part.lastOwner_mem hlast
    simp only [(hparts x hx).getElem?_coords (Part.owns_singleton_iff.mp hown), Option.map_some]

/-- Each cell is written by its owner at least. -/
theorem get?_of_complete (hw : g.IsWhole whole)
    (hparts : ∀ x ∈ parts, x.RestrictsCells g l vars f) (hall : Complete g parts)
    (hrun : (empty l whole vars : Assembly ω α).placeAll parts = .ok asm) {idx : List Nat}
    (hin : Cell.Inside (l.shape vars whole) idx) : asm.f.get? idx = some (f idx) := by
  obtain ⟨slot, i, rfl⟩ := StoredAxes.exists_index hin
  obtain ⟨hs, hi⟩ := StoredAxes.inside_index.mp hin
  rw [get?_placeAll over_empty (fun x hx => (hparts x hx).isPart.fitsWords) hrun hs hi]
  cases hlast : Part.lastOwner l.axes i parts with
  | none =>
    -- The owner's part was placed, so it cannot be that nobody owns the cell.
    obtain ⟨x, hx, hpos⟩ := hall _ (g.holds_ownerAt l i)
    refine absurd ?_ (Part.lastOwner_eq_none_iff.mp hlast x hx)
    intro a ha
    refine ProcessorGrid.contains_owner (hparts x hx).isPart ?_ (hw a ▸ hi a ha)
    rw [hpos, ProcessorGrid.get_ownerAt ha]
  | some x =>
    obtain ⟨hx, hown⟩ := Part.lastOwner_mem hlast
    exact (hparts x hx).at?_within hs hown

theorem getElem?_coords_of_complete (hw : g.IsWhole whole)
    (hparts : ∀ x ∈ parts, x.Restricts g l vars f c) (hall : Complete g parts)
    (hrun : (empty l whole vars : Assembly ω α).placeAll parts = .ok asm) {a : Axis} {k : Nat}
    (hk : k < whole.extent a) : (asm.coords.get a)[k]? = some (narrow (c a k)) := by
  have hlen : ∀ x ∈ parts, (x.2.coords.coords.get a).length = x.1.extent a :=
    fun x hx => (hparts x hx).length_coords a
  rw [getElem?_coords_placeAll over_empty (fun x hx => (hparts x hx).isPart.fitsWords) hrun hlen
    hk]
  cases hlast : Part.lastOwner [a] (.uniform k) parts with
  | none =>
    obtain ⟨x, hx, hpos⟩ := hall _ fun b =>
      ProcessorGrid.holds_ownerAt (g := g) .full (.uniform k) b
    refine absurd ?_ (Part.lastOwner_eq_none_iff.mp hlast x hx)
    intro b hb
    obtain rfl := List.mem_singleton.mp hb
    have hb : b ∈ StoredAxes.full.axes := by cases b <;> decide
    refine ProcessorGrid.contains_owner (hparts x hx).isPart ?_ ?_
    · rw [hpos, ProcessorGrid.get_ownerAt hb]
    · rw [PerAxis.get_uniform, ← hw b]
      exact hk
  | some x =>
    obtain ⟨hx, hown⟩ := Part.lastOwner_mem hlast
    simp only [(hparts x hx).getElem?_coords (Part.owns_singleton_iff.mp hown), Option.map_some]

theorem f_of_complete_cells (hw : g.IsWhole whole)
    (hparts : ∀ x ∈ parts, x.RestrictsCells g l vars f) (hall : Complete g parts)
    (hrun : (empty l whole vars : Assembly ω α).placeAll parts = .ok asm) :
    asm.f = .ofFn (l.shape vars whole) f := by
  have hshape : asm.f.shape = l.shape vars whole := (over_empty.placeAll hrun).shape_eq
  refine Tensor.ext_get? hshape fun idx hin => ?_
  rw [hshape] at hin
  rw [get?_of_complete hw hparts hall hrun hin, Tensor.get?_ofFn, if_pos hin]

theorem f_of_complete (hw : g.IsWhole whole) (hparts : ∀ x ∈ parts, x.Restricts g l vars f c)
    (hall : Complete g parts)
    (hrun : (empty l whole vars : Assembly ω α).placeAll parts = .ok asm) :
    asm.f = .ofFn (l.shape vars whole) f :=
  f_of_complete_cells hw (fun x hx => (hparts x hx).cells) hall hrun

theorem coords_of_complete (hw : g.IsWhole whole) (hparts : ∀ x ∈ parts, x.Restricts g l vars f c)
    (hall : Complete g parts)
    (hrun : (empty l whole vars : Assembly ω α).placeAll parts = .ok asm) :
    asm.coords = .ofFn fun a => (List.range (whole.extent a)).map fun k => narrow (c a k) := by
  ext a : 1
  rw [PerAxis.get_ofFn]
  apply List.ext_getElem?
  intro k
  have hlen : (asm.coords.get a).length = whole.extent a := (over_empty.placeAll hrun).length_eq a
  rcases Nat.lt_or_ge k (whole.extent a) with hk | hk
  · rw [getElem?_coords_of_complete hw hparts hall hrun hk, List.getElem?_map,
      List.getElem?_range hk, Option.map_some]
  · rw [List.getElem?_eq_none (hlen ▸ hk), List.getElem?_eq_none (by simpa using hk)]

/-- Restrictions of one function can be placed in any order and any number of times. What was
written is right at any time, and nothing is left out once every processor's part was placed. -/
theorem placeAll_restrictions (g : ProcessorGrid) (l : StoredAxes) (vars : Nat) (whole : Dimensions)
    (hw : g.IsWhole whole) (f : List Nat → α) (c : Axis → Nat → ω) :
    (∀ parts : List (Part ω α), (∀ x ∈ parts, x.Restricts g l vars f c) →
      ∃ asm, (empty l whole vars).placeAll parts = .ok asm ∧
        asm.f.shape = l.shape vars whole ∧
        (∀ a, (asm.coords.get a).length = whole.extent a) ∧
        (∀ idx, Cell.Inside (l.shape vars whole) idx →
          asm.f.get? idx = some 0 ∨ asm.f.get? idx = some (f idx)) ∧
        (∀ a, ∀ k < whole.extent a,
          (asm.coords.get a)[k]? = some 0 ∨ (asm.coords.get a)[k]? = some (narrow (c a k))) ∧
        (Complete g parts →
          asm.f = .ofFn (l.shape vars whole) f ∧
          asm.coords =
            .ofFn fun a => (List.range (whole.extent a)).map fun k => narrow (c a k))) ∧
    ∀ parts parts' : List (Part ω α),
      (∀ x ∈ parts, x.Restricts g l vars f c) → (∀ x ∈ parts', x.Restricts g l vars f c) →
      Complete g parts → Complete g parts' → ∀ asm asm' : Assembly ω α,
        (empty l whole vars).placeAll parts = .ok asm →
        (empty l whole vars).placeAll parts' = .ok asm' →
        asm.f = asm'.f ∧ asm.coords = asm'.coords := by
  constructor
  · intro parts hparts
    obtain ⟨asm, hrun⟩ := exists_placeAll hw hparts
    have hover := over_empty.placeAll hrun
    exact ⟨asm, hrun, hover.shape_eq, hover.length_eq,
      fun idx hin => get?_eq_zero_or_eq hparts hrun hin,
      fun a k hk => getElem?_coords_eq_zero_or_eq hparts hrun hk,
      fun hall => ⟨f_of_complete hw hparts hall hrun, coords_of_complete hw hparts hall hrun⟩⟩
  · intro parts parts' hparts hparts' hall hall' asm asm' hrun hrun'
    constructor
    · rw [f_of_complete hw hparts hall hrun, f_of_complete hw hparts' hall' hrun']
    · rw [coords_of_complete hw hparts hall hrun, coords_of_complete hw hparts' hall' hrun']

/-- A part of two neighbours whose cells and coordinates are their places along x. -/
def slope (p : PerAxis Nat) : Part Float Float :=
  (⟨⟨3, 3, 3⟩, ⟨1, 1, 1⟩, 1, 0, .double, ⟨2, 1, 1⟩, p⟩,
    ⟨Array.ofFn fun k : Fin 27 => Float.ofNat (p.x + k % 3), 1,
      ⟨0, .ofFn fun a => (List.range 3).map fun k => Float.ofNat (p.get a * 1 + k), .uniform 1,
        none⟩, .empty⟩)

theorem restricts_slope {p : PerAxis Nat} (hp : ProcessorGrid.neighbours.Holds p) :
    (slope p).Restricts .neighbours .full 1 (fun idx => Float.ofNat (idx.getD 3 0))
      fun _ k => Float.ofNat k where
  isPart := ⟨hp, fun a => by cases a <;> rfl, fun a => by cases a <;> rfl⟩
  vars_eq := rfl
  cell_eq slot hs j hj := by
    have hx : j.x < 3 := hj .x (by decide)
    have hy : j.y < 3 := hj .y (by decide)
    have hz : j.z < 3 := hj .z (by decide)
    have hoffset : Cell.offset (StoredAxes.full.shape 1 (slope p).1)
        (StoredAxes.full.index slot j) = slot * 27 + (j.z * 9 + (j.y * 3 + j.x)) := by
      simp [Cell.offset, StoredAxes.index, StoredAxes.shape, StoredAxes.cellShape, StoredAxes.axes,
        volume, Dimensions.extent, PerAxis.get, slope]
    have hlt : slot * 27 + (j.z * 9 + (j.y * 3 + j.x)) < 27 := by omega
    have hmod : (slot * 27 + (j.z * 9 + (j.y * 3 + j.x))) % 3 = j.x := by omega
    have hout : (StoredAxes.full.index slot ((slope p).1.outward j)).getD 3 0 = p.x * 1 + j.x := rfl
    rw [hout, Block.at?, hoffset, slope, Array.getElem?_ofFn, dif_pos hlt, Nat.mul_one]
    simp only [hmod]
  coord_eq a := by cases a <;> rfl

/-- The second neighbour is placed before the first, and once more after it. -/
theorem placeAll_restrictions_neighbours :
    ∃ asm, (empty .full ⟨⟨4, 3, 3⟩, ⟨1, 1, 1⟩, 1, 0, .double, ⟨2, 1, 1⟩, ⟨0, 0, 0⟩⟩ 1).placeAll
        [slope ⟨1, 0, 0⟩, slope ⟨0, 0, 0⟩, slope ⟨1, 0, 0⟩] = .ok asm ∧
      asm.f = .ofFn [1, 3, 3, 4] fun idx => (Float.ofNat (idx.getD 3 0) : Float) := by
  have hmain := (placeAll_restrictions (ω := Float) (α := Float) .neighbours .full 1
    ⟨⟨4, 3, 3⟩, ⟨1, 1, 1⟩, 1, 0, .double, ⟨2, 1, 1⟩, ⟨0, 0, 0⟩⟩ (fun a => by cases a <;> rfl)
    (fun idx => Float.ofNat (idx.getD 3 0)) fun _ k => Float.ofNat k).1
  obtain ⟨asm, hrun, -, -, -, -, hall⟩ :=
    hmain [slope ⟨1, 0, 0⟩, slope ⟨0, 0, 0⟩, slope ⟨1, 0, 0⟩] (by
      intro x hx
      simp only [List.mem_cons, List.not_mem_nil, or_false] at hx
      rcases hx with rfl | rfl | rfl <;> exact restricts_slope fun a => by cases a <;> decide)
  refine ⟨asm, hrun, (hall ?_).1⟩
  intro p hp
  have hx : p.x < 2 := hp .x
  have hy : p.y < 1 := hp .y
  have hz : p.z < 1 := hp .z
  obtain ⟨x, y, z⟩ := p
  obtain rfl : y = 0 := Nat.lt_one_iff.mp hy
  obtain rfl : z = 0 := Nat.lt_one_iff.mp hz
  refine ⟨slope ⟨x, 0, 0⟩, ?_, rfl⟩
  obtain rfl | rfl : x = 0 ∨ x = 1 := by
    simp only at hx
    omega
  · simp
  · simp

end Assembly

end GridSnapshot
