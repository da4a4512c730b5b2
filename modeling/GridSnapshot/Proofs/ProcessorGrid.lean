import GridSnapshot.Proofs.OwnedSpan

namespace GridSnapshot

/-- A grid of equal parts: the processors, and the interior cells and the margins of a part. The
extents of the whole are words. -/
structure ProcessorGrid where
  counts : PerAxis Nat
  interior : PerAxis Nat
  ghosts : PerAxis Nat
  counts_pos : ∀ a, 0 < counts.get a
  extent_lt : ∀ a, counts.get a * interior.get a + 2 * ghosts.get a < Word.count 8

namespace ProcessorGrid

/-- Two processors along x, each with one interior cell. -/
def neighbours : ProcessorGrid where
  counts := ⟨2, 1, 1⟩
  interior := ⟨1, 1, 1⟩
  ghosts := ⟨1, 1, 1⟩
  counts_pos a := by cases a <;> decide
  extent_lt a := by cases a <;> decide

/-- The position is that of a processor. -/
def Holds (g : ProcessorGrid) (p : PerAxis Nat) : Prop := ∀ a, p.get a < g.counts.get a

def wholeExtent (g : ProcessorGrid) (a : Axis) : Nat :=
  g.counts.get a * g.interior.get a + 2 * g.ghosts.get a

def IsWhole (g : ProcessorGrid) (d : Dimensions) : Prop := ∀ a, d.extent a = g.wholeExtent a

/-- The dimensions of a processor's part. -/
structure IsPart (g : ProcessorGrid) (d : Dimensions) : Prop where
  holds : g.Holds d.position
  ghost_eq : ∀ a, d.ghost a = g.ghosts.get a
  extent_eq : ∀ a, d.extent a = g.interior.get a + 2 * g.ghosts.get a

/-- The last processor along an axis that writes an index. -/
def owner (g : ProcessorGrid) (a : Axis) (i : Nat) : Nat :=
  min (g.counts.get a - 1) ((i - g.ghosts.get a) / g.interior.get a)

/-- The last processor that writes a cell; along an axis without cells it is the last of all. -/
def ownerAt (g : ProcessorGrid) (l : StoredAxes) (i : PerAxis Nat) : PerAxis Nat :=
  .ofFn fun a => if a ∈ l.axes then g.owner a (i.get a) else g.counts.get a - 1

/-- Where a cell lies in the part of its owner. -/
def localAt (g : ProcessorGrid) (l : StoredAxes) (i : PerAxis Nat) : PerAxis Nat :=
  .ofFn fun a => i.get a - (g.ownerAt l i).get a * g.interior.get a

variable {g : ProcessorGrid} {d whole : Dimensions} {a : Axis} {i : Nat}

theorem IsPart.base_eq (h : g.IsPart d) (a : Axis) :
    d.base a = d.position.get a * g.interior.get a := by
  rw [Dimensions.base, h.extent_eq, h.ghost_eq, Nat.add_sub_cancel]

theorem IsPart.base_add_extent_le (h : g.IsPart d) (a : Axis) :
    d.base a + d.extent a ≤ g.wholeExtent a := by
  have hmul : (d.position.get a + 1) * g.interior.get a ≤ g.counts.get a * g.interior.get a :=
    Nat.mul_le_mul_right _ (h.holds a)
  rw [Nat.add_mul, Nat.one_mul] at hmul
  rw [h.base_eq, h.extent_eq, wholeExtent]
  omega

theorem IsPart.fitsWords (h : g.IsPart d) : d.FitsWords := by
  intro a
  have hwhole := g.extent_lt a
  refine ⟨?_, Nat.lt_of_le_of_lt (h.base_add_extent_le a) hwhole⟩
  rw [h.ghost_eq]
  exact Nat.lt_of_le_of_lt (Nat.le_add_left _ _) hwhole

theorem IsPart.fitsIn (h : g.IsPart d) (hw : g.IsWhole whole) : d.FitsIn whole := by
  intro a
  refine ⟨by rw [h.ghost_eq, h.extent_eq]; omega, ?_⟩
  have hle := h.base_add_extent_le a
  rw [hw a, Dimensions.owned]
  split
  · simp only; omega
  · exact hle

theorem owner_lt (a : Axis) (i : Nat) : g.owner a i < g.counts.get a := by
  have hpos := g.counts_pos a
  unfold owner
  omega

theorem holds_zero (g : ProcessorGrid) : g.Holds (.uniform 0) := by
  intro a
  rw [PerAxis.get_uniform]
  exact g.counts_pos a

theorem holds_ownerAt (l : StoredAxes) (i : PerAxis Nat) : g.Holds (g.ownerAt l i) := by
  intro a
  have hpos := g.counts_pos a
  rw [ownerAt, PerAxis.get_ofFn]
  split
  · exact owner_lt a _
  · omega

theorem get_ownerAt {l : StoredAxes} (ha : a ∈ l.axes) (i : PerAxis Nat) :
    (g.ownerAt l i).get a = g.owner a (i.get a) := by
  rw [ownerAt, PerAxis.get_ofFn, if_pos ha]

theorem within_eq_localAt {l : StoredAxes} {i : PerAxis Nat} (h : g.IsPart d)
    (hp : d.position = g.ownerAt l i) : d.within i = g.localAt l i := by
  ext a
  rw [Dimensions.within, localAt, PerAxis.get_ofFn, PerAxis.get_ofFn, h.base_eq, hp]

theorem owner_mul_le (a : Axis) (i : Nat) :
    g.owner a i * g.interior.get a ≤ i - g.ghosts.get a :=
  calc
    g.owner a i * g.interior.get a
      ≤ (i - g.ghosts.get a) / g.interior.get a * g.interior.get a :=
        Nat.mul_le_mul_right _ (Nat.min_le_right _ _)
    _ ≤ i - g.ghosts.get a := Nat.div_mul_le_self _ _

theorem lt_owner_mul_add (hi : i < g.wholeExtent a) :
    i < g.owner a i * g.interior.get a + (g.interior.get a + 2 * g.ghosts.get a) := by
  have hpos := g.counts_pos a
  rw [wholeExtent] at hi
  rcases Nat.lt_or_ge ((i - g.ghosts.get a) / g.interior.get a) (g.counts.get a) with hq | hq
  · -- The quotient names a processor, or a part has no interior cells at all.
    have hc : g.owner a i = (i - g.ghosts.get a) / g.interior.get a := Nat.min_eq_right (by omega)
    rw [hc]
    rcases Nat.eq_zero_or_pos (g.interior.get a) with hn | hn
    · rw [hn, Nat.mul_zero] at hi ⊢
      omega
    · have hlt := Nat.lt_mul_div_succ (i - g.ghosts.get a) hn
      rw [Nat.mul_add, Nat.mul_one, Nat.mul_comm] at hlt
      omega
  · -- The index lies in the upper margin of the last processor.
    have hc : g.owner a i = g.counts.get a - 1 := Nat.min_eq_left (by omega)
    have hlast : (g.counts.get a - 1) * g.interior.get a + g.interior.get a =
        g.counts.get a * g.interior.get a := by
      rw [← Nat.succ_mul, Nat.succ_eq_add_one, Nat.sub_add_cancel hpos]
    rw [hc]
    omega

theorem contains_owner (h : g.IsPart d) (hp : d.position.get a = g.owner a i)
    (hi : i < g.wholeExtent a) : (d.owned a).Contains i := by
  have hlow := g.owner_mul_le a i
  rw [Dimensions.contains_owned_iff, h.base_eq, h.ghost_eq, h.extent_eq, hp]
  refine ⟨?_, lt_owner_mul_add hi⟩
  rcases Nat.lt_or_ge i (g.ghosts.get a) with hg | hg
  · left
    rw [owner, Nat.sub_eq_zero_of_le (Nat.le_of_lt hg), Nat.zero_div, Nat.min_zero]
  · right
    omega

/-- An index is in the upper margin of its owner only if that is the last processor. -/
theorem sub_owner_mul_lt (hn : 0 < g.interior.get a) (hlast : g.owner a i + 1 < g.counts.get a) :
    i - g.owner a i * g.interior.get a < g.interior.get a + g.ghosts.get a := by
  have hc : g.owner a i = (i - g.ghosts.get a) / g.interior.get a := by
    unfold owner at hlast ⊢
    omega
  have hlt := Nat.lt_mul_div_succ (i - g.ghosts.get a) hn
  rw [Nat.mul_add, Nat.mul_one, Nat.mul_comm] at hlt
  rw [hc]
  omega

/-- Whoever writes an index comes no later than its owner. -/
theorem le_owner (hn : 0 < g.interior.get a) (h : g.IsPart d) (hi : (d.owned a).Contains i) :
    d.position.get a ≤ g.owner a i := by
  have hlt := h.holds a
  rw [Dimensions.contains_owned_iff, h.base_eq, h.ghost_eq] at hi
  rcases hi.1 with hz | hle
  · omega
  · have hdiv : d.position.get a ≤ (i - g.ghosts.get a) / g.interior.get a := by
      rw [Nat.le_div_iff_mul_le hn]
      omega
    unfold owner
    omega

/-- Each processor comes once, and after all whose positions are nowhere greater than its own. -/
structure Ordered (g : ProcessorGrid) (order : List (PerAxis Nat)) : Prop where
  mem_iff : ∀ p, p ∈ order ↔ g.Holds p
  pairwise : order.Pairwise fun p q => ¬ ∀ a, q.get a ≤ p.get a

/-- Processors are numbered with x fastest. -/
def number (g : ProcessorGrid) (p : PerAxis Nat) : Nat :=
  p.x + g.counts.x * (p.y + g.counts.y * p.z)

def positions (g : ProcessorGrid) : List (PerAxis Nat) :=
  (List.range g.counts.z).flatMap fun z =>
    (List.range g.counts.y).flatMap fun y =>
      (List.range g.counts.x).map fun x => ⟨x, y, z⟩

theorem mem_positions {p : PerAxis Nat} : p ∈ g.positions ↔ g.Holds p := by
  simp only [positions, List.mem_flatMap, List.mem_map, List.mem_range]
  constructor
  · intro hex a
    obtain ⟨z, hz, y, hy, x, hx, rfl⟩ := hex
    cases a <;> assumption
  · intro h
    exact ⟨p.z, h .z, p.y, h .y, p.x, h .x, rfl⟩

theorem range_mul (m n : Nat) :
    (List.range n).flatMap (fun k => (List.range m).map fun j => j + m * k) =
      List.range (m * n) := by
  induction n with
  | zero => rfl
  | succ n ih =>
    rw [List.range_succ, List.flatMap_append, ih, Nat.mul_succ, List.range_add]
    simp [Nat.add_comm]

theorem map_number_positions (g : ProcessorGrid) :
    g.positions.map g.number = List.range (g.counts.x * (g.counts.y * g.counts.z)) := by
  have hrow (z : Nat) :
      ((List.range g.counts.y).flatMap fun y =>
        (List.range g.counts.x).map fun x => g.number ⟨x, y, z⟩) =
      ((List.range g.counts.y).map fun y => y + g.counts.y * z).flatMap fun k =>
        (List.range g.counts.x).map fun x => x + g.counts.x * k := by
    rw [List.flatMap_map]
    rfl
  simp only [positions, List.map_flatMap, List.map_map, Function.comp_def, hrow]
  rw [← List.flatMap_assoc, range_mul, range_mul]

theorem number_le_number {p q : PerAxis Nat} (h : ∀ a, p.get a ≤ q.get a) :
    g.number p ≤ g.number q := by
  have hx : p.x ≤ q.x := h .x
  have hy : p.y ≤ q.y := h .y
  have hz : p.z ≤ q.z := h .z
  exact Nat.add_le_add hx (Nat.mul_le_mul_left _ (Nat.add_le_add hy (Nat.mul_le_mul_left _ hz)))

theorem ordered_positions (g : ProcessorGrid) : g.Ordered g.positions where
  mem_iff _ := mem_positions
  pairwise := by
    have hlt : (g.positions.map g.number).Pairwise (· < ·) := by
      rw [map_number_positions]
      exact List.pairwise_lt_range
    refine (List.pairwise_map.mp hlt).imp fun hpq hle => ?_
    exact Nat.not_le.mpr hpq (number_le_number hle)

end ProcessorGrid

end GridSnapshot
