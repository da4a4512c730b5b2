import GridSnapshot.Assembly

namespace GridSnapshot

namespace Dimensions

variable {d whole : Dimensions} {a : Axis} {i : Nat}

/-- Where a part starts in the whole array, its lower margin included. -/
def base (d : Dimensions) (a : Axis) : Nat := d.position.get a * (d.extent a - 2 * d.ghost a)

/-- What a part writes along an axis. -/
def owned (d : Dimensions) (a : Axis) : Span :=
  if d.position.get a = 0 then ⟨0, d.extent a⟩
  else ⟨d.base a + d.ghost a, d.base a + d.extent a⟩

/-- The place of an index of the whole array inside a part. -/
def within (d : Dimensions) (i : PerAxis Nat) : PerAxis Nat := .ofFn fun a => i.get a - d.base a

/-- How many cells of a part's lower margin are left out. -/
def skipped (d : Dimensions) (a : Axis) : Nat := if d.position.get a = 0 then 0 else d.ghost a

/-- A part has room for its margins along each axis and ends inside the whole array. -/
def FitsIn (d whole : Dimensions) : Prop :=
  ∀ a, 2 * d.ghost a ≤ d.extent a ∧ (d.owned a).stop ≤ whole.extent a

/-- Where the part ends in the whole array is a word, and so are the cells of both margins. What is
computed with them does not wrap then. -/
def FitsWords (d : Dimensions) : Prop :=
  ∀ a, 2 * d.ghost a < Word.count 8 ∧ d.base a + d.extent a < Word.count 8

theorem base_eq_zero (h : d.position.get a = 0) : d.base a = 0 := by
  rw [base, h, Nat.zero_mul]

theorem contains_owned_iff :
    (d.owned a).Contains i ↔
      (d.position.get a = 0 ∨ d.base a + d.ghost a ≤ i) ∧ i < d.base a + d.extent a := by
  unfold owned
  by_cases hp : d.position.get a = 0
  · simp [hp, Span.Contains, base_eq_zero]
  · simp [hp, Span.Contains]

theorem sub_start_owned (h : (d.owned a).Contains i) :
    i - (d.owned a).start + d.skipped a = i - d.base a ∧
      d.base a ≤ i ∧ i - d.base a < d.extent a := by
  unfold owned skipped at *
  by_cases hp : d.position.get a = 0
  · simp only [hp, if_true, Span.Contains, base_eq_zero hp] at h ⊢
    omega
  · simp only [hp, if_false, Span.Contains] at h ⊢
    omega

theorem within_lt {j : PerAxis Nat} (h : (d.owned a).Contains (j.get a)) :
    (d.within j).get a < d.extent a := by
  rw [within, PerAxis.get_ofFn]
  exact (sub_start_owned h).2.2

def placed (d : Dimensions) : PerAxis Placement :=
  .ofFn fun a => ⟨d.owned a, ⟨d.skipped a, d.extent a⟩⟩

theorem along_eq (hw : d.FitsWords) (h : 2 * d.ghost a ≤ d.extent a) :
    Placement.along? (d.position.get a) (d.ghost a) (d.extent a) = some (d.placed.get a) := by
  obtain ⟨hmargins, hend⟩ := hw a
  have hfits : ¬ d.extent a < 2 * d.ghost a := Nat.not_lt.mpr h
  have hghost : d.base a + d.ghost a < Word.count 8 := by omega
  have hbase : d.position.get a * (d.extent a - 2 * d.ghost a) < Word.count 8 :=
    Nat.lt_of_le_of_lt (Nat.le_add_right _ _) hend
  rw [Placement.along?, Word.wrap_eq hmargins, if_neg hfits, placed, PerAxis.get_ofFn, owned,
    skipped]
  by_cases hp : d.position.get a = 0
  · simp only [hp, if_true]
  · simp only [hp, if_false, Word.wrap_eq hbase]
    rw [← base, Word.wrap_eq hghost, Word.wrap_eq hend]

theorem along_eq_none (hw : d.FitsWords) (h : d.extent a < 2 * d.ghost a) :
    Placement.along? (d.position.get a) (d.ghost a) (d.extent a) = none := by
  rw [Placement.along?, Word.wrap_eq (hw a).1, if_pos h]

theorem forward_placed (h : 2 * d.ghost a ≤ d.extent a) : (d.placed.get a).Forward := by
  rw [placed, PerAxis.get_ofFn, Placement.Forward, owned, skipped]
  by_cases hp : d.position.get a = 0
  · simp only [hp, if_true]
    omega
  · simp only [hp, if_false]
    omega

end Dimensions

namespace Assembly

variable {whole part : Dimensions}

theorem placeAlong_eq_ok_iff (hw : part.FitsWords) {a : Axis} {p : Placement} :
    placeAlong whole part a = .ok p ↔
      (2 * part.ghost a ≤ part.extent a ∧ (part.owned a).stop ≤ whole.extent a) ∧
        p = part.placed.get a := by
  unfold placeAlong
  by_cases hfits : 2 * part.ghost a ≤ part.extent a
  · rw [Dimensions.along_eq hw hfits]
    simp only [Dimensions.placed, PerAxis.get_ofFn]
    split
    · simp only [reduceCtorEq, false_iff]
      omega
    · simp only [Except.ok.injEq]
      constructor
      · intro heq
        subst heq
        exact ⟨⟨hfits, by omega⟩, rfl⟩
      · intro hboth
        obtain ⟨-, rfl⟩ := hboth
        rfl
  · rw [Dimensions.along_eq_none hw (Nat.lt_of_not_le hfits)]
    simp only [reduceCtorEq, hfits, false_and]

theorem placements_eq_ok_iff (hw : part.FitsWords) {p : PerAxis Placement} :
    placements whole part = .ok p ↔ part.FitsIn whole ∧ p = part.placed := by
  constructor
  · intro h
    simp only [placements, bind, Except.bind] at h
    split at h
    · cases h
    · rename_i x hx
      split at h
      · cases h
      · rename_i y hy
        split at h
        · cases h
        · rename_i z hz
          obtain ⟨fx, rfl⟩ := (placeAlong_eq_ok_iff hw).mp hx
          obtain ⟨fy, rfl⟩ := (placeAlong_eq_ok_iff hw).mp hy
          obtain ⟨fz, rfl⟩ := (placeAlong_eq_ok_iff hw).mp hz
          cases h
          exact ⟨fun a => by cases a <;> assumption, rfl⟩
  · intro hboth
    obtain ⟨hfits, rfl⟩ := hboth
    have ok (a : Axis) : placeAlong whole part a = .ok (part.placed.get a) :=
      (placeAlong_eq_ok_iff hw).mpr ⟨hfits a, rfl⟩
    simp only [placements, ok, bind, Except.bind]
    rfl

end Assembly

end GridSnapshot
