import GridSnapshot.Proofs.ReadExtents
import GridSnapshot.Proofs.Tables

namespace GridSnapshot

open Outcome

namespace Container

variable {ω : Type} {c : Container ω} {group entry name : String}

theorem afterHead?_eq_some_iff {head chars rest : List Char} :
    afterHead? head chars = some rest ↔ chars = head ++ rest := by
  induction head generalizing chars with
  | nil => exact Option.some_inj
  | cons a head ih =>
    cases chars with
    | nil => exact ⟨nofun, nofun⟩
    | cons b chars =>
      rw [afterHead?, List.cons_append, List.cons.injEq]
      by_cases h : a = b
      · rw [if_pos h, ih]
        exact ⟨fun htail => ⟨h.symm, htail⟩, fun hboth => hboth.2⟩
      · rw [if_neg h]
        exact ⟨nofun, fun hboth => absurd hboth.1.symm h⟩

theorem nameUnder?_eq_some_iff :
    nameUnder? group entry = some name ↔ entry = group ++ "/" ++ name ∧ '/' ∉ name.toList := by
  have hentry (rest : List Char) : entry.toList = (group ++ "/").toList ++ rest ↔
      entry = group ++ "/" ++ String.ofList rest := by
    simp only [← String.toList_inj, String.toList_append, String.toList_ofList]
  unfold nameUnder?
  constructor
  · intro h
    split at h
    · rename_i rest hafter
      split at h
      · cases h
      · rename_i hslash
        cases h
        rw [String.toList_ofList]
        exact ⟨(hentry rest).mp (afterHead?_eq_some_iff.mp hafter), hslash⟩
    · cases h
  · rintro ⟨hname, hslash⟩
    have hafter : afterHead? (group ++ "/").toList entry.toList = some name.toList := by
      rw [afterHead?_eq_some_iff, hentry, String.ofList_toList]
      exact hname
    rw [hafter]
    simp only [if_neg hslash, String.ofList_toList]

/-- The names that are listed are those of entries, without further slashes. -/
theorem mem_names {names : List String} (h : c.names group = .ok names) :
    name ∈ names ↔ group ++ "/" ++ name ∈ c.keys ∧ '/' ∉ name.toList := by
  have hmem : name ∈ c.keys.filterMap (nameUnder? group) ↔
      group ++ "/" ++ name ∈ c.keys ∧ '/' ∉ name.toList := by
    rw [List.mem_filterMap]
    constructor
    · rintro ⟨entry, hentry, hunder⟩
      obtain ⟨rfl, hslash⟩ := nameUnder?_eq_some_iff.mp hunder
      exact ⟨hentry, hslash⟩
    · rintro ⟨hentry, hslash⟩
      exact ⟨_, hentry, nameUnder?_eq_some_iff.mpr ⟨rfl, hslash⟩⟩
  unfold Container.names at h
  split at h
  · cases h
  · cases h
    exact hmem

/-- A group with an entry is listed. -/
theorem exists_names (h : group ++ "/" ++ name ∈ c.keys) (hslash : '/' ∉ name.toList) :
    ∃ names, c.names group = .ok names := by
  have hmem : name ∈ c.keys.filterMap (nameUnder? group) :=
    List.mem_filterMap.mpr ⟨_, h, nameUnder?_eq_some_iff.mpr ⟨rfl, hslash⟩⟩
  unfold Container.names
  split
  · rename_i hnone
    rw [hnone] at hmem
    cases hmem
  · exact ⟨_, rfl⟩

theorem exists_read_iff : (∃ t, c.read entry = .ok t) ↔ entry ∈ c.keys := by
  rw [Table.mem_keys_iff]
  unfold read
  cases c.get? entry with
  | none => exact ⟨nofun, nofun⟩
  | some t => exact ⟨fun _ => ⟨t, rfl⟩, fun _ => ⟨t, rfl⟩⟩

end Container

namespace ReadPlan

variable {α : Type}

/-- The persistent values of a container can always be read: those that are listed are there. -/
theorem exists_containerPersistence (c : Container Float) :
    ∃ values, containerPersistence c = .ok values := by
  have hall (names : List String) (hnames : ∀ name ∈ names, ("persist/" ++ name) ∈ c.keys)
      (start : Persistence Float) : ∃ values, names.foldlM (fun values name => do
        let t ← c.read ("persist/" ++ name)
        .ok (values.insert name (.reals t.cells.toList))) start =
          (.ok values : Except ContainerFault (Persistence Float)) := by
    induction names generalizing start with
    | nil => exact ⟨start, rfl⟩
    | cons name names ih =>
      obtain ⟨hname, hrest⟩ := List.forall_mem_cons.mp hnames
      obtain ⟨t, ht⟩ := Container.exists_read_iff.mpr hname
      obtain ⟨values, hvalues⟩ := ih hrest (start.insert name (.reals t.cells.toList))
      refine ⟨values, ?_⟩
      rw [List.foldlM_cons, ht]
      exact hvalues
  unfold containerPersistence
  cases hnames : c.names "persist" with
  | error e =>
    have hmissing : e = .missing "persist" := by
      unfold Container.names at hnames
      split at hnames
      · cases hnames
        rfl
      · cases hnames
    subst hmissing
    exact ⟨.empty, rfl⟩
  | ok names => exact hall names (fun name hname => ((Container.mem_names hnames).mp hname).1) _

theorem datasetSlot?_eq_some_iff {index : SlotIndex} {vars slot : Nat} {name : String} :
    datasetSlot? index vars name = some slot ↔ index.get? name = some (slot + 1) ∧ slot < vars := by
  unfold datasetSlot?
  split
  · rename_i s hs
    rw [hs, Option.some.injEq]
    split
    · rename_i hlt
      rw [Option.some.injEq]
      constructor
      · rintro rfl
        exact ⟨rfl, hlt⟩
      · rintro ⟨hsucc, -⟩
        omega
    · rename_i hge
      constructor
      · intro hnone
        cases hnone
      · rintro ⟨hsucc, hlt⟩
        omega
  · rename_i hnone
    constructor
    · intro hslot
      cases hslot
    · rintro ⟨hsome, -⟩
      exact absurd hsome (hnone slot)

/-- A place in row-major order lies in one slot exactly if its slot is that one. -/
theorem place_in_slot_iff {slot s k n : Nat} (hk : k < n) :
    slot * n ≤ s * n + k ∧ s * n + k < (slot + 1) * n ↔ s = slot := by
  have hplace := Cell.place_mem_iff (i := s) hk ⟨slot, slot + 1⟩
  rw [hplace]
  constructor
  · rintro ⟨hle, hlt⟩
    exact Nat.le_antisymm (Nat.le_of_lt_succ hlt) hle
  · rintro rfl
    exact ⟨Nat.le_refl _, Nat.lt_succ_self _⟩

variable [Zero α]

theorem getElem?_setSlot {f t : Tensor α} (slot : Nat) {s k : Nat} (hk : k < volume t.shape)
    (hplace : s * volume t.shape + k < f.cells.size) :
    (setSlot f slot t).cells[s * volume t.shape + k]? =
      if s = slot then t.cells[k]? else f.cells[s * volume t.shape + k]? := by
  have hcell : t.cells[k]? = some (t.cells.getD k 0) := by
    have hsize : k < t.cells.size := by rw [t.size_cells]; exact hk
    simp [hsize]
  unfold setSlot Tensor.mapPlaces
  rw [Array.getElem?_mapIdx, Array.getElem?_eq_getElem hplace, Option.map_some]
  simp only [place_in_slot_iff hk]
  by_cases h : s = slot
  · subst h
    rw [if_pos rfl, if_pos rfl, Nat.add_sub_cancel_left, hcell]
  · rw [if_neg h, if_neg h]

variable [Narrowing Float α] {plan : ReadPlan Float} {p : Path} {c : Container Float}

/-- The slot holds the numbers of a dataset, as elements. -/
def HoldsSlot (f : Tensor α) (slot : Nat) (t : Tensor Float) : Prop :=
  ∀ k < volume t.shape,
    f.cells[slot * volume t.shape + k]? = (t.map (narrow : Float → α)).cells[k]?

theorem place_lt {slot vars k n : Nat} (hslot : slot < vars) (hk : k < n) :
    slot * n + k < vars * n := by
  have hle : (slot + 1) * n ≤ vars * n := Nat.mul_le_mul_right n hslot
  rw [Nat.succ_mul] at hle
  omega

theorem holdsSlot_setSlot {f : Tensor α} {slot vars : Nat} {t : Tensor Float}
    (hf : f.cells.size = vars * volume t.shape) (hslot : slot < vars) :
    HoldsSlot (setSlot f slot (t.map narrow)) slot t := by
  intro k hk
  have hplace : slot * volume t.shape + k < f.cells.size := hf ▸ place_lt hslot hk
  have hset := getElem?_setSlot (t := t.map (narrow : Float → α)) slot hk hplace
  rw [if_pos rfl] at hset
  exact hset

/-- Writing a slot keeps the others. -/
theorem HoldsSlot.setSlot {f : Tensor α} {s slot vars : Nat} {t t' : Tensor Float}
    (h : HoldsSlot f s t) (hf : f.cells.size = vars * volume t.shape) (hs : s < vars)
    (hshape : t'.shape = t.shape) (hne : s ≠ slot) :
    HoldsSlot (setSlot f slot (t'.map narrow)) s t := by
  intro k hk
  have hplace : s * volume t.shape + k < f.cells.size := hf ▸ place_lt hs hk
  have hvolume : volume (t'.map (narrow : Float → α)).shape = volume t.shape :=
    congrArg volume hshape
  have hset := getElem?_setSlot (f := f) (t := t'.map (narrow : Float → α)) (s := s) slot
    (hvolume ▸ hk) (hvolume.symm ▸ hplace)
  rw [if_neg hne, hvolume] at hset
  rw [hset]
  exact h k hk

/-- Once a dataset is written, its slot holds it, and the other slots hold what they held. -/
theorem holdsSlot_write {cells : Nat → Tensor Float} {f : Tensor α} {slot written vars : Nat}
    (hf : f.cells.size = vars * volume (cells slot).shape) (hlt : slot < vars)
    (hshape : (cells written).shape = (cells slot).shape)
    (h : slot = written ∨ HoldsSlot f slot (cells slot)) :
    HoldsSlot (setSlot f written ((cells written).map narrow)) slot (cells slot) := by
  by_cases heq : slot = written
  · subst heq
    exact holdsSlot_setSlot hf hlt
  · exact (h.resolve_left heq).setSlot hf hlt hshape heq

/-- All listed datasets that have a slot are copied there; slots that held theirs still do. -/
theorem exists_fillSlots {cells : Nat → Tensor Float} {names : List String} {f : Tensor α}
    (hread : ∀ name ∈ names, ∀ slot,
      datasetSlot? plan.metadata.index plan.metadata.slotCount name = some slot →
        c.read ("data/" ++ name) = .ok (cells slot))
    (hshape : ∀ slot < plan.metadata.slotCount,
      (cells slot).shape = plan.layout.cellShape plan.metadata.dims)
    (hf : f.shape = plan.layout.shape plan.metadata.slotCount plan.metadata.dims) :
    ∃ f', plan.fillSlots p c false names f = .ok f' ∧ f'.shape = f.shape ∧
      ∀ slot < plan.metadata.slotCount,
        (HoldsSlot f slot (cells slot) ∨ ∃ name ∈ names,
          datasetSlot? plan.metadata.index plan.metadata.slotCount name = some slot) →
        HoldsSlot f' slot (cells slot) := by
  induction names generalizing f with
  | nil =>
    refine ⟨f, rfl, rfl, fun slot _ hslot => hslot.elim id ?_⟩
    rintro ⟨name, hname, -⟩
    cases hname
  | cons name names ih =>
    obtain ⟨hfirst, hrest⟩ := List.forall_mem_cons.mp hread
    unfold fillSlots
    simp only [Bool.false_eq_true, if_false]
    cases hdataset : datasetSlot? plan.metadata.index plan.metadata.slotCount name with
    | none =>
      obtain ⟨f', hfill, hsame, hholds⟩ := ih hrest hf
      refine ⟨f', hfill, hsame, fun slot hlt hslot => hholds slot hlt ?_⟩
      rcases hslot with hslot | ⟨name', hname', hslot⟩
      · exact .inl hslot
      · rcases List.mem_cons.mp hname' with rfl | hname'
        · cases hdataset.symm.trans hslot
        · exact .inr ⟨name', hname', hslot⟩
    | some written =>
      have hlt := (datasetSlot?_eq_some_iff.mp hdataset).2
      have hwrite (slot : Nat) (h : slot < plan.metadata.slotCount)
          (hslot : slot = written ∨ HoldsSlot f slot (cells slot)) :
          HoldsSlot (setSlot f written ((cells written).map narrow)) slot (cells slot) := by
        have hsize : f.cells.size = plan.metadata.slotCount * volume (cells slot).shape := by
          rw [f.size_cells, hf, hshape slot h]
          rfl
        exact holdsSlot_write hsize h ((hshape written hlt).trans (hshape slot h).symm) hslot
      obtain ⟨f', hfill, hsame, hholds⟩ :=
        ih (f := ReadPlan.setSlot f written ((cells written).map narrow)) hrest hf
      refine ⟨f', ?_, hsame, fun slot hslt hslot => hholds slot hslt ?_⟩
      · rw [hfirst written hdataset]
        simp only [Except.mapError, bind, Except.bind, hshape written hlt, ne_eq, not_true_eq_false,
          if_false]
        exact hfill
      · rcases hslot with hslot | ⟨name', hname', hslot⟩
        · exact .inl (hwrite slot hslt (.inr hslot))
        · rcases List.mem_cons.mp hname' with rfl | hname'
          · exact .inl (hwrite slot hslt (.inl (Option.some.inj (hslot.symm.trans hdataset))))
          · exact .inr ⟨name', hname', hslot⟩

end ReadPlan

end GridSnapshot
