import GridSnapshot.Snapshot
import GridSnapshot.Proofs.Tables
import Mathlib.Data.List.Nodup
import Std.Data.String.ToNat

namespace GridSnapshot

namespace Text

variable {p cs : List Char} {name part : String}

theorem occursIn_iff : occursIn p cs = true ↔ p <:+: cs := by
  induction cs with
  | nil => rw [occursIn, List.isEmpty_iff, List.infix_nil]
  | cons c cs ih =>
    rw [occursIn, Bool.or_eq_true, List.isPrefixOf_iff_prefix, ih, List.infix_cons_iff]

theorem mentions_append (part rest : String) : mentions (part ++ rest) part = true := by
  rw [mentions, occursIn_iff, String.toList_append]
  exact (List.prefix_append _ _).isInfix

theorem mentions_eq_false {c : Char} (hpart : c ∈ part.toList) (hname : c ∉ name.toList) :
    mentions name part = false := by
  rw [Bool.eq_false_iff, Ne, mentions, occursIn_iff]
  exact fun h => hname (h.mem hpart)

end Text

namespace SlotIndex

/-- The groups count from one on, and the last one has zero. -/
def groupNumbers : Nat → List Nat
  | 0 => []
  | count + 1 => List.range' 1 count ++ [0]

theorem map_range_mod (count : Nat) :
    (List.range count).map (fun j => (j + 1) % count) = groupNumbers count := by
  cases count with
  | zero => rfl
  | succ count =>
    have hfirst : (List.range count).map (fun j => (j + 1) % (count + 1)) =
        List.range' 1 count := by
      rw [List.range'_eq_map_range]
      refine List.map_congr_left fun j hj => ?_
      rw [Nat.mod_eq_of_lt (Nat.succ_lt_succ (List.mem_range.mp hj)), Nat.add_comm]
    rw [List.range_succ, List.map_append, hfirst, List.map_singleton, Nat.mod_self, groupNumbers]

theorem nodup_groupNumbers (count : Nat) : (groupNumbers count).Nodup := by
  cases count with
  | zero => exact List.nodup_nil
  | succ count =>
    refine List.nodup_append.mpr ⟨List.nodup_range', List.nodup_singleton 0, ?_⟩
    intro n hn m hm
    rw [List.mem_range'_1] at hn
    rw [List.mem_singleton] at hm
    omega

/-- Numbers behind the same text make different names. -/
theorem nodup_map_append {ns : List Nat} (h : ns.Nodup) (stem : String) :
    (ns.map fun n => stem ++ toString n).Nodup :=
  h.map fun _ _ heq => Nat.repr_inj.mp ((String.append_right_inj _).mp heq)

variable {index : SlotIndex} {stem stem' : String} {g g' : VectorSlots}

theorem map_name_numberedGroups (index : SlotIndex) (stem : String) :
    (index.numberedGroups stem).map VectorSlots.name =
      (groupNumbers ((index.stemSlots stem).length / 3)).map fun n => stem ++ toString n := by
  rw [← map_range_mod, List.map_map, numberedGroups, List.map_map]
  rfl

theorem nodup_name_numberedGroups (index : SlotIndex) (stem : String) :
    ((index.numberedGroups stem).map VectorSlots.name).Nodup := by
  rw [map_name_numberedGroups]
  exact nodup_map_append (nodup_groupNumbers _) stem

theorem exists_name_of_mem (h : g ∈ index.numberedGroups stem) :
    ∃ n : Nat, g.name = stem ++ toString n := by
  obtain ⟨j, -, rfl⟩ := List.mem_map.mp h
  exact ⟨_, rfl⟩

theorem mentions_of_mem (h : g ∈ index.numberedGroups stem) :
    Text.mentions g.name stem = true := by
  obtain ⟨n, hn⟩ := exists_name_of_mem h
  rw [hn]
  exact Text.mentions_append stem _

/-- The two stems have a letter each that the other one has not, and no digit is a letter. -/
theorem not_mentions_of_mem (hstem : stem ∈ stems) (hstem' : stem' ∈ stems) (hne : stem' ≠ stem)
    (h : g ∈ index.numberedGroups stem') : Text.mentions g.name stem = false := by
  obtain ⟨n, hn⟩ := exists_name_of_mem h
  have hletter (c : Char) (hc : c.isDigit = false) (hmem : c ∉ stem'.toList) :
      c ∉ g.name.toList := by
    rw [hn, String.toList_append, List.mem_append, Nat.toString_eq_repr, Nat.toList_repr]
    rintro (hold | hdigit)
    · exact hmem hold
    · rw [Nat.isDigit_of_mem_toDigits (by decide) (by decide) hdigit] at hc
      cases hc
  simp only [stems, List.mem_cons, List.not_mem_nil, or_false] at hstem hstem'
  rcases hstem with rfl | rfl <;> rcases hstem' with rfl | rfl
  · exact absurd rfl hne
  · exact Text.mentions_eq_false (c := 'a') (by decide) (hletter 'a' rfl (by decide))
  · exact Text.mentions_eq_false (c := 'u') (by decide) (hletter 'u' rfl (by decide))
  · exact absurd rfl hne

theorem not_mentions_of_mem_fixedGroups (hstem : stem ∈ stems) (h : g ∈ index.fixedGroups) :
    Text.mentions g.name stem = false := by
  obtain ⟨v, hv, hvector⟩ := List.mem_filterMap.mp h
  have hname : g.name = v.1 := by
    unfold vector? at hvector
    split at hvector
    · cases hvector
      rfl
    · cases hvector
  have hfixed : ∀ v ∈ fixedVectors, ∀ stem ∈ stems, Text.mentions v.1 stem = false := by decide
  rw [hname]
  exact hfixed v hv stem hstem

/-- A group whose slots wrapped ends before it starts. -/
theorem not_isScalar_of_mem (h : g ∈ index.numberedGroups stem) : g.slots.length ≠ 1 := by
  obtain ⟨j, -, rfl⟩ := List.mem_map.mp h
  simp only [Span.length, Word.wrap, Word.count_eight]
  omega

theorem groupBase_pos (index : SlotIndex) (stem : String) : 0 < index.groupBase stem := by
  unfold groupBase
  split
  · exact Nat.succ_pos _
  · cases hmin : (index.stemSlots stem).min? with
    | none => exact Nat.one_pos
    | some slot =>
      obtain ⟨e, he, rfl⟩ := List.mem_map.mp (List.min?_mem hmin)
      exact (of_decide_eq_true (List.mem_filter.mp he).2).2

/-- The slots of the numbered groups of a stem are words. -/
def HasGroupRoom (index : SlotIndex) (stem : String) : Prop :=
  index.groupBase stem + 3 * ((index.stemSlots stem).length / 3) ≤ Word.count 8

instance (index : SlotIndex) (stem : String) : Decidable (index.HasGroupRoom stem) :=
  inferInstanceAs (Decidable (_ ≤ _))

/-- The slots of all vectors of an index are words. -/
structure HasRoom (index : SlotIndex) : Prop where
  fixed_lt : ∀ v ∈ fixedVectors, (index.get? v.2).getD 0 + 2 < Word.count 8
  numbered : ∀ stem ∈ stems, index.HasGroupRoom stem

instance (index : SlotIndex) : Decidable index.HasRoom :=
  decidable_of_iff (_ ∧ _) ⟨fun h => ⟨h.1, h.2⟩, fun h => ⟨h.fixed_lt, h.numbered⟩⟩

theorem slots_numberedGroups (h : index.HasGroupRoom stem) :
    (index.numberedGroups stem).map VectorSlots.slots =
      (List.range ((index.stemSlots stem).length / 3)).map fun j =>
        ⟨index.groupBase stem - 1 + 3 * j, index.groupBase stem - 1 + 3 * j + 3⟩ := by
  rw [numberedGroups, List.map_map]
  refine List.map_congr_left fun j hj => ?_
  have hcount := List.mem_range.mp hj
  have hpos := index.groupBase_pos stem
  rw [HasGroupRoom] at h
  have hfirst : index.groupBase stem - 1 + 3 * j < Word.count 8 := by omega
  have hstop : index.groupBase stem - 1 + 3 * j + 3 < Word.count 8 := by omega
  simp only [Function.comp_apply, Word.wrap_eq hfirst, Word.wrap_eq hstop]

theorem HasGroupRoom.stop_eq (h : index.HasGroupRoom stem) (hg : g ∈ index.numberedGroups stem) :
    g.slots.stop = g.slots.start + 3 := by
  have hmem := List.mem_map_of_mem (f := VectorSlots.slots) hg
  rw [slots_numberedGroups h] at hmem
  obtain ⟨j, -, heq⟩ := List.mem_map.mp hmem
  rw [← heq]

theorem HasRoom.stop_eq_of_mem_fixedGroups (h : index.HasRoom) (hg : g ∈ index.fixedGroups) :
    g.slots.stop = g.slots.start + 3 := by
  obtain ⟨v, hv, hvector⟩ := List.mem_filterMap.mp hg
  have hroom := h.fixed_lt v hv
  unfold vector? at hvector
  split at hvector
  · rename_i slot hslot
    rw [hslot, Option.getD_some] at hroom
    cases hvector
    exact Word.wrap_eq hroom
  · cases hvector

theorem mem_scalars_iff {e : String × Nat} : e ∈ index.scalars ↔ e ∈ index.entries ∧ 0 < e.2 ∧
    e.1 ∉ bookkeeping ∧ ∀ stem ∈ stems, Text.mentions e.1 stem = false := by
  simp only [scalars, List.mem_filter, decide_eq_true_eq, belongsToGroup, List.any_eq_true,
    not_exists, not_and, Bool.not_eq_true]

/-- The entries of a stem have `3 * count` slots in a row, listed in any order. The one that has the
number one, if there is such an entry, has the first slot. Slots are words. -/
structure Fills (index : SlotIndex) (stem : String) (first count : Nat) : Prop where
  first_pos : 0 < first
  slot_lt : ∀ slot ∈ index.stemSlots stem, slot < Word.count 8
  slots_perm : (index.stemSlots stem).Perm (List.range' first (3 * count))
  eq_first : ∀ slot, index.get? (stem ++ "1") = some slot → slot = first

namespace Fills

variable {first count : Nat}

theorem length_div_eq (h : index.Fills stem first count) :
    (index.stemSlots stem).length / 3 = count := by
  rw [h.slots_perm.length_eq, List.length_range', Nat.mul_div_cancel_left _ (by decide)]

theorem min?_stemSlots (h : index.Fills stem first count) (hcount : 0 < count) :
    (index.stemSlots stem).min? = some first := by
  rw [List.min?_eq_some_iff]
  constructor
  · rw [h.slots_perm.mem_iff, List.mem_range'_1]
    omega
  · intro slot hslot
    rw [h.slots_perm.mem_iff, List.mem_range'_1] at hslot
    exact hslot.1

theorem groupBase_eq (h : index.Fills stem first count) (hcount : 0 < count) :
    index.groupBase stem = first := by
  unfold groupBase
  split
  · rename_i slot hslot
    exact h.eq_first _ hslot
  · rw [h.min?_stemSlots hcount, Option.getD_some]

/-- The last slot is one of those that are listed. -/
theorem stop_le (h : index.Fills stem first count) (hcount : 0 < count) :
    first + 3 * count ≤ Word.count 8 := by
  have hlast : first + (3 * count - 1) ∈ index.stemSlots stem := by
    rw [h.slots_perm.mem_iff, List.mem_range'_1]
    omega
  have hlt := h.slot_lt _ hlast
  omega

theorem slots_eq (h : index.Fills stem first count) :
    (index.numberedGroups stem).map VectorSlots.slots =
      (List.range count).map fun j => ⟨first - 1 + 3 * j, first - 1 + 3 * j + 3⟩ := by
  rcases Nat.eq_zero_or_pos count with hzero | hcount
  · rw [numberedGroups, h.length_div_eq, hzero]
    rfl
  · have hroom := h.stop_le hcount
    rw [← h.groupBase_eq hcount, ← h.length_div_eq] at hroom
    rw [slots_numberedGroups hroom, h.length_div_eq, h.groupBase_eq hcount]

end Fills

/-- The groups of a stem as parts of a row of slots. -/
structure CutInto (index : SlotIndex) (stem : String) (first count : Nat) : Prop where
  names_eq : (index.numberedGroups stem).map VectorSlots.name =
    (groupNumbers count).map fun n => stem ++ toString n
  names_nodup : ((index.numberedGroups stem).map VectorSlots.name).Nodup
  slots_eq : (index.numberedGroups stem).map VectorSlots.slots =
    (List.range count).map fun j => ⟨first - 1 + 3 * j, first - 1 + 3 * j + 3⟩
  separate : (index.numberedGroups stem).Pairwise fun g g' => g.slots.stop ≤ g'.slots.start
  contains_iff : ∀ i, (∃ g ∈ index.numberedGroups stem, g.slots.Contains i) ↔
    first - 1 ≤ i ∧ i < first - 1 + 3 * count

theorem Fills.cutInto {first count : Nat} (h : index.Fills stem first count) :
    index.CutInto stem first count where
  names_eq := by rw [map_name_numberedGroups, h.length_div_eq]
  names_nodup := nodup_name_numberedGroups index stem
  slots_eq := h.slots_eq
  separate := by
    have hslots : ((index.numberedGroups stem).map VectorSlots.slots).Pairwise
        fun s s' => s.stop ≤ s'.start := by
      rw [h.slots_eq, List.pairwise_map]
      exact List.pairwise_lt_range.imp fun hlt => by dsimp only; omega
    exact List.pairwise_map.mp hslots
  contains_iff i := by
    have hmem : (∃ s ∈ (index.numberedGroups stem).map VectorSlots.slots, s.Contains i) ↔
        ∃ j < count, (⟨first - 1 + 3 * j, first - 1 + 3 * j + 3⟩ : Span).Contains i := by
      rw [h.slots_eq]
      simp only [List.mem_map, List.mem_range, exists_exists_and_eq_and]
    simp only [List.mem_map, exists_exists_and_eq_and] at hmem
    rw [hmem]
    constructor
    · rintro ⟨j, hj, hlow, hhigh⟩
      dsimp only at hlow hhigh
      omega
    · rintro ⟨hlow, hhigh⟩
      refine ⟨(i - (first - 1)) / 3, by omega, ?_, ?_⟩ <;> dsimp only <;> omega

end SlotIndex

namespace Snapshot

variable {ω α : Type} {c : SnapshotContent ω α} {stem name : String} {slots : Span}
  {g : VectorSlots}

theorem exists_of_get?_views (c : SnapshotContent ω α)
    (h : (ofContent c).views.get? name = some slots) :
    (∃ g ∈ c.metadata.index.fixedGroups ++ SlotIndex.stems.flatMap c.metadata.index.numberedGroups,
      g.slots.stop ≤ c.f.shape.headD 0 ∧ g.name = name ∧ g.slots = slots) ∨
    ∃ e ∈ c.metadata.index.scalars, e.2 ≤ c.f.shape.headD 0 ∧ e.1 = name ∧
      ⟨e.2 - 1, e.2⟩ = slots := by
  rcases Table.mem_of_get?_insertMany h with hvector | hget
  · obtain ⟨g, hg, heq⟩ := List.mem_map.mp hvector
    obtain ⟨hg, hstop⟩ := List.mem_filter.mp hg
    obtain ⟨hname, hslots⟩ := Prod.mk.inj heq
    exact .inl ⟨g, hg, of_decide_eq_true hstop, hname, hslots⟩
  · rcases Table.mem_of_get?_insertMany hget with hscalar | hnone
    · obtain ⟨e, he, heq⟩ := List.mem_map.mp hscalar
      obtain ⟨he, hstop⟩ := List.mem_filter.mp he
      obtain ⟨hname, hslots⟩ := Prod.mk.inj heq
      exact .inr ⟨e, he, of_decide_eq_true hstop, hname, hslots⟩
    · cases hnone

theorem mem_keys_views_of_mem (hg : g ∈ c.metadata.index.fixedGroups ++
      SlotIndex.stems.flatMap c.metadata.index.numberedGroups)
    (hstop : g.slots.stop ≤ c.f.shape.headD 0) : g.name ∈ (ofContent c).views.keys := by
  refine Table.mem_keys_insertMany_iff.mpr (.inr (List.mem_map.mpr ⟨(g.name, g.slots), ?_, rfl⟩))
  exact List.mem_map.mpr ⟨g, List.mem_filter.mpr ⟨hg, decide_eq_true hstop⟩, rfl⟩

/-- A name that mentions a stem is the name of a group, or it has no view. -/
theorem get?_views_iff_of_mentions (hstem : stem ∈ SlotIndex.stems)
    (hname : Text.mentions name stem = true) : (ofContent c).views.get? name = some slots ↔
      ∃ g ∈ c.metadata.index.numberedGroups stem, g.slots.stop ≤ c.f.shape.headD 0 ∧
        g.name = name ∧ g.slots = slots := by
  have hfound {slots : Span} (h : (ofContent c).views.get? name = some slots) :
      ∃ g ∈ c.metadata.index.numberedGroups stem, g.slots.stop ≤ c.f.shape.headD 0 ∧
        g.name = name ∧ g.slots = slots := by
    rcases exists_of_get?_views c h with ⟨g, hg, hstop, rfl, hslots⟩ | ⟨e, he, -, rfl, -⟩
    · rcases List.mem_append.mp hg with hfixed | hnumbered
      · rw [SlotIndex.not_mentions_of_mem_fixedGroups hstem hfixed] at hname
        cases hname
      · obtain ⟨stem', hstem', hg⟩ := List.mem_flatMap.mp hnumbered
        by_cases hne : stem' = stem
        · exact ⟨g, hne ▸ hg, hstop, rfl, hslots⟩
        · rw [SlotIndex.not_mentions_of_mem hstem hstem' hne hg] at hname
          cases hname
    · rw [(SlotIndex.mem_scalars_iff.mp he).2.2.2 stem hstem] at hname
      cases hname
  refine ⟨hfound, ?_⟩
  rintro ⟨g, hg, hstop, rfl, rfl⟩
  obtain ⟨slots, hget⟩ := Table.mem_keys_iff.mp (mem_keys_views_of_mem
    (List.mem_append_right _ (List.mem_flatMap.mpr ⟨stem, hstem, hg⟩)) hstop)
  obtain ⟨g', hg', -, heq, rfl⟩ := hfound hget
  rw [hget, List.inj_on_of_nodup_map (SlotIndex.nodup_name_numberedGroups _ _) hg' hg heq]

/-- A group has a view of its slots if the tensor holds all of them. -/
theorem get?_views_numberedGroup (hstem : stem ∈ SlotIndex.stems)
    (h : g ∈ c.metadata.index.numberedGroups stem) : (ofContent c).views.get? g.name =
      if g.slots.stop ≤ c.f.shape.headD 0 then some g.slots else none := by
  have hviews (slots : Span) : (ofContent c).views.get? g.name = some slots ↔ _ :=
    get?_views_iff_of_mentions hstem (SlotIndex.mentions_of_mem h)
  split
  · rename_i hstop
    exact (hviews _).mpr ⟨g, h, hstop, rfl, rfl⟩
  · rename_i hstop
    refine Option.eq_none_iff_forall_ne_some.mpr fun slots hget => ?_
    obtain ⟨g', hg', hstop', heq, -⟩ := (hviews slots).mp hget
    rw [List.inj_on_of_nodup_map (SlotIndex.nodup_name_numberedGroups _ _) hg' h heq] at hstop'
    exact hstop hstop'

/-- A field of its own has a view of its slot, or a vector of fixed name has taken the name. -/
theorem get?_views_scalar {e : String × Nat} (he : e ∈ c.metadata.index.scalars)
    (hstop : e.2 ≤ c.f.shape.headD 0) :
    (ofContent c).views.get? e.1 = some ⟨e.2 - 1, e.2⟩ ∨
      ∃ g ∈ c.metadata.index.fixedGroups, g.name = e.1 ∧ g.slots.stop ≤ c.f.shape.headD 0 ∧
        (ofContent c).views.get? e.1 = some g.slots := by
  obtain ⟨hentry, -, -, hmentions⟩ := SlotIndex.mem_scalars_iff.mp he
  have hkey : e.1 ∈ (ofContent c).views.keys := by
    refine Table.mem_keys_insertMany_iff.mpr (.inl (Table.mem_keys_insertMany_iff.mpr (.inr ?_)))
    refine List.mem_map.mpr ⟨(e.1, ⟨e.2 - 1, e.2⟩), ?_, rfl⟩
    exact List.mem_map.mpr ⟨e, List.mem_filter.mpr ⟨he, decide_eq_true hstop⟩, rfl⟩
  obtain ⟨slots, hget⟩ := Table.mem_keys_iff.mp hkey
  rcases exists_of_get?_views c hget with ⟨g, hg, hstop', hname, rfl⟩ | ⟨e', he', -, hname, rfl⟩
  · rcases List.mem_append.mp hg with hfixed | hnumbered
    · exact .inr ⟨g, hfixed, hname, hstop', hget⟩
    · obtain ⟨stem, hstem, hg⟩ := List.mem_flatMap.mp hnumbered
      have hname' := SlotIndex.mentions_of_mem hg
      rw [hname, hmentions stem hstem] at hname'
      cases hname'
  · have heq : e' = e := List.inj_on_of_nodup_map c.metadata.index.nodup
      (SlotIndex.mem_scalars_iff.mp he').1 hentry hname
    rw [hget, heq]
    exact .inl rfl

/-- The views of a snapshot, as far as the groups of a stem have to do with them. -/
structure ShowsGroups (s : Snapshot ω α) (stem : String) : Prop where
  /-- A group has a view of its slots if the tensor holds them. -/
  get?_group : ∀ g ∈ s.metadata.index.numberedGroups stem, s.views.get? g.name =
    if g.slots.stop ≤ s.f.shape.headD 0 then some g.slots else none
  /-- No other name that mentions the stem has a view. -/
  exists_group : ∀ name slots, Text.mentions name stem = true →
    s.views.get? name = some slots → ∃ g ∈ s.metadata.index.numberedGroups stem,
      g.slots.stop ≤ s.f.shape.headD 0 ∧ g.name = name ∧ g.slots = slots
  /-- The entries of the stem are no fields of their own. -/
  not_scalar : ∀ e ∈ s.metadata.index.entries, Text.mentions e.1 stem = true →
    ∀ slots, s.views.get? e.1 = some slots → isScalar slots = false
  /-- The entries of no stem are, unless a vector of fixed name has taken the name. -/
  get?_scalar : ∀ e ∈ s.metadata.index.entries,
    (∀ stem ∈ SlotIndex.stems, Text.mentions e.1 stem = false) → e.1 ∉ SlotIndex.bookkeeping →
    0 < e.2 → e.2 ≤ s.f.shape.headD 0 →
    s.views.get? e.1 = some ⟨e.2 - 1, e.2⟩ ∨
      ∃ g ∈ s.metadata.index.fixedGroups, g.name = e.1 ∧ g.slots.stop ≤ s.f.shape.headD 0 ∧
        s.views.get? e.1 = some g.slots

theorem showsGroups_ofContent (c : SnapshotContent ω α) (hstem : stem ∈ SlotIndex.stems) :
    (ofContent c).ShowsGroups stem where
  get?_group g hg := get?_views_numberedGroup hstem hg
  exists_group name slots hname h := (get?_views_iff_of_mentions hstem hname).mp h
  not_scalar e _ hname slots h := by
    obtain ⟨g, hg, -, -, rfl⟩ := (get?_views_iff_of_mentions hstem hname).mp h
    exact decide_eq_false (SlotIndex.not_isScalar_of_mem hg)
  get?_scalar e he hmentions hbook hpos hstop :=
    get?_views_scalar (SlotIndex.mem_scalars_iff.mpr ⟨he, hpos, hbook, hmentions⟩) hstop

/-- Entries that fill slots in a row, in any order and among any others, are cut into groups of
three, and every snapshot has views of those that its tensor holds, and of the other entries. -/
theorem numberedGroups_partition {index : SlotIndex} {first count : Nat}
    (hstem : stem ∈ SlotIndex.stems) (h : index.Fills stem first count) :
    index.CutInto stem first count ∧
      ∀ c : SnapshotContent ω α, c.metadata.index = index → (ofContent c).ShowsGroups stem :=
  ⟨h.cutInto, fun c _ => showsGroups_ofContent c hstem⟩

/-- Two groups that are listed in disorder between other entries, and a vector `uu` whose first
component is listed after a field of that name. The tensor does not hold the last slots. -/
def shuffledRun : SnapshotContent Float Float where
  f := .fill [6, 1, 1, 1] 0
  layout := .full
  coords := .uniform [0]
  time := 0
  spacing := .uniform 1
  shearOffset := none
  bounds := .uniform ⟨0, 1⟩
  metadata := {
    dims := ⟨.uniform 1, .uniform 0, 6, 3, .double, .uniform 1, .uniform 0⟩
    params := .standard
    index := .ofList [("lnrho", 1), ("aatest2z", 7), ("aatest1", 2), ("keys", 3), ("uu", 6),
      ("aatest1y", 3), ("aatest2x", 5), ("ss", 8), ("aatest1z", 4), ("ux", 4), ("aatest2y", 6),
      ("aatest", 0)] }
  persistence := .empty
  grid := none

/-- Of the two groups the first one has a view. The density has its own, the entropy has none, and
`uu` is the vector. -/
theorem numberedGroups_partition_shuffledRun :
    let index := shuffledRun.metadata.index
    let views := (ofContent shuffledRun).views
    index.Fills "aatest" 2 2 ∧
      index.numberedGroups "aatest" = [⟨"aatest1", ⟨1, 4⟩⟩, ⟨"aatest0", ⟨4, 7⟩⟩] ∧
      views.get? "aatest1" = some ⟨1, 4⟩ ∧ views.get? "aatest0" = none ∧
      views.get? "aatest2x" = none ∧ views.get? "lnrho" = some ⟨0, 1⟩ ∧
      views.get? "uu" = some ⟨3, 6⟩ := by
  intro index views
  have hfills : index.Fills "aatest" 2 2 := by
    refine ⟨by decide, by decide +kernel, by decide +kernel, fun slot hslot => ?_⟩
    have hfirst : index.get? ("aatest" ++ "1") = some 2 := by decide +kernel
    exact Option.some.inj (hslot.symm.trans hfirst)
  have hgroups : index.numberedGroups "aatest" = [⟨"aatest1", ⟨1, 4⟩⟩, ⟨"aatest0", ⟨4, 7⟩⟩] := by
    decide +kernel
  have hviews : (ofContent shuffledRun).ShowsGroups "aatest" :=
    (numberedGroups_partition (by decide) hfills).2 shuffledRun rfl
  have hfixed : index.fixedGroups = [⟨"uu", ⟨3, 6⟩⟩] := by decide +kernel
  refine ⟨hfills, hgroups, ?_, ?_, ?_, ?_, ?_⟩
  · exact hviews.get?_group ⟨"aatest1", ⟨1, 4⟩⟩ (hgroups ▸ List.mem_cons_self)
  · exact hviews.get?_group ⟨"aatest0", ⟨4, 7⟩⟩
      (hgroups ▸ List.mem_cons_of_mem _ List.mem_cons_self)
  · refine Option.eq_none_iff_forall_ne_some.mpr fun slots hget => ?_
    obtain ⟨g, hg, -, hname, -⟩ := hviews.exists_group "aatest2x" slots (by decide) hget
    have hnames : ∀ g ∈ index.numberedGroups "aatest", g.name ≠ "aatest2x" := by
      rw [hgroups]
      decide
    exact hnames g hg hname
  · refine (hviews.get?_scalar ("lnrho", 1) (by decide +kernel) (by decide) (by decide) (by decide)
      (by decide)).resolve_right ?_
    rintro ⟨g, hg, hname, -⟩
    have hnames : ∀ g ∈ index.fixedGroups, g.name ≠ "lnrho" := by
      rw [hfixed]
      decide
    exact hnames g hg hname
  · decide +kernel

end Snapshot

end GridSnapshot
