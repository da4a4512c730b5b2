import GridSnapshot.Proofs.DerivationReport
import GridSnapshot.Proofs.SnapshotEdits
import Mathlib.Data.List.Nodup

namespace GridSnapshot

open GridSnapshot.Derivation

def Outcome.IsSuccess : Outcome → Prop
  | failed _ => False
  | _ => True

namespace Snapshot

variable {ω α : Type} {s s' : Snapshot ω α} {name : String}

section Changes

variable {t : Tensor α} {arrays : List (String × Tensor α)} {noted : String}
  {e : DerivationFault}

theorem has_addAll_iff : (s.addAll arrays).has name = true ↔
    s.has name = true ∨ name ∈ arrays.map Prod.fst := by
  have hkeys : name ∈ (s.derived.insertMany arrays).keys ↔
      name ∈ s.derived.keys ∨ name ∈ arrays.map Prod.fst := Table.mem_keys_insertMany_iff
  rw [has, has, Bool.or_eq_true, Bool.or_eq_true, or_assoc, Table.contains_iff (t := s.derived),
    ← hkeys, ← Table.contains_iff]
  rfl

theorem get?_failures_addAll : (s.addAll arrays).failures.get? name =
    if name ∈ arrays.map Prod.fst then none else s.failures.get? name := by
  have hget := Table.get?_filter (fun name => name ∉ arrays.map Prod.fst) s.failures name
  by_cases hname : name ∈ arrays.map Prod.fst
  · rw [if_pos hname]
    rw [if_neg (by simpa using hname)] at hget
    exact hget
  · rw [if_neg hname]
    rw [if_pos (by simpa using hname)] at hget
    exact hget

theorem addDerived_eq_addAll (h : s.addDerived name t = .ok s') : s' = s.addAll [(name, t)] := by
  obtain ⟨-, rfl⟩ := addDerived_eq_ok_iff.mp h
  rw [addAll_cons, addAll_nil]

/-- What is there is not noted as failed. -/
def Truthful (s : Snapshot ω α) (name : String) : Prop :=
  s.has name = true → s.failures.get? name = none

theorem Truthful.addAll (h : s.Truthful name) (arrays : List (String × Tensor α)) :
    (s.addAll arrays).Truthful name := by
  intro hhas
  rw [get?_failures_addAll]
  split
  · rfl
  · rename_i hname
    apply h
    exact (has_addAll_iff.mp hhas).resolve_right hname

theorem Truthful.noteFailure (h : s.Truthful name) (hnoted : name = noted → s.has name = false) :
    (s.noteFailure noted e).Truthful name := by
  intro hhas
  have hbefore : s.has name = true := hhas
  have hne : name ≠ noted := by
    intro heq
    rw [hnoted heq] at hbefore
    cases hbefore
  rw [Snapshot.noteFailure, Table.get?_insert_of_ne hne]
  exact h hbefore

theorem truthful_ofContent (c : SnapshotContent ω α) (name : String) :
    (ofContent c).Truthful name := fun _ => rfl

end Changes

end Snapshot

namespace Derivation

section Effects

variable {ω α : Type} {s : Snapshot ω α} {q : DerivedQuantity} {name : String}
  {arrays : List (String × Tensor α)} {r : Snapshot ω α × Outcome}

/-- Arrays are stored up to the first that does not fit. -/
theorem exists_store (s : Snapshot ω α) (arrays : List (String × Tensor α)) :
    ∃ taken, taken <+: arrays ∧ (store s arrays).1 = s.addAll taken ∧
      ((store s arrays).2 = none ↔ taken = arrays) := by
  induction arrays generalizing s with
  | nil =>
    have hnone := Snapshot.addAll_nil s
    exact ⟨[], List.prefix_refl _, hnone.symm, iff_of_true rfl rfl⟩
  | cons array arrays ih =>
    obtain ⟨name, t⟩ := array
    rw [store]
    cases hadd : s.addDerived name t with
    | error e =>
      have hnone := Snapshot.addAll_nil s
      have hpartial : ([] : List (String × Tensor α)) ≠ (name, t) :: arrays :=
        (List.cons_ne_nil _ _).symm
      exact ⟨[], List.nil_prefix, hnone.symm, iff_of_false (Option.some_ne_none e) hpartial⟩
    | ok s' =>
      obtain ⟨taken, hfront, htaken, hall⟩ := ih s'
      obtain ⟨-, rfl⟩ := Snapshot.addDerived_eq_ok_iff.mp hadd
      refine ⟨(name, t) :: taken, List.cons_prefix_cons.mpr ⟨rfl, hfront⟩, ?_, ?_⟩
      · rw [Snapshot.addAll_cons]
        exact htaken
      · rw [List.cons_inj_right]
        exact hall

theorem names_of_map {x : Except DerivationFault (Tensor α)}
    (h : (fun t => [(q.tag, t)]) <$> x = .ok arrays) : arrays.map Prod.fst = [q.tag] := by
  cases x with
  | error e => cases h
  | ok t =>
    cases h
    rfl

/-- What one request makes of a snapshot, whether or not its arrays fit. -/
inductive Effect (s : Snapshot ω α) (q : DerivedQuantity) : Snapshot ω α × Outcome → Prop where
  | present : (q ≠ .bbtest → s.has q.tag = true) → Effect s q (s, .alreadyPresent)
  | computed {arrays : List (String × Tensor α)} :
      (∀ name ∈ arrays.map Prod.fst, name ∈ q.outputs s.metadata.index) →
      (q ≠ .bbtest → q.tag ∈ arrays.map Prod.fst) →
      Effect s q (s.addAll arrays, .computed (arrays.map Prod.fst))
  | failed {taken : List (String × Tensor α)} {e : DerivationFault} :
      (q ≠ .bbtest → taken = [] ∧ s.has q.tag = false) →
      Effect s q ((s.addAll taken).noteFailure q.tag e, .failed e)

namespace Effect

theorem truthful (h : Effect s q r) (hs : s.Truthful name) (hname : name ≠ "bbtest") :
    r.1.Truthful name := by
  cases h with
  | present _ => exact hs
  | computed _ _ => exact hs.addAll _
  | failed hnew =>
    apply (hs.addAll _).noteFailure
    intro htag
    have hq : q ≠ .bbtest := by
      intro hq
      subst hq
      exact hname htag
    obtain ⟨rfl, hhas⟩ := hnew hq
    rw [Snapshot.addAll_nil, htag]
    exact hhas

theorem has_tag (h : Effect s q r) (hq : q ≠ .bbtest) (hsuccess : r.2.IsSuccess) :
    r.1.has q.tag = true := by
  cases h with
  | present hhas => exact hhas hq
  | computed _ hmem => exact Snapshot.has_addAll_iff.mpr (.inr (hmem hq))
  | failed _ => exact absurd hsuccess id

theorem has_of_has (h : Effect s q r) (hhas : s.has name = true) : r.1.has name = true := by
  cases h with
  | present _ => exact hhas
  | computed _ _ => exact Snapshot.has_addAll_iff.mpr (.inl hhas)
  | failed _ => exact Snapshot.has_addAll_iff.mpr (.inl hhas)

/-- The numbered fields do not have the name under which their failure is noted. -/
theorem get?_failures_bbtest (h : Effect s q r) (hsuccess : q = .bbtest → r.2.IsSuccess) :
    r.1.failures.get? "bbtest" = s.failures.get? "bbtest" := by
  cases h with
  | present _ => rfl
  | computed hnames _ =>
    rw [Snapshot.get?_failures_addAll, if_neg]
    intro hmem
    have houtput : DerivedQuantity.bbtest.tag ∈ q.outputs s.metadata.index := hnames _ hmem
    have hq := DerivedQuantity.eq_of_tag_mem_outputs houtput
    subst hq
    exact DerivedQuantity.not_mem_outputs_bbtest (by decide) houtput
  | failed hnew =>
    have hq : q ≠ .bbtest := hsuccess
    obtain ⟨rfl, -⟩ := hnew hq
    have htag : DerivedQuantity.bbtest.tag ≠ q.tag := fun heq => hq (tag_injective heq).symm
    rw [Snapshot.addAll_nil]
    exact Table.get?_insert_of_ne htag

end Effect

end Effects

section Requests

variable {ω α : Type} [RealOps ω] [RealOps α] [Narrowing ω α] {op : CurlScheme ω α}
  {s : Snapshot ω α} {q : DerivedQuantity} {qs : List DerivedQuantity} {name : String}
  {arrays : List (String × Tensor α)} {r : Snapshot ω α × Outcome}

/-- An attempt gives arrays under the names of the field. -/
theorem names_of_attempt (h : attempt op s q = .ok arrays) :
    (q ≠ .bbtest → arrays.map Prod.fst = [q.tag]) ∧
    ∀ name ∈ arrays.map Prod.fst, name ∈ q.outputs s.metadata.index := by
  have hcompute := compute_of_attempt h
  by_cases hq : q = .bbtest
  · subst hq
    refine ⟨fun habsurd => absurd rfl habsurd, ?_⟩
    rw [attempt_bbtest (hasGroups_of_attempt h)] at h
    intro name hname
    rw [names_magneticFields h, ← outputs_eq_map] at hname
    exact (List.mem_filter.mp hname).1
  · have hnames : arrays.map Prod.fst = [q.tag] := by
      cases q with
      | bbtest => exact absurd rfl hq
      | bb | jj | vort =>
        obtain ⟨v, -, hv⟩ := Outcome.bind_eq_ok_iff.mp hcompute
        exact names_of_map hv
      | rho | tt | ss | pp => exact names_of_map hcompute
    refine ⟨fun _ => hnames, ?_⟩
    rw [hnames, DerivedQuantity.outputs_of_ne hq]
    intro name hname
    exact hname

/-- The arrays of an attempt are stored, or the request fails at the first that does not fit. -/
theorem effect_store (hattempt : attempt op s q = .ok arrays)
    (hnew : q ≠ .bbtest → s.has q.tag = false) :
    Effect s q (match store s arrays with
      | (s, none) => (s, .computed (arrays.map Prod.fst))
      | (s, some e) => fail s q e) := by
  obtain ⟨hone, hnames⟩ := names_of_attempt hattempt
  obtain ⟨taken, hfront, htaken, hall⟩ := exists_store s arrays
  generalize store s arrays = stored at htaken hall
  obtain ⟨s', failure⟩ := stored
  obtain rfl : s' = s.addAll taken := htaken
  cases failure with
  | none =>
    obtain rfl := hall.mp rfl
    refine .computed hnames fun hq => ?_
    rw [hone hq]
    exact List.mem_singleton_self _
  | some e =>
    refine .failed fun hq => ⟨?_, hnew hq⟩
    -- Of a single array nothing is stored unless all is.
    have hone := congrArg List.length (hone hq)
    have hle := hfront.length_le
    have hne : taken.length ≠ arrays.length := by
      intro heq
      have hstored := hall.mpr (hfront.eq_of_length heq)
      cases hstored
    apply List.eq_nil_of_length_eq_zero
    rw [List.length_map, List.length_singleton] at hone
    omega

theorem effect_derive (op : CurlScheme ω α) (s : Snapshot ω α) (q : DerivedQuantity) :
    Effect s q (derive op s q) := by
  by_cases hhas : q ≠ .bbtest ∧ s.has q.tag = true
  · rw [derive, if_pos hhas]
    exact .present fun _ => hhas.2
  · have hnew (hq : q ≠ .bbtest) : s.has q.tag = false := by
      simpa [hq] using hhas
    rw [derive, if_neg hhas]
    cases hattempt : attempt op s q with
    | error e =>
      have hfailed : Effect s q ((s.addAll []).noteFailure q.tag e, .failed e) :=
        .failed fun hq => ⟨rfl, hnew hq⟩
      rw [Snapshot.addAll_nil] at hfailed
      exact hfailed
    | ok arrays =>
      cases arrays with
      | nil =>
        refine .present fun hq => ?_
        have hempty := (names_of_attempt hattempt).1 hq
        cases hempty
      | cons array arrays => exact effect_store hattempt hnew

theorem has_deriveEach (qs : List DerivedQuantity) (h : s.has name = true) :
    (deriveEach op qs s).1.has name = true := by
  induction qs generalizing s with
  | nil => exact h
  | cons q qs ih => exact ih ((effect_derive op s q).has_of_has h)

theorem truthful_deriveEach (qs : List DerivedQuantity) (h : s.Truthful name)
    (hname : name ≠ "bbtest") : (deriveEach op qs s).1.Truthful name := by
  induction qs generalizing s with
  | nil => exact h
  | cons q qs ih => exact ih ((effect_derive op s q).truthful h hname)

theorem has_tag_deriveEach {outcome : Outcome} (hq : q ≠ .bbtest)
    (hmem : (q, outcome) ∈ (deriveEach op qs s).2) (hsuccess : outcome.IsSuccess) :
    (deriveEach op qs s).1.has q.tag = true := by
  induction qs generalizing s with
  | nil => exact absurd hmem List.not_mem_nil
  | cons q' qs ih =>
    rw [deriveEach_cons] at hmem ⊢
    rcases List.mem_cons.mp hmem with heq | hmem
    · obtain ⟨rfl, rfl⟩ := Prod.mk.inj heq
      exact has_deriveEach qs ((effect_derive op s q).has_tag hq hsuccess)
    · exact ih hmem

theorem get?_failures_deriveEach
    (h : ∀ outcome, (.bbtest, outcome) ∈ (deriveEach op qs s).2 → outcome.IsSuccess) :
    (deriveEach op qs s).1.failures.get? "bbtest" = s.failures.get? "bbtest" := by
  induction qs generalizing s with
  | nil => rfl
  | cons q qs ih =>
    rw [deriveEach_cons] at h ⊢
    have hfirst : q = .bbtest → (derive op s q).2.IsSuccess := by
      intro hq
      subst hq
      exact h _ List.mem_cons_self
    have hrest := ih fun outcome hmem => h outcome (List.mem_cons_of_mem _ hmem)
    exact hrest.trans ((effect_derive op s q).get?_failures_bbtest hfirst)

theorem isSuccess_of_log {outcome : Outcome} (hqs : qs.Nodup)
    (hmem : (q, outcome) ∈ (deriveEach op qs s).2) (hsuccess : outcome.IsSuccess) :
    ∀ outcome', (q, outcome') ∈ (deriveEach op qs s).2 → outcome'.IsSuccess := by
  intro outcome' hmem'
  rw [← keys_deriveEach op qs s] at hqs
  have hsame := List.inj_on_of_nodup_map hqs hmem' hmem rfl
  cases hsame
  exact hsuccess

end Requests

end Derivation

namespace Snapshot

section Edits

variable {ω α : Type} [RealOps ω] [RealOps α] [Narrowing ω α] {s s' : Snapshot ω α}
  {name : String} {edits : List (Edit ω α)}

/-- Failures that are noted by other means than requests. -/
def Edit.IsNote : Edit ω α → Prop
  | noteFailure _ _ => True
  | _ => False

/-- The names that are there, and those that failed, are the same. -/
structure SameRecords (s' s : Snapshot ω α) : Prop where
  has_eq : ∀ name, s'.has name = s.has name
  failures_eq : s'.failures = s.failures

omit [RealOps ω] [RealOps α] [Narrowing ω α] in
theorem sameRecords_of_mapField? {written : String} {g : Nat → α → α}
    (h : s.mapField? written g = some s') : s'.SameRecords s := by
  obtain ⟨slots, -, rfl⟩ := Option.map_eq_some_iff.mp h
  exact ⟨fun _ => rfl, rfl⟩

omit [RealOps ω] [RealOps α] [Narrowing ω α] in
/-- Storing another array under a name that is there. -/
theorem has_insertDerived {stored : String} {t : Tensor α} (h : s.has stored = true) :
    ({ s with derived := s.derived.insert stored t } : Snapshot ω α).has name = s.has name := by
  rw [has, Bool.or_eq_true] at h
  rw [has, has, Bool.eq_iff_iff, Bool.or_eq_true, Bool.or_eq_true, Table.contains_insert_iff]
  constructor
  · rintro (hview | rfl | hderived)
    · exact .inl hview
    · exact h
    · exact .inr hderived
  · exact Or.imp_right .inr

omit [RealOps ω] [Narrowing ω α] in
/-- A trim leaves all names there, also where it stops. -/
theorem sameRecords_trimming (s : Snapshot ω α) : (trimming.run.run s).2.SameRecords s := by
  apply trimming_preserves (P := fun u => u.SameRecords s)
  · exact fun u t h => ⟨h.has_eq, h.failures_eq⟩
  · intro u e he t h
    have hstored : u.has e.1 = true := by
      rw [h.has_eq, has, Bool.or_eq_true]
      exact .inr (Table.contains_iff.mpr (List.mem_map_of_mem he))
    exact ⟨fun name => (has_insertDerived hstored).trans (h.has_eq name), h.failures_eq⟩
  · exact fun u coords h => ⟨h.has_eq, h.failures_eq⟩
  · exact fun u h => ⟨h.has_eq, h.failures_eq⟩
  · exact ⟨fun _ => rfl, rfl⟩

section Preserved

variable {P : Snapshot ω α → Prop}
  (hadd : ∀ s arrays, P s → P (s.addAll arrays))
  (hsame : ∀ s s', s'.SameRecords s → P s → P s')
  (hderive : ∀ s op fields, P s → P (s.derive op fields).1)

include hadd hsame hderive

/-- What storing arrays and requests keep is kept by every change but notes. -/
theorem edit_preserves {e : Edit ω α} (he : ¬ e.IsNote) (h : P s) : P (s.edit e) := by
  cases e with
  | addDerived name t =>
    cases hstored : s.addDerived name t with
    | error e =>
      rw [edit_addDerived_of_error hstored]
      exact h
    | ok s' =>
      rw [edit_addDerived_of_ok hstored]
      obtain rfl := addDerived_eq_addAll hstored
      exact hadd _ _ h
  | noteFailure name e => exact absurd trivial he
  | write name g =>
    exact keeps_writing (fun _ _ hwritten => hsame _ _ (sameRecords_of_mapField? hwritten)) s h
  | derive op fields => exact hderive _ _ _ h
  | trim => exact hsame _ _ (sameRecords_trimming s) h

theorem editAll_preserves (hedits : ∀ e ∈ edits, ¬ e.IsNote) (h : P s) :
    P (s.editAll edits) := by
  induction edits generalizing s with
  | nil => exact h
  | cons e edits ih =>
    obtain ⟨hfirst, hrest⟩ := List.forall_mem_cons.mp hedits
    exact ih hrest (edit_preserves hadd hsame hderive hfirst h)

end Preserved

theorem has_editAll (hedits : ∀ e ∈ edits, ¬ e.IsNote) (h : s.has name = true) :
    (s.editAll edits).has name = true := by
  apply editAll_preserves (P := fun s => s.has name = true) _ _ _ hedits h
  · intro s arrays hhas
    exact has_addAll_iff.mpr (.inl hhas)
  · intro s s' hsame hhas
    rw [hsame.has_eq]
    exact hhas
  · intro s op fields hhas
    rw [derive_eq_deriveEach]
    exact has_deriveEach _ hhas

theorem Truthful.editAll (h : s.Truthful name) (hname : name ≠ "bbtest")
    (hedits : ∀ e ∈ edits, ¬ e.IsNote) : (s.editAll edits).Truthful name := by
  apply editAll_preserves (P := fun s => s.Truthful name) _ _ _ hedits h
  · intro s arrays htruthful
    exact htruthful.addAll arrays
  · intro s s' hsame htruthful
    rw [Truthful, hsame.has_eq, hsame.failures_eq]
    exact htruthful
  · intro s op fields htruthful
    rw [derive_eq_deriveEach]
    exact truthful_deriveEach _ htruthful hname

/-- A field that was derived, or was there, is not noted as failed from then on, and the success of
a numbered field leaves what is noted of it. -/
theorem failures_of_success (c : SnapshotContent ω α) (edits : List (Edit ω α))
    (hedits : ∀ e ∈ edits, ¬ e.IsNote) (op : CurlScheme ω α) (fields : List DerivedQuantity)
    (q : DerivedQuantity) (outcome : Outcome) (hsuccess : outcome.IsSuccess) :
    let before := (ofContent c).editAll edits
    let after := (before.derive op fields).1
    (q, outcome) ∈ (before.derive op fields).2 →
      (q ≠ .bbtest → ∀ later : List (Edit ω α), (∀ e ∈ later, ¬ e.IsNote) →
        (after.editAll later).failures.get? q.tag = none) ∧
      (q = .bbtest → after.failures.get? q.tag = before.failures.get? q.tag) := by
  intro before after hmem
  have hafter : after = (deriveEach op fields.eraseDups before).1 :=
    congrArg Prod.fst (derive_eq_deriveEach op fields before)
  rw [derive_eq_deriveEach] at hmem
  constructor
  · intro hq later hlater
    have hname : q.tag ≠ "bbtest" := fun htag => hq (tag_injective htag)
    have hbefore : before.Truthful q.tag :=
      (truthful_ofContent c q.tag).editAll hname hedits
    have htruthful : after.Truthful q.tag := by
      rw [hafter]
      exact truthful_deriveEach _ hbefore hname
    have hhas : after.has q.tag = true := by
      rw [hafter]
      exact has_tag_deriveEach hq hmem hsuccess
    exact htruthful.editAll hname hlater (has_editAll hlater hhas)
  · intro hq
    subst hq
    rw [hafter]
    exact get?_failures_deriveEach (isSuccess_of_log (nodup_eraseDups fields) hmem hsuccess)

end Edits

/-- One cell and two test fields, of which the tensor holds the first. -/
def pendingTestFields : SnapshotContent Float Float where
  f := .fill [3, 1, 1, 1] 0
  layout := .full
  coords := .uniform [0]
  time := 0
  spacing := .uniform 1
  shearOffset := none
  bounds := .uniform ⟨0, 1⟩
  metadata := {
    dims := ⟨.uniform 1, .uniform 0, 3, 0, .double, .uniform 1, .uniform 0⟩
    params := .standard
    index := .ofList [("aatest1", 1), ("aatest2", 2), ("aatest3", 3), ("aatest4", 4),
      ("aatest5", 5), ("aatest6", 6)] }
  persistence := .empty
  grid := none

/-- The density is noted as failed until its logarithm is there. -/
theorem failures_of_success_pendingTestFields :
    let edits : List (Edit Float Float) := [.derive CentralDifference.scheme [.bbtest, .rho],
      .addDerived "lnrho" (.fill [1, 1, 1] 0)]
    let before := (ofContent pendingTestFields).editAll edits
    let after := (before.derive CentralDifference.scheme [.rho]).1
    before.failures.keys = ["bbtest", "rho"] ∧
      (before.derive CentralDifference.scheme [.rho]).2 = [(.rho, .computed ["rho"])] ∧
      (after.editAll [.trim]).failures.get? "rho" = none := by
  intro edits before after
  have hedits : ∀ e ∈ edits, ¬ e.IsNote := by simp [edits, Edit.IsNote]
  have hlater : ∀ e ∈ [(.trim : Edit Float Float)], ¬ e.IsNote := by simp [Edit.IsNote]
  have hlog : (before.derive CentralDifference.scheme [.rho]).2 = [(.rho, .computed ["rho"])] := by
    decide +kernel
  refine ⟨by decide +kernel, hlog, ?_⟩
  have hcleared := failures_of_success pendingTestFields edits hedits CentralDifference.scheme
    [.rho] .rho (.computed ["rho"]) trivial (hlog ▸ List.mem_singleton_self _)
  exact hcleared.1 (by decide) [.trim] hlater

/-- The curl of the second test field is added by hand. The other one is then derived, and the
failure is still noted. -/
theorem failures_bbtest_pendingTestFields :
    let edits : List (Edit Float Float) := [.derive CentralDifference.scheme [.bbtest],
      .addDerived "bbtest0" (.fill [3, 1, 1, 1] 0)]
    let before := (ofContent pendingTestFields).editAll edits
    (before.derive CentralDifference.scheme [.bbtest]).2 =
        [(.bbtest, .computed ["bbtest1"])] ∧
      (before.derive CentralDifference.scheme [.bbtest]).1.failures.get? "bbtest" =
        some (.missingField "bbtest" ["aatest"]) := by
  decide +kernel

end Snapshot

end GridSnapshot
