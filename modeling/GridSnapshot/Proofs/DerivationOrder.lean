import GridSnapshot.Proofs.ThermodynamicRequest

namespace GridSnapshot.Derivation

open Thermodynamics

variable {ω α : Type} [RealOps ω] [RealOps α] [Narrowing ω α] {op : CurlScheme ω α}
  {s t : Snapshot ω α} {q : DerivedQuantity}

/-- The pressure comes out the same whether or not the entropy is requested as well. -/
def PressureSettled (s : Snapshot ω α) (fields : List DerivedQuantity) : Prop :=
  (∀ lnTT lnrho : α, let eos := s.metadata.params.eos
    pressureOfEntropy eos (entropyOfTemperature eos lnTT lnrho) lnrho =
      pressureOfTemperature eos lnTT lnrho) ∨
    s.has "ss" = true ∨ .ss ∉ fields

/-- A snapshot on which some thermodynamic fields were requested. Each is as if it were the only
one. -/
structure Requested (op : CurlScheme ω α) (s t : Snapshot ω α) (done : List DerivedQuantity) :
    Prop where
  content_eq : t.toSnapshotContent = s.toSnapshotContent
  untouched : ∀ name, name ∉ done.map DerivedQuantity.tag → t.lookup? name = s.lookup? name
  settled : ∀ q ∈ done, (q = .pp → PressureSettled s done) →
    t.lookup? q.tag = (derive op s q).1.lookup? q.tag

variable {done : List DerivedQuantity}

theorem requested_nil (op : CurlScheme ω α) (s : Snapshot ω α) : Requested op s s [] where
  content_eq := rfl
  untouched _ _ := rfl
  settled _ hq := nomatch hq

theorem tag_injective {q q' : DerivedQuantity} (h : q.tag = q'.tag) : q = q' := by
  cases q <;> cases q' <;> first | rfl | exact absurd h (by decide)

theorem tag_mem_iff : q.tag ∈ done.map DerivedQuantity.tag ↔ q ∈ done := by
  rw [List.mem_map]
  constructor
  · rintro ⟨q', hq', htag⟩
    exact tag_injective htag ▸ hq'
  · intro hq
    exact ⟨q, hq, rfl⟩

namespace Requested

theorem metadata_eq (h : Requested op s t done) : t.metadata = s.metadata :=
  congrArg SnapshotContent.metadata h.content_eq

theorem lookup?_of_not_mem (h : Requested op s t done) (hq : q ∉ done) :
    t.lookup? q.tag = s.lookup? q.tag := h.untouched _ (mt tag_mem_iff.mp hq)

/-- The logarithms are never derived. -/
theorem lookup?_logarithm (h : Requested op s t done) {name : String}
    (hname : name ∉ DerivedQuantity.all.map DerivedQuantity.tag) :
    t.lookup? name = s.lookup? name := by
  refine h.untouched name fun hmem => hname ?_
  obtain ⟨q, -, rfl⟩ := List.mem_map.mp hmem
  refine List.mem_map.mpr ⟨q, ?_, rfl⟩
  cases q <;> decide

/-- An input is there as it was or comes from what was there. -/
theorem lookup?_cases (h : Requested op s t done) (hs : EvenShapes s)
    (hq : q.kind = .thermodynamic) (hpp : q ≠ .pp) :
    t.lookup? q.tag = s.lookup? q.tag ∨
      ∃ v, s.lookup? q.tag = none ∧ value s q = .ok v ∧ t.lookup? q.tag = some v := by
  by_cases hdone : q ∈ done
  · rw [h.settled q hdone fun heq => absurd heq hpp, lookup?_derive hq hs]
    cases hlookup : s.lookup? q.tag with
    | some x => exact .inl rfl
    | none =>
      cases hv : value s q with
      | error e => exact .inl rfl
      | ok v => exact .inr ⟨v, rfl, rfl, rfl⟩
  · exact .inl (h.lookup?_of_not_mem hdone)

theorem has_eq (h : Requested op s t done) (hq : q ∉ done) : t.has q.tag = s.has q.tag := by
  rw [Snapshot.has_eq_isSome, Snapshot.has_eq_isSome, h.lookup?_of_not_mem hq]

theorem logDensity?_eq (h : Requested op s t done) (hs : EvenShapes s) :
    logDensity? t = logDensity? s := by
  have hlnrho : t.lookup? "lnrho" = s.lookup? "lnrho" := h.lookup?_logarithm (by decide)
  unfold logDensity? logField?
  rw [hlnrho]
  cases hl : s.lookup? "lnrho" with
  | some lnrho => rfl
  | none =>
    rcases h.lookup?_cases (q := .rho) hs rfl (by decide) with heq | ⟨v, -, hv, -⟩
    · have hrho : t.lookup? "rho" = s.lookup? "rho" := heq
      rw [hrho]
    · -- A derived density comes from its logarithm.
      simp only [value, density, hl, required, bind, Except.bind] at hv
      cases hv

theorem logTemperature?_eq (h : Requested op s t done) (hs : EvenShapes s)
    (hss : s.lookup? "ss" = none) : logTemperature? t = logTemperature? s := by
  have hlnTT : t.lookup? "lnTT" = s.lookup? "lnTT" := h.lookup?_logarithm (by decide)
  unfold logTemperature? logField?
  rw [hlnTT]
  cases hl : s.lookup? "lnTT" with
  | some lnTT => rfl
  | none =>
    rcases h.lookup?_cases (q := .tt) hs rfl (by decide) with heq | ⟨v, -, hv, -⟩
    · have htt : t.lookup? "tt" = s.lookup? "tt" := heq
      rw [htt]
    · -- A derived temperature comes from its logarithm or the entropy.
      simp only [value, temperature, hl, hss, required, bind, Except.bind] at hv
      cases hv

theorem temperature_eq (h : Requested op s t done) (hs : EvenShapes s)
    (htt : s.lookup? "tt" = none) : temperature t = temperature s := by
  have hlnTT : t.lookup? "lnTT" = s.lookup? "lnTT" := h.lookup?_logarithm (by decide)
  unfold temperature
  rw [hlnTT, h.logDensity?_eq hs, h.metadata_eq]
  cases hl : s.lookup? "lnTT" with
  | some lnTT => rfl
  | none =>
    rcases h.lookup?_cases (q := .ss) hs rfl (by decide) with heq | ⟨v, -, hv, -⟩
    · have hss : t.lookup? "ss" = s.lookup? "ss" := heq
      rw [hss]
    · -- A derived entropy comes from the temperature or its logarithm.
      simp only [value, entropy, logTemperature?, logField?, hl, htt, Option.map_none, required,
        bind, Except.bind] at hv
      cases hv

theorem entropy_eq (h : Requested op s t done) (hs : EvenShapes s) (hss : s.lookup? "ss" = none) :
    entropy t = entropy s := by
  unfold entropy
  rw [h.logTemperature?_eq hs hss, h.logDensity?_eq hs, h.metadata_eq]

theorem evenShapes (h : Requested op s t done) (hs : EvenShapes s) : EvenShapes t := by
  have hcell : t.cellShape = s.cellShape := congrArg (fun c => c.f.shape.tail) h.content_eq
  have hlogarithm (name : String) (hname : name ∈ ["lnrho", "rho", "lnTT", "tt", "ss"])
      (hplain : name ∉ DerivedQuantity.all.map DerivedQuantity.tag) (x : Tensor α)
      (hx : t.lookup? name = some x) : x.shape = s.cellShape := by
    rw [h.lookup?_logarithm hplain] at hx
    exact hs name hname x hx
  have hplain (q : DerivedQuantity) (hq : q.kind = .thermodynamic) (hpp : q ≠ .pp)
      (hname : q.tag ∈ ["lnrho", "rho", "lnTT", "tt", "ss"]) (x : Tensor α)
      (hx : t.lookup? q.tag = some x) : x.shape = s.cellShape := by
    rcases h.lookup?_cases hs hq hpp with heq | ⟨v, -, hv, heq⟩
    · rw [heq] at hx
      exact hs q.tag hname x hx
    · rw [heq] at hx
      cases hx
      exact shape_value hs hv
  intro name hname
  rw [hcell]
  simp only [List.mem_cons, List.not_mem_nil, or_false] at hname
  rcases hname with rfl | rfl | rfl | rfl | rfl
  · exact hlogarithm _ (by decide) (by decide)
  · exact hplain .rho rfl (by decide) (by decide)
  · exact hlogarithm _ (by decide) (by decide)
  · exact hplain .tt rfl (by decide) (by decide)
  · exact hplain .ss rfl (by decide) (by decide)

theorem pressure_eq (h : Requested op s t done) (hs : EvenShapes s)
    (hss : t.lookup? "ss" = s.lookup? "ss") : pressure t = pressure s := by
  unfold pressure
  rw [h.logDensity?_eq hs, hss, h.metadata_eq]
  cases hl : s.lookup? "ss" with
  | some ss => rfl
  | none => rw [h.logTemperature?_eq hs hl]

/-- After the entropy was derived, the pressure takes the entropy's route. -/
theorem pressure_of_entropy (h : Requested op s t done) (hs : EvenShapes s)
    (hnone : s.lookup? "ss" = none) {ss : Tensor α} (hentropy : entropy s = .ok ss)
    (hss : t.lookup? "ss" = some ss) :
    ∃ lnTT lnrho, lnTT.shape = lnrho.shape ∧
      logTemperature? s = some lnTT ∧ logDensity? s = some lnrho ∧
      combine (entropyOfTemperature s.metadata.params.eos) lnTT lnrho = .ok ss ∧
      pressure t = combine (pressureOfEntropy s.metadata.params.eos) ss lnrho ∧
      pressure s = combine (pressureOfTemperature s.metadata.params.eos) lnTT lnrho := by
  obtain ⟨lnTT, hlnTT, hrest⟩ := Outcome.bind_eq_ok_iff.mp hentropy
  obtain ⟨lnrho, hlnrho, hcombine⟩ := Outcome.bind_eq_ok_iff.mp hrest
  rw [required_eq_ok_iff] at hlnTT hlnrho
  have hshape : lnTT.shape = lnrho.shape :=
    (hs.shape_logField (by simp) (by simp) hlnTT).trans
      (hs.shape_logField (by simp) (by simp) hlnrho).symm
  refine ⟨lnTT, lnrho, hshape, hlnTT, hlnrho, hcombine, ?_, ?_⟩
  · unfold pressure
    rw [h.logDensity?_eq hs, hlnrho, hss, h.metadata_eq]
    rfl
  · unfold pressure
    rw [hlnrho, hnone, hlnTT]
    rfl

/-- Either the pressure is as if nothing else had been requested, or it comes out by both routes. -/
theorem pressure_cases (h : Requested op s t done) (hs : EvenShapes s) :
    pressure t = pressure s ∨
      .ss ∈ done ∧ s.lookup? "ss" = none ∧ ∃ ss lnTT lnrho, lnTT.shape = lnrho.shape ∧
        combine (entropyOfTemperature s.metadata.params.eos) lnTT lnrho = .ok ss ∧
        pressure t = combine (pressureOfEntropy s.metadata.params.eos) ss lnrho ∧
        pressure s = combine (pressureOfTemperature s.metadata.params.eos) lnTT lnrho := by
  rcases h.lookup?_cases (q := .ss) hs rfl (by decide) with heq | ⟨ss, hnone, hentropy, hss⟩
  · exact .inl (h.pressure_eq hs heq)
  · obtain ⟨lnTT, lnrho, hshape, -, -, hroutes⟩ := h.pressure_of_entropy hs hnone hentropy hss
    have hdone : .ss ∈ done := by
      apply Decidable.byContradiction
      intro hnot
      rw [h.lookup?_of_not_mem hnot, hnone] at hss
      cases hss
    exact .inr ⟨hdone, hnone, ss, lnTT, lnrho, hshape, hroutes⟩

/-- By either route the pressure comes out or does not. -/
theorem pressure_alike (h : Requested op s t done) (hs : EvenShapes s) :
    pressure t = pressure s ∨ ∃ v v', pressure t = .ok v ∧ pressure s = .ok v' := by
  rcases h.pressure_cases hs with heq | ⟨-, -, ss, lnTT, lnrho, hshape, hcombine, ht, hs'⟩
  · exact .inl heq
  · obtain ⟨v, hv⟩ := exists_combine (pressureOfEntropy s.metadata.params.eos)
      ((shape_combine hcombine).trans hshape)
    obtain ⟨v', hv'⟩ := exists_combine (pressureOfTemperature s.metadata.params.eos) hshape
    exact .inr ⟨v, v', ht.trans hv, hs'.trans hv'⟩

theorem pressure_settled (h : Requested op s t done) (hs : EvenShapes s)
    (hsettled : PressureSettled s done) : pressure t = pressure s := by
  rcases h.pressure_cases hs with
    heq | ⟨hdone, hnone, ss, lnTT, lnrho, hshape, hcombine, ht, hs'⟩
  · exact heq
  · rcases hsettled with hroutes | hhas | hnot
    · rw [ht, hs']
      exact combine_combine hcombine hshape fun _ a b _ _ => hroutes a b
    · rw [Snapshot.has_eq_isSome, hnone] at hhas
      cases hhas
    · exact absurd hdone hnot

/-- The values of a request after others and of the request alone. -/
theorem value_eq (h : Requested op s t done) (hs : EvenShapes s)
    (hnone : s.lookup? q.tag = none) (hpp : q = .pp → PressureSettled s done) :
    value t q = value s q := by
  cases q with
  | rho =>
    have hlnrho : t.lookup? "lnrho" = s.lookup? "lnrho" := h.lookup?_logarithm (by decide)
    simp only [value, density, hlnrho]
  | tt => exact h.temperature_eq hs hnone
  | ss => exact h.entropy_eq hs hnone
  | pp => exact h.pressure_settled hs (hpp rfl)
  | _ => rfl

/-- What becomes of a request does not depend on those before it. -/
theorem outcome_eq (h : Requested op s t done) (hs : EvenShapes s) (hq : q.kind = .thermodynamic)
    (hnot : q ∉ done) : (derive op t q).2 = (derive op s q).2 := by
  cases hhas : s.has q.tag with
  | true =>
    have ht := (h.has_eq hnot).trans hhas
    rw [derive_of_has hq hhas, derive_of_has hq ht]
  | false =>
    have ht := (h.has_eq hnot).trans hhas
    have hvalue : value t q = value s q ∨
        ∃ v v', value t q = .ok v ∧ value s q = .ok v' := by
      by_cases hpp : q = .pp
      · subst hpp
        exact h.pressure_alike hs
      · exact .inl (h.value_eq hs (Snapshot.lookup?_of_has_eq_false hhas) fun heq => absurd heq hpp)
    cases hv : value s q with
    | error e =>
      rcases hvalue with heq | ⟨v, v', -, hv'⟩
      · rw [derive_of_error hq hhas hv, derive_of_error hq ht (heq.trans hv)]
      · rw [hv] at hv'
        cases hv'
    | ok v' =>
      obtain ⟨v, htv⟩ : ∃ v, value t q = .ok v := by
        rcases hvalue with heq | ⟨v, -, htv, -⟩
        · exact ⟨v', heq.trans hv⟩
        · exact ⟨v, htv⟩
      rw [derive_of_ok hq hhas hv (shape_value hs hv),
        derive_of_ok hq ht htv (shape_value (h.evenShapes hs) htv)]

theorem pressureSettled_of_append {more : List DerivedQuantity}
    (h : PressureSettled s (done ++ more)) : PressureSettled s done := by
  rcases h with hroutes | hhas | hnot
  · exact .inl hroutes
  · exact .inr (.inl hhas)
  · exact .inr (.inr fun hmem => hnot (List.mem_append_left _ hmem))

theorem step (h : Requested op s t done) (hs : EvenShapes s) (hq : q.kind = .thermodynamic)
    (hnot : q ∉ done) : Requested op s (derive op t q).1 (done ++ [q]) where
  content_eq := (content_derive hq (h.evenShapes hs)).trans h.content_eq
  untouched name hname := by
    rw [List.map_append, List.mem_append, not_or, List.map_singleton, List.mem_singleton] at hname
    rw [lookup?_derive_of_ne hq (h.evenShapes hs) hname.2]
    exact h.untouched name hname.1
  settled q' hq' hpp := by
    by_cases heq : q' = q
    · subst heq
      rw [lookup?_derive hq (h.evenShapes hs), lookup?_derive hq hs, h.lookup?_of_not_mem hnot]
      cases hlookup : s.lookup? q'.tag with
      | some x => rw [Option.some_or, Option.some_or]
      | none => rw [h.value_eq hs hlookup fun heq => pressureSettled_of_append (hpp heq)]
    · have hmem : q' ∈ done := by
        rcases List.mem_append.mp hq' with hmem | hmem
        · exact hmem
        · exact absurd (List.mem_singleton.mp hmem) heq
      rw [lookup?_derive_of_ne hq (h.evenShapes hs) fun htag => heq (tag_injective htag)]
      exact h.settled q' hmem fun heq => pressureSettled_of_append (hpp heq)

end Requested

/-- The log says for each field what became of it, as if it were the only one. -/
def singleLog (op : CurlScheme ω α) (s : Snapshot ω α) (done : List DerivedQuantity) :
    DerivationLog :=
  done.map fun q => (q, (derive op s q).2)

theorem lookup_singleLog (hq : q ∈ done) :
    (singleLog op s done).lookup q = some (derive op s q).2 := by
  induction done with
  | nil => cases hq
  | cons q' done ih =>
    rw [singleLog, List.map_cons, List.lookup_cons]
    by_cases heq : q = q'
    · subst heq
      rw [beq_self_eq_true]
    · rw [beq_false_of_ne heq]
      exact ih ((List.mem_cons.mp hq).resolve_left heq)

/-- All requests of a run come out as if each were the only one. -/
theorem Requested.run (h : Requested op s t done) (hs : EvenShapes s)
    {fields : List DerivedQuantity} (hfields : ∀ q ∈ fields, q.kind = .thermodynamic) :
    ∃ done', Requested op s (deriveAll op fields t (singleLog op s done)).1 done' ∧
      (deriveAll op fields t (singleLog op s done)).2 = singleLog op s done' ∧
      ∀ q, q ∈ done' ↔ q ∈ done ∨ q ∈ fields := by
  induction fields generalizing t done with
  | nil => exact ⟨done, h, rfl, by simp⟩
  | cons q fields ih =>
    obtain ⟨hq, hfields⟩ := List.forall_mem_cons.mp hfields
    have hkeys : (singleLog op s done).map Prod.fst = done := by
      simp [singleLog, Function.comp_def]
    rw [deriveAll, hkeys]
    by_cases hmem : q ∈ done
    · rw [if_pos hmem]
      obtain ⟨done', hdone', hlog, hiff⟩ := ih h hfields
      refine ⟨done', hdone', hlog, fun q' => ?_⟩
      rw [hiff, List.mem_cons]
      constructor
      · rintro (hq' | hq')
        · exact .inl hq'
        · exact .inr (.inr hq')
      · rintro (hq' | rfl | hq')
        · exact .inl hq'
        · exact .inl hmem
        · exact .inr hq'
    · have hlog : singleLog op s done ++ [(q, (derive op t q).2)] =
          singleLog op s (done ++ [q]) := by
        rw [h.outcome_eq hs hq hmem, singleLog, singleLog, List.map_append, List.map_singleton]
      rw [if_neg hmem]
      simp only [hlog]
      obtain ⟨done', hdone', hlog', hiff⟩ := ih (h.step hs hq hmem) hfields
      refine ⟨done', hdone', hlog', fun q' => ?_⟩
      rw [hiff, List.mem_append, List.mem_singleton, List.mem_cons, or_assoc]

/-- Each thermodynamic field comes out of a list of requests as if it were the only one. -/
theorem derive_eq_single (op : CurlScheme ω α) (hs : EvenShapes s) {fields : List DerivedQuantity}
    (hfields : ∀ q ∈ fields, q.kind = .thermodynamic) (hq : q ∈ fields) :
    (s.derive op fields).2.lookup q = some (derive op s q).2 ∧
      ((q = .pp → PressureSettled s fields) →
        (s.derive op fields).1.lookup? q.tag = (derive op s q).1.lookup? q.tag) := by
  obtain ⟨done, hdone, hlog, hiff⟩ := (requested_nil op s).run hs hfields
  have hmem : q ∈ done := (hiff q).mpr (.inr hq)
  refine ⟨?_, fun hpp => hdone.settled q hmem fun heq => ?_⟩
  · have hrun : (s.derive op fields).2 = singleLog op s done := hlog
    rw [hrun, lookup_singleLog hmem]
  · rcases hpp heq with hroutes | hhas | hnot
    · exact .inl hroutes
    · exact .inr (.inl hhas)
    · refine .inr (.inr fun hss => hnot ?_)
      simpa using (hiff _).mp hss

/-- The pressure requested before the entropy and after it, where the entropy has to be derived. -/
theorem lookup?_pressure_entropy (op : CurlScheme ω α) (hs : EvenShapes s)
    (hpp : s.lookup? "pp" = none) (hnone : s.lookup? "ss" = none) {ss : Tensor α}
    (hentropy : entropy s = .ok ss) :
    ∃ lnTT lnrho, lnTT.shape = lnrho.shape ∧
      logTemperature? s = some lnTT ∧ logDensity? s = some lnrho ∧
      combine (entropyOfTemperature s.metadata.params.eos) lnTT lnrho = .ok ss ∧
      (s.derive op [.pp, .ss]).1.lookup? "pp" =
        (combine (pressureOfTemperature s.metadata.params.eos) lnTT lnrho).toOption ∧
      (s.derive op [.ss, .pp]).1.lookup? "pp" =
        (combine (pressureOfEntropy s.metadata.params.eos) ss lnrho).toOption := by
  have hfirst : Requested op s (derive op s .ss).1 [.ss] :=
    (requested_nil op s).step hs rfl (by decide)
  have hss : (derive op s .ss).1.lookup? "ss" = some ss := by
    have hlookup : (derive op s .ss).1.lookup? "ss" =
        (s.lookup? "ss").or (entropy s).toOption := lookup?_derive rfl hs
    rw [hlookup, hnone, hentropy]
    rfl
  obtain ⟨lnTT, lnrho, hshape, hlnTT, hlnrho, hcombine, ht, hs'⟩ :=
    hfirst.pressure_of_entropy hs hnone hentropy hss
  refine ⟨lnTT, lnrho, hshape, hlnTT, hlnrho, hcombine, ?_, ?_⟩
  · have hpair : (s.derive op [.pp, .ss]).1 = (derive op (derive op s .pp).1 .ss).1 := rfl
    have hpressure : Requested op s (derive op s .pp).1 [.pp] :=
      (requested_nil op s).step hs rfl (by decide)
    have hlookup : (derive op s .pp).1.lookup? "pp" =
        (s.lookup? "pp").or (pressure s).toOption := lookup?_derive rfl hs
    rw [hpair, lookup?_derive_of_ne rfl (hpressure.evenShapes hs) (by decide), hlookup, hpp, hs',
      Option.none_or]
  · have hpair : (s.derive op [.ss, .pp]).1 = (derive op (derive op s .ss).1 .pp).1 := rfl
    have hlookup : (derive op (derive op s .ss).1 .pp).1.lookup? "pp" =
        ((derive op s .ss).1.lookup? "pp").or (pressure (derive op s .ss).1).toOption :=
      lookup?_derive rfl (hfirst.evenShapes hs)
    rw [hpair, hlookup, lookup?_derive_of_ne rfl hs (by decide), hpp, ht, Option.none_or]

end GridSnapshot.Derivation
