import Mathlib.Analysis.SpecialFunctions.Log.Basic
import GridSnapshot.Proofs.DerivationOrder

namespace GridSnapshot

noncomputable instance : RealOps ℝ where
  ofInt i := i
  exp := Real.exp
  log := Real.log

instance : Narrowing ℝ ℝ where
  narrow x := x
  widen x := x

/-- An ideal gas with a reference state. -/
structure EquationOfState.Physical (eos : EquationOfState ℝ) : Prop where
  cp_pos : 0 < eos.cp
  gamma_gt : 1 < eos.gamma
  soundSpeed_pos : 0 < eos.soundSpeed
  density_pos : 0 < eos.density

namespace Thermodynamics

variable {eos : EquationOfState ℝ}

/-- How far the logarithm of the temperature is above that of the reference entropy. -/
noncomputable def excess (eos : EquationOfState ℝ) (lnTT lnrho : ℝ) : ℝ :=
  lnTT - eos.logTemperature - (eos.gamma - 1) * (lnrho - eos.logDensity)

theorem logDensity_eq (eos : EquationOfState ℝ) : eos.logDensity = Real.log eos.density := rfl

theorem logTemperature_eq (eos : EquationOfState ℝ) : eos.logTemperature =
    Real.log (eos.soundSpeed * eos.soundSpeed / (eos.cp * (eos.gamma - 1))) := by
  have hone : (RingOps.ofInt 1 : ℝ) = 1 := Int.cast_one
  rw [← hone]
  rfl

theorem entropyOfTemperature_eq (eos : EquationOfState ℝ) (lnTT lnrho : ℝ) :
    entropyOfTemperature eos lnTT lnrho = eos.cp / eos.gamma * excess eos lnTT lnrho := by
  have hone : (RingOps.ofInt 1 : ℝ) = 1 := Int.cast_one
  rw [excess, ← hone]
  rfl

theorem pressureOfEntropy_eq (eos : EquationOfState ℝ) (ss lnrho : ℝ) :
    pressureOfEntropy eos ss lnrho =
      eos.density * eos.soundSpeed * eos.soundSpeed / eos.gamma *
        Real.exp (eos.gamma * (ss + lnrho - eos.logDensity)) := rfl

theorem pressureOfTemperature_eq (eos : EquationOfState ℝ) (lnTT lnrho : ℝ) :
    pressureOfTemperature eos lnTT lnrho =
      (eos.cp - eos.cp / eos.gamma) * Real.exp (lnTT + lnrho) := rfl

/-- The pressure of the reference state, by both routes. -/
theorem referencePressure_eq (h : eos.Physical) :
    (eos.cp - eos.cp / eos.gamma) * Real.exp (eos.logTemperature + eos.logDensity) =
      eos.density * eos.soundSpeed * eos.soundSpeed / eos.gamma := by
  obtain ⟨hcp, hgamma, hsound, hdensity⟩ := h
  have hgap : 0 < eos.gamma - 1 := by linarith
  have hpos : 0 < eos.soundSpeed * eos.soundSpeed / (eos.cp * (eos.gamma - 1)) := by positivity
  rw [Real.exp_add, logTemperature_eq, logDensity_eq, Real.exp_log hpos, Real.exp_log hdensity]
  field_simp

/-- The entropy's route multiplies by the excess once for each unit of specific heat. -/
theorem pressureOfEntropy_entropyOfTemperature (h : eos.Physical) (lnTT lnrho : ℝ) :
    pressureOfEntropy eos (entropyOfTemperature eos lnTT lnrho) lnrho =
      pressureOfTemperature eos lnTT lnrho *
        Real.exp ((eos.cp - 1) * excess eos lnTT lnrho) := by
  have hgamma : eos.gamma ≠ 0 := by
    have hgt := h.gamma_gt
    linarith
  have hexponent : eos.gamma *
      (eos.cp / eos.gamma * excess eos lnTT lnrho + lnrho - eos.logDensity) =
        lnTT + lnrho - (eos.logTemperature + eos.logDensity) +
          (eos.cp - 1) * excess eos lnTT lnrho := by
    unfold excess
    field_simp
    ring
  rw [pressureOfEntropy_eq, entropyOfTemperature_eq, pressureOfTemperature_eq, hexponent,
    ← referencePressure_eq h, mul_assoc, mul_assoc, ← Real.exp_add, ← Real.exp_add]
  congr 2
  ring

theorem pressureOfTemperature_pos (h : eos.Physical) (lnTT lnrho : ℝ) :
    0 < pressureOfTemperature eos lnTT lnrho := by
  obtain ⟨hcp, hgamma, -, -⟩ := h
  have hcv : eos.cp / eos.gamma < eos.cp := div_lt_self hcp hgamma
  rw [pressureOfTemperature_eq]
  exact mul_pos (sub_pos.mpr hcv) (Real.exp_pos _)

theorem routes_agree_at_iff (h : eos.Physical) (lnTT lnrho : ℝ) :
    pressureOfEntropy eos (entropyOfTemperature eos lnTT lnrho) lnrho =
      pressureOfTemperature eos lnTT lnrho ↔ eos.cp = 1 ∨ excess eos lnTT lnrho = 0 := by
  have hpos := pressureOfTemperature_pos h lnTT lnrho
  rw [pressureOfEntropy_entropyOfTemperature h, mul_eq_left₀ hpos.ne', Real.exp_eq_one_iff,
    mul_eq_zero, sub_eq_zero]

/-- The routes agree everywhere if and only if the specific heat at constant pressure is one. -/
theorem routes_agree_iff (h : eos.Physical) :
    (∀ lnTT lnrho : ℝ, pressureOfEntropy eos (entropyOfTemperature eos lnTT lnrho) lnrho =
      pressureOfTemperature eos lnTT lnrho) ↔ eos.cp = 1 := by
  constructor
  · intro hroutes
    have hone : excess eos (eos.logTemperature + 1) eos.logDensity = 1 := by
      unfold excess
      ring
    rcases (routes_agree_at_iff h _ _).mp (hroutes (eos.logTemperature + 1) eos.logDensity) with
      hcp | hzero
    · exact hcp
    · rw [hone] at hzero
      exact absurd hzero one_ne_zero
  · intro hcp lnTT lnrho
    exact (routes_agree_at_iff h lnTT lnrho).mpr (.inl hcp)

end Thermodynamics

namespace Derivation

open Thermodynamics

variable {s : Snapshot ℝ ℝ} {op : CurlScheme ℝ ℝ}

theorem pressureSettled_iff (h : s.metadata.params.eos.Physical) {fields : List DerivedQuantity} :
    PressureSettled s fields ↔
      s.metadata.params.eos.cp = 1 ∨ s.has "ss" = true ∨ .ss ∉ fields :=
  or_congr_left (routes_agree_iff h)

/-- Two orders of the same thermodynamic requests give each field the same outcome and the same
array, the pressure excepted where the entropy is among the requests and takes another route. -/
theorem derive_perm (op : CurlScheme ℝ ℝ) (h : s.metadata.params.eos.Physical)
    (hshapes : EvenShapes s) {fields fields' : List DerivedQuantity}
    (hfields : ∀ q ∈ fields, q.kind = .thermodynamic) (hperm : fields.Perm fields') :
    ∀ q ∈ fields, ∃ outcome,
      (s.derive op fields).2.lookup q = some outcome ∧
      (s.derive op fields').2.lookup q = some outcome ∧
      ((q = .pp → s.metadata.params.eos.cp = 1 ∨ s.has "ss" = true ∨ .ss ∉ fields) →
        (s.derive op fields).1.lookup? q.tag = (s.derive op fields').1.lookup? q.tag) := by
  intro q hq
  have hfields' : ∀ q ∈ fields', q.kind = .thermodynamic :=
    fun q hq => hfields q (hperm.mem_iff.mpr hq)
  obtain ⟨hlog, harray⟩ := derive_eq_single op hshapes hfields hq
  obtain ⟨hlog', harray'⟩ := derive_eq_single op hshapes hfields' (hperm.mem_iff.mp hq)
  refine ⟨_, hlog, hlog', fun hpp => ?_⟩
  have hsettled : q = .pp → PressureSettled s fields :=
    fun heq => (pressureSettled_iff h).mpr (hpp heq)
  have hsettled' : q = .pp → PressureSettled s fields' := by
    intro heq
    rw [pressureSettled_iff h, ← hperm.mem_iff]
    exact hpp heq
  rw [harray hsettled, harray' hsettled']

/-- The pressure is the same before and after an entropy that has to be derived if and only if the
routes agree at each cell. -/
theorem pressure_commutes_iff (h : s.metadata.params.eos.Physical) (hshapes : EvenShapes s)
    (hpp : s.lookup? "pp" = none) (hss : s.lookup? "ss" = none) {lnTT lnrho : Tensor ℝ}
    (hlnTT : logTemperature? s = some lnTT) (hlnrho : logDensity? s = some lnrho) :
    (s.derive op [.pp, .ss]).1.lookup? "pp" = (s.derive op [.ss, .pp]).1.lookup? "pp" ↔
      s.metadata.params.eos.cp = 1 ∨ ∀ idx a b, lnTT.get? idx = some a → lnrho.get? idx = some b →
        excess s.metadata.params.eos a b = 0 := by
  have hshape : lnTT.shape = lnrho.shape :=
    (hshapes.shape_logField (by simp) (by simp) hlnTT).trans
      (hshapes.shape_logField (by simp) (by simp) hlnrho).symm
  obtain ⟨ss, hcombine⟩ := exists_combine (entropyOfTemperature s.metadata.params.eos) hshape
  have hentropy : entropy s = .ok ss := by
    unfold entropy
    rw [hlnTT, hlnrho]
    exact hcombine
  obtain ⟨lnTT', lnrho', -, hlnTT', hlnrho', hcombine, hfirst, hsecond⟩ :=
    lookup?_pressure_entropy op hshapes hpp hss hentropy
  obtain rfl : lnTT' = lnTT := Option.some.inj (hlnTT'.symm.trans hlnTT)
  obtain rfl : lnrho' = lnrho := Option.some.inj (hlnrho'.symm.trans hlnrho)
  rw [hfirst, hsecond]
  constructor
  · intro heq
    obtain ⟨v, hv⟩ := exists_combine (pressureOfTemperature s.metadata.params.eos) hshape
    obtain ⟨w, hw⟩ := exists_combine (pressureOfEntropy s.metadata.params.eos)
      ((shape_combine hcombine).trans hshape)
    rw [hv, hw] at heq
    obtain rfl : v = w := Option.some.inj heq
    refine or_iff_not_imp_left.mpr fun hcp idx a b ha hb => ?_
    have hcell := (get?_combine hw idx).symm.trans (get?_combine hv idx)
    rw [get?_combine hcombine, ha, hb] at hcell
    exact ((routes_agree_at_iff h a b).mp (Option.some.inj hcell)).resolve_left hcp
  · intro hcells
    have hsame := combine_combine (g := pressureOfEntropy s.metadata.params.eos)
      (k := pressureOfTemperature s.metadata.params.eos) hcombine hshape fun idx a b ha hb =>
        (routes_agree_at_iff h a b).mpr (hcells.imp_right fun hzero => hzero idx a b ha hb)
    rw [hsame]

end Derivation

/-- A run that writes the logarithms of density and temperature. -/
def gasIndex : SlotIndex := .ofList [("lnrho", 1), ("lnTT", 2)]

/-- One cell of such a run. -/
noncomputable def gasCell (eos : EquationOfState ℝ) (lnrho lnTT : ℝ) : Snapshot ℝ ℝ :=
  Snapshot.ofContent {
    f := Tensor.ofFn [2, 1, 1, 1] fun idx => if idx.headD 0 = 0 then lnrho else lnTT
    layout := .full
    coords := .uniform [0]
    time := 0
    spacing := .uniform 1
    shearOffset := none
    bounds := .uniform ⟨0, 1⟩
    metadata := {
      dims := ⟨.uniform 1, .uniform 0, 2, 0, .double, .uniform 1, .uniform 0⟩
      params := ⟨none, false, false, false, false, .cartesian, eos⟩
      index := gasIndex }
    persistence := .empty
    grid := none }

section GasCell

variable (eos : EquationOfState ℝ) (lnrho lnTT : ℝ)

theorem views_gasCell :
    (gasCell eos lnrho lnTT).views.entries = [("lnrho", ⟨0, 1⟩), ("lnTT", ⟨1, 2⟩)] := by
  have hviews : ((Table.ofList (Snapshot.scalarViews gasIndex 2)).insertMany
      (Snapshot.vectorViews gasIndex 2)).entries = [("lnrho", ⟨0, 1⟩), ("lnTT", ⟨1, 2⟩)] := by
    decide +kernel
  exact hviews

theorem lookup?_gasCell (name : String) : (gasCell eos lnrho lnTT).lookup? name =
    (List.lookup name [("lnrho", ⟨0, 1⟩), ("lnTT", ⟨1, 2⟩)]).map (gasCell eos lnrho lnTT).view := by
  have hderived : (gasCell eos lnrho lnTT).derived.get? name = none := rfl
  rw [Snapshot.lookup?, Snapshot.field?, Table.get?, views_gasCell, hderived]
  cases List.lookup name [("lnrho", (⟨0, 1⟩ : Span)), ("lnTT", ⟨1, 2⟩)] <;> rfl

theorem evenShapes_gasCell : Thermodynamics.EvenShapes (gasCell eos lnrho lnTT) := by
  intro name _ x hx
  rw [lookup?_gasCell] at hx
  obtain ⟨slots, hslots, rfl⟩ := Option.map_eq_some_iff.mp hx
  have hscalar : slots = ⟨0, 1⟩ ∨ slots = ⟨1, 2⟩ := by
    simp only [List.lookup_cons, List.lookup_nil] at hslots
    split at hslots
    · exact .inl (Option.some.inj hslots).symm
    · split at hslots
      · exact .inr (Option.some.inj hslots).symm
      · cases hslots
  rcases hscalar with rfl | rfl <;> rfl

theorem view_gasCell {slot : Nat} (h : slot < 2) :
    (gasCell eos lnrho lnTT).view ⟨slot, slot + 1⟩ =
      Tensor.ofFn [1, 1, 1] fun _ => if slot = 0 then lnrho else lnTT := by
  have hscalar : Snapshot.isScalar ⟨slot, slot + 1⟩ = true := by
    simp [Snapshot.isScalar, Span.length]
  rw [Snapshot.view, if_pos hscalar]
  refine Tensor.ext_get? rfl fun idx hidx => ?_
  have hinside : Cell.Inside [2, 1, 1, 1] (slot :: idx) := ⟨h, hidx⟩
  rw [Tensor.row, Tensor.get?_ofFn, Tensor.get?_ofFn]
  congr 2
  exact Tensor.cell_ofFn _ hinside

theorem logDensity?_gasCell : Thermodynamics.logDensity? (gasCell eos lnrho lnTT) =
    some (Tensor.ofFn [1, 1, 1] fun _ => lnrho) := by
  unfold Thermodynamics.logDensity? Thermodynamics.logField?
  rw [lookup?_gasCell]
  exact congrArg some (view_gasCell eos lnrho lnTT Nat.zero_lt_two)

theorem logTemperature?_gasCell : Thermodynamics.logTemperature? (gasCell eos lnrho lnTT) =
    some (Tensor.ofFn [1, 1, 1] fun _ => lnTT) := by
  unfold Thermodynamics.logTemperature? Thermodynamics.logField?
  rw [lookup?_gasCell]
  exact congrArg some (view_gasCell eos lnrho lnTT Nat.one_lt_two)

end GasCell

/-- A gas whose specific heat at constant pressure is one. -/
noncomputable def unitHeatGas : Snapshot ℝ ℝ := gasCell ⟨1, 2, 1, 1⟩ (-1) 1

/-- A gas with four times as much. -/
noncomputable def fourfoldHeatGas : Snapshot ℝ ℝ := gasCell ⟨4, 2, 2, 1⟩ (-1) 1

namespace Derivation

theorem derive_perm_unitHeatGas :
    unitHeatGas.metadata.params.eos.Physical ∧ Thermodynamics.EvenShapes unitHeatGas ∧
      (unitHeatGas.derive CentralDifference.scheme [.ss, .pp]).1.lookup? "pp" =
        (unitHeatGas.derive CentralDifference.scheme [.pp, .ss]).1.lookup? "pp" := by
  have hphysical : unitHeatGas.metadata.params.eos.Physical :=
    ⟨one_pos, one_lt_two, one_pos, one_pos⟩
  have hshapes : Thermodynamics.EvenShapes unitHeatGas := evenShapes_gasCell _ _ _
  have hperm : [DerivedQuantity.ss, .pp].Perm [.pp, .ss] := List.Perm.swap _ _ _
  obtain ⟨-, -, -, hpressure⟩ :=
    derive_perm CentralDifference.scheme hphysical hshapes (by decide) hperm .pp (by decide)
  exact ⟨hphysical, hshapes, hpressure fun _ => .inl rfl⟩

/-- The pressure depends on whether the entropy was derived before it. -/
theorem pressure_order_fourfoldHeatGas :
    fourfoldHeatGas.metadata.params.eos.Physical ∧ Thermodynamics.EvenShapes fourfoldHeatGas ∧
      (fourfoldHeatGas.derive CentralDifference.scheme [.pp, .ss]).1.lookup? "pp" ≠
        (fourfoldHeatGas.derive CentralDifference.scheme [.ss, .pp]).1.lookup? "pp" := by
  have hphysical : fourfoldHeatGas.metadata.params.eos.Physical :=
    ⟨four_pos, one_lt_two, two_pos, one_pos⟩
  have hshapes : Thermodynamics.EvenShapes fourfoldHeatGas := evenShapes_gasCell _ _ _
  refine ⟨hphysical, hshapes, fun heq => ?_⟩
  rw [pressure_commutes_iff hphysical hshapes (lookup?_gasCell _ _ _ "pp")
    (lookup?_gasCell _ _ _ "ss") (logTemperature?_gasCell _ _ _) (logDensity?_gasCell _ _ _)] at heq
  rcases heq with hcp | hzero
  · have hfour : (4 : ℝ) = 1 := hcp
    norm_num at hfour
  · have hexcess : Thermodynamics.excess ⟨4, 2, 2, 1⟩ 1 (-1) = 0 := hzero [0, 0, 0] 1 (-1)
      (by rw [Tensor.get?_ofFn, if_pos (by decide)]) (by rw [Tensor.get?_ofFn, if_pos (by decide)])
    rw [Thermodynamics.excess, Thermodynamics.logTemperature_eq, Thermodynamics.logDensity_eq]
      at hexcess
    norm_num at hexcess

end Derivation

end GridSnapshot
