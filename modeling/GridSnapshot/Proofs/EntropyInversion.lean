import Mathlib.Analysis.SpecialFunctions.Log.Basic
import GridSnapshot.Proofs.DerivationReport
import GridSnapshot.Proofs.ElementCast
import GridSnapshot.Proofs.PressureRoutes

namespace GridSnapshot

namespace Thermodynamics

section Relations

variable {eos : EquationOfState ℝ}

theorem temperatureOfEntropy_eq (eos : EquationOfState ℝ) (ss lnrho : ℝ) :
    temperatureOfEntropy eos ss lnrho = Real.exp (eos.logTemperature +
      eos.gamma / eos.cp * ss + (eos.gamma - 1) * (lnrho - eos.logDensity)) := by
  have hone : (RingOps.ofInt 1 : ℝ) = 1 := Int.cast_one
  rw [← hone]
  rfl

theorem excess_log_temperatureOfEntropy (eos : EquationOfState ℝ) (ss lnrho : ℝ) :
    excess eos (Real.log (temperatureOfEntropy eos ss lnrho)) lnrho = eos.gamma / eos.cp * ss := by
  rw [temperatureOfEntropy_eq, Real.log_exp, excess]
  ring

theorem entropyOfTemperature_log (h : eos.Physical) (ss lnrho : ℝ) :
    entropyOfTemperature eos (Real.log (temperatureOfEntropy eos ss lnrho)) lnrho = ss := by
  have hcp : eos.cp ≠ 0 := h.cp_pos.ne'
  have hgamma : eos.gamma ≠ 0 := (zero_lt_one.trans h.gamma_gt).ne'
  rw [entropyOfTemperature_eq, excess_log_temperatureOfEntropy]
  field_simp

theorem temperatureOfEntropy_entropyOfTemperature (h : eos.Physical) (lnTT lnrho : ℝ) :
    temperatureOfEntropy eos (entropyOfTemperature eos lnTT lnrho) lnrho = Real.exp lnTT := by
  have hcp : eos.cp ≠ 0 := h.cp_pos.ne'
  have hgamma : eos.gamma ≠ 0 := (zero_lt_one.trans h.gamma_gt).ne'
  have hexcess : eos.gamma / eos.cp * (eos.cp / eos.gamma * excess eos lnTT lnrho) =
      excess eos lnTT lnrho := by
    field_simp
  rw [temperatureOfEntropy_eq, entropyOfTemperature_eq, hexcess, excess]
  congr 1
  ring

end Relations

/-- Combining again with the second tensor gives the first one back, up to what is done to its
cells. -/
theorem combine_undo {α : Type} [Zero α] {v x y : Tensor α} {f g : α → α → α} {h k : α → α}
    (hv : combine f x y = .ok v) (hcell : ∀ a b, g (h (f a b)) b = k a) :
    combine g (v.map h) y = .ok (x.map k) := by
  have hxy := shape_eq_of_combine hv
  have hvx := shape_combine hv
  obtain ⟨w, hw⟩ := exists_combine g (x := v.map h) (hvx.trans hxy)
  have hsame : w = x.map k := by
    refine Tensor.ext_get? ((shape_combine hw).trans hvx) fun idx hidx => ?_
    have hidx : Cell.Inside x.shape idx := hvx ▸ shape_combine hw ▸ hidx
    have hx := Tensor.get?_eq_some hidx
    have hy := Tensor.get?_eq_some (hxy ▸ hidx)
    rw [get?_combine hw, Tensor.get?_map, get?_combine hv, Tensor.get?_map, hx, hy]
    exact congrArg some (hcell _ _)
  rw [hw, hsame]

end Thermodynamics

namespace Snapshot

variable {ω α : Type} [Zero α] {s t : Snapshot ω α} {logarithm plain : String} {l p : Tensor α}

/-- A field is there by its logarithm, or else by itself. -/
def HasEither (s : Snapshot ω α) (logarithm plain : String) (l p : Tensor α) : Prop :=
  s.lookup? logarithm = some l ∨ s.lookup? logarithm = none ∧ s.lookup? plain = some p

theorem HasEither.of_extends (h : s.HasEither logarithm plain l p) (hext : t.Extends s)
    (hlogarithm : t.lookup? logarithm = s.lookup? logarithm) :
    t.HasEither logarithm plain l p := by
  rw [HasEither, hlogarithm]
  exact h.imp_right fun hplain => ⟨hplain.1, hext.lookup?_of_some hplain.2⟩

end Snapshot

namespace Derivation

section Storing

variable {ω α : Type} [RealOps ω] [RealOps α] [Narrowing ω α] {op : CurlScheme ω α}
  {s : Snapshot ω α} {q : DerivedQuantity} {v : Tensor α}

/-- Every list of requests with a field computes it and stores the same array for it. -/
def Stores (op : CurlScheme ω α) (s : Snapshot ω α) (q : DerivedQuantity) (v : Tensor α) : Prop :=
  ∀ fields, q ∈ fields → (s.derive op fields).2.lookup q = some (.computed [q.tag]) ∧
    (s.derive op fields).1.derived.get? q.tag = some v

/-- What the turn of a field gives is stored if it is the same after the turns of others. -/
theorem stores_of_steady (hop : op.KeepsShapes) {P : Snapshot ω α → Prop}
    (hfitted : ∀ s, P s → s.Fitted)
    (hstep : ∀ s q', P s → q' ≠ q → P (derive op s q').1)
    (hturn : ∀ s, P s → (derive op s q).2 = .computed [q.tag] ∧
      (derive op s q).1.derived.get? q.tag = some v) (hs : P s) : Stores op s q v := by
  intro fields hq
  rw [derive_eq_deriveEach]
  have hmem : q ∈ fields.eraseDups := List.mem_eraseDups.mpr hq
  generalize fields.eraseDups = qs at hmem
  induction qs generalizing s with
  | nil => exact absurd hmem List.not_mem_nil
  | cons q' qs ih =>
    rw [deriveEach_cons]
    by_cases hne : q' = q
    · subst hne
      obtain ⟨houtcome, hstored⟩ := hturn s hs
      have hafter := (turn_derive hop (hfitted s hs) q').fitted (hfitted s hs)
      rw [List.lookup_cons_self, houtcome]
      exact ⟨rfl, (run_spec hop hafter qs).2.get?_derived hstored⟩
    · rw [Table.lookup_cons_of_ne (Ne.symm hne)]
      exact ih (hstep s q' hs hne) (List.mem_of_ne_of_mem (Ne.symm hne) hmem)

/-- A thermodynamic field that is not there is stored on its turn. -/
theorem stored_of_value (hkind : q.kind = .thermodynamic) (hs : s.Fitted)
    (hnone : s.lookup? q.tag = none) (hv : value s q = .ok v) :
    (derive op s q).2 = .computed [q.tag] ∧
      (derive op s q).1.derived.get? q.tag = some v := by
  have hhas : s.has q.tag = false := by rw [Snapshot.has_eq_isSome, hnone]; rfl
  obtain ⟨name, -, x, hx, hshape⟩ := exists_shape_value hv
  have hsuffix : s.cellShape <:+ v.shape := hshape ▸ hs.suffix_lookup? hx
  rw [derive_of_suffix hkind hhas hv hsuffix]
  exact ⟨rfl, Table.get?_insert_self⟩

end Storing

open Thermodynamics Snapshot

variable {eos : EquationOfState ℝ} {op : CurlScheme ℝ ℝ} {s : Snapshot ℝ ℝ}
  {ss lnTT tt lnrho : Tensor ℝ} {q : DerivedQuantity}

/-- A snapshot of a gas with a density, by itself or by its logarithm, and derived arrays that
fit. -/
structure Gas (eos : EquationOfState ℝ) (lnrho : Tensor ℝ) (s : Snapshot ℝ ℝ) : Prop where
  fitted : s.Fitted
  eos_eq : s.metadata.params.eos = eos
  density : s.HasEither "lnrho" "rho" lnrho (lnrho.map Real.exp)

/-- A gas with an entropy and without a temperature. -/
structure EntropyGas (eos : EquationOfState ℝ) (ss lnrho : Tensor ℝ) (s : Snapshot ℝ ℝ) : Prop
    extends Gas eos lnrho s where
  entropy : s.lookup? "ss" = some ss
  no_lnTT : s.lookup? "lnTT" = none
  no_tt : s.lookup? "tt" = none

/-- A gas with a temperature, by itself or by its logarithm, and without an entropy. -/
structure TemperatureGas (eos : EquationOfState ℝ) (lnTT tt lnrho : Tensor ℝ) (s : Snapshot ℝ ℝ) :
    Prop extends Gas eos lnrho s where
  temperature : s.HasEither "lnTT" "tt" lnTT tt
  no_ss : s.lookup? "ss" = none

theorem lookup?_derive_tag_of_ne (hop : op.KeepsShapes) (hs : s.Fitted) {q' : DerivedQuantity}
    (hne : q' ≠ q) : (derive op s q').1.lookup? q.tag = s.lookup? q.tag :=
  (turn_derive hop hs q').lookup?_of_not_mem fun hmem =>
    hne (DerivedQuantity.eq_of_tag_mem_outputs hmem).symm

theorem Gas.derive (hop : op.KeepsShapes) (h : Gas eos lnrho s) (q : DerivedQuantity) :
    Gas eos lnrho (derive op s q).1 := by
  have hturn := turn_derive hop h.fitted q
  have hext := hturn.isExtension
  refine ⟨hturn.fitted h.fitted, ?_, h.density.of_extends hext ?_⟩
  · rw [hext.metadata_eq, h.eos_eq]
  · exact hturn.lookup?_logarithm "lnrho" (by decide)

theorem EntropyGas.derive (hop : op.KeepsShapes) (h : EntropyGas eos ss lnrho s)
    (hq : q ≠ .tt) : EntropyGas eos ss lnrho (derive op s q).1 := by
  have hturn := turn_derive hop h.fitted q
  refine ⟨h.toGas.derive hop q, hturn.isExtension.lookup?_of_some h.entropy, ?_, ?_⟩
  · rw [hturn.lookup?_logarithm "lnTT" (by decide), h.no_lnTT]
  · exact (lookup?_derive_tag_of_ne hop h.fitted hq).trans h.no_tt

theorem TemperatureGas.derive (hop : op.KeepsShapes) (h : TemperatureGas eos lnTT tt lnrho s)
    (hq : q ≠ .ss) : TemperatureGas eos lnTT tt lnrho (derive op s q).1 := by
  have hturn := turn_derive hop h.fitted q
  refine ⟨h.toGas.derive hop q, h.temperature.of_extends hturn.isExtension ?_, ?_⟩
  · exact hturn.lookup?_logarithm "lnTT" (by decide)
  · exact (lookup?_derive_tag_of_ne hop h.fitted hq).trans h.no_ss

theorem logField?_of_hasEither {logarithm plain : String} {l p : Tensor ℝ}
    (h : s.HasEither logarithm plain l p) (hlog : p.map Real.log = l) :
    logField? s logarithm plain = some l := by
  unfold logField?
  rcases h with hl | ⟨hl, hp⟩
  · rw [hl]
  · rw [hl, hp]
    exact congrArg some hlog

theorem map_log_map_exp (x : Tensor ℝ) : (x.map Real.exp).map Real.log = x := by
  refine Tensor.ext_get? rfl fun idx _ => ?_
  rw [Tensor.get?_map, Tensor.get?_map, Option.map_map]
  have hid : Real.log ∘ Real.exp = id := funext Real.log_exp
  rw [hid, Option.map_id_fun, id]

theorem Gas.logDensity?_eq (h : Gas eos lnrho s) : logDensity? s = some lnrho :=
  logField?_of_hasEither h.density (map_log_map_exp lnrho)

theorem EntropyGas.stores (hop : op.KeepsShapes) (h : EntropyGas eos ss lnrho s)
    (htt : combine (temperatureOfEntropy eos) ss lnrho = .ok tt) : Stores op s .tt tt := by
  refine stores_of_steady hop (P := EntropyGas eos ss lnrho) (fun s h => h.fitted)
    (fun s q h hq => h.derive hop hq) (fun s h => ?_) h
  have hvalue : value s .tt = .ok tt := by
    rw [value, temperature, h.no_lnTT, h.entropy, h.logDensity?_eq, h.eos_eq]
    exact htt
  exact stored_of_value rfl h.fitted h.no_tt hvalue

theorem TemperatureGas.stores (hop : op.KeepsShapes) (h : TemperatureGas eos lnTT tt lnrho s)
    (hlog : tt.map Real.log = lnTT)
    (hss : combine (entropyOfTemperature eos) lnTT lnrho = .ok ss) : Stores op s .ss ss := by
  refine stores_of_steady hop (P := TemperatureGas eos lnTT tt lnrho) (fun s h => h.fitted)
    (fun s q h hq => h.derive hop hq) (fun s h => ?_) h
  have hlnTT : logTemperature? s = some lnTT := logField?_of_hasEither h.temperature hlog
  have hvalue : value s .ss = .ok ss := by
    rw [value, Thermodynamics.entropy, hlnTT, h.logDensity?_eq, h.eos_eq]
    exact hss
  exact stored_of_value rfl h.fitted h.no_ss hvalue

/-- The temperature derived from an entropy gives the entropy back, and the entropy derived from a
temperature gives the temperature back. -/
theorem entropy_temperature_inverse (hop : op.KeepsShapes) (heos : eos.Physical)
    (ss lnTT lnrho : Tensor ℝ) :
    (ss.shape = lnrho.shape → ∀ s, EntropyGas eos ss lnrho s → ∃ tt, Stores op s .tt tt ∧
      ∀ t, TemperatureGas eos (tt.map Real.log) tt lnrho t → Stores op t .ss ss) ∧
    (lnTT.shape = lnrho.shape → ∀ s, TemperatureGas eos lnTT (lnTT.map Real.exp) lnrho s →
      ∃ ss, Stores op s .ss ss ∧
        ∀ t, EntropyGas eos ss lnrho t → Stores op t .tt (lnTT.map Real.exp)) := by
  constructor
  · intro hshape s hs
    obtain ⟨tt, htt⟩ := exists_combine (temperatureOfEntropy eos) hshape
    refine ⟨tt, hs.stores hop htt, fun t ht => ht.stores hop rfl ?_⟩
    have hback := combine_undo htt (entropyOfTemperature_log heos)
    rwa [Tensor.map_id_of fun x => rfl] at hback
  · intro hshape s hs
    obtain ⟨ss, hss⟩ := exists_combine (entropyOfTemperature eos) hshape
    refine ⟨ss, hs.stores hop (map_log_map_exp lnTT) hss, fun t ht => ht.stores hop ?_⟩
    have hback := combine_undo (h := id) hss (temperatureOfEntropy_entropyOfTemperature heos)
    rwa [Tensor.map_id_of (f := id) fun x => rfl] at hback

end Derivation

/-- One cell of a run that writes the logarithm of its density, with a derived array. -/
noncomputable def densityCell (eos : EquationOfState ℝ) (lnrho : ℝ) (name : String)
    (x : Tensor ℝ) : Snapshot ℝ ℝ :=
  let s := Snapshot.ofContent {
    f := Tensor.ofFn [1, 1, 1, 1] fun _ => lnrho
    layout := .full
    coords := .uniform [0]
    time := 0
    spacing := .uniform 1
    shearOffset := none
    bounds := .uniform ⟨0, 1⟩
    metadata := {
      dims := ⟨.uniform 1, .uniform 0, 1, 0, .double, .uniform 1, .uniform 0⟩
      params := ⟨none, false, false, false, false, .cartesian, eos⟩
      index := .ofList [("lnrho", 1)] }
    persistence := .empty
    grid := none }
  { s with derived := Table.empty.insert name x }

section DensityCell

variable (eos : EquationOfState ℝ) (lnrho : ℝ) (name : String) (x : Tensor ℝ)

theorem views_densityCell : (densityCell eos lnrho name x).views.entries = [("lnrho", ⟨0, 1⟩)] := by
  have hviews : ((Table.ofList (Snapshot.scalarViews (.ofList [("lnrho", 1)]) 1)).insertMany
      (Snapshot.vectorViews (.ofList [("lnrho", 1)]) 1)).entries = [("lnrho", ⟨0, 1⟩)] := by
    decide +kernel
  exact hviews

theorem lookup?_densityCell {name' : String} (h : name' ≠ "lnrho") :
    (densityCell eos lnrho name x).lookup? name' = if name' = name then some x else none := by
  have hderived : (densityCell eos lnrho name x).derived = Table.empty.insert name x := rfl
  rw [Snapshot.lookup?, Snapshot.field?, Table.get?, views_densityCell,
    Table.lookup_cons_of_ne h, hderived, Table.get?_insert]
  rfl

theorem lookup?_densityCell_lnrho : (densityCell eos lnrho name x).lookup? "lnrho" =
    some (Tensor.ofFn [1, 1, 1] fun _ => lnrho) := by
  have hrow : (densityCell eos lnrho name x).view ⟨0, 1⟩ =
      Tensor.row (Tensor.ofFn [1, 1, 1, 1] fun _ => lnrho) 0 := rfl
  have hview : (densityCell eos lnrho name x).view ⟨0, 1⟩ =
      Tensor.ofFn [1, 1, 1] fun _ => lnrho := by
    refine Tensor.ext_get? rfl fun idx hidx => ?_
    have hinside : Cell.Inside [1, 1, 1, 1] (0 :: idx) := ⟨Nat.one_pos, hidx⟩
    rw [hrow, Tensor.row, Tensor.get?_ofFn, Tensor.get?_ofFn, Tensor.cell_ofFn _ hinside]
    rfl
  rw [Snapshot.lookup?, Snapshot.field?, Table.get?, views_densityCell, List.lookup_cons_self,
    Option.map_some, hview]

theorem fitted_densityCell (h : [1, 1, 1] <:+ x.shape) :
    (densityCell eos lnrho name x).Fitted := by
  intro name' t ht
  have hderived : (densityCell eos lnrho name x).derived = Table.empty.insert name x := rfl
  rw [hderived, Table.get?_insert] at ht
  split at ht
  · cases ht
    exact h
  · cases ht

end DensityCell

namespace Derivation

variable {eos : EquationOfState ℝ} {lnrho : ℝ} {name : String} {x : Tensor ℝ}

theorem gas_densityCell (h : [1, 1, 1] <:+ x.shape) :
    Gas eos (Tensor.ofFn [1, 1, 1] fun _ => lnrho) (densityCell eos lnrho name x) :=
  ⟨fitted_densityCell eos lnrho name x h, rfl, .inl (lookup?_densityCell_lnrho eos lnrho name x)⟩

theorem entropyGas_densityCell (h : [1, 1, 1] <:+ x.shape) :
    EntropyGas eos x (Tensor.ofFn [1, 1, 1] fun _ => lnrho) (densityCell eos lnrho "ss" x) where
  toGas := gas_densityCell h
  entropy := lookup?_densityCell eos lnrho "ss" x (by decide)
  no_lnTT := lookup?_densityCell eos lnrho "ss" x (by decide)
  no_tt := lookup?_densityCell eos lnrho "ss" x (by decide)

theorem temperatureGas_densityCell {lnTT : Tensor ℝ} (h : [1, 1, 1] <:+ x.shape) :
    TemperatureGas eos lnTT x (Tensor.ofFn [1, 1, 1] fun _ => lnrho)
      (densityCell eos lnrho "tt" x) where
  toGas := gas_densityCell h
  temperature := .inr ⟨lookup?_densityCell eos lnrho "tt" x (by decide),
    lookup?_densityCell eos lnrho "tt" x (by decide)⟩
  no_ss := lookup?_densityCell eos lnrho "tt" x (by decide)

/-- An array that is stored fits. -/
theorem Stores.suffix {op : CurlScheme ℝ ℝ} (hop : op.KeepsShapes) {s : Snapshot ℝ ℝ}
    {q : DerivedQuantity} {v : Tensor ℝ} (hs : s.Fitted) (h : Stores op s q v) :
    s.cellShape <:+ v.shape := by
  have hstored := (h [q] List.mem_cons_self).2
  rw [derive_eq_deriveEach] at hstored
  obtain ⟨hfitted, hext⟩ := run_spec hop hs [q].eraseDups
  have hsuffix := hfitted _ v hstored
  rwa [Snapshot.cellShape, hext.content_eq] at hsuffix

/-- An entropy of three, through the temperature and back, in a gas with constants that differ. -/
theorem entropy_temperature_inverse_densityCell :
    let op : CurlScheme ℝ ℝ := CentralDifference.scheme
    let eos : EquationOfState ℝ := ⟨4, 2, 2, 1⟩
    let x : Tensor ℝ := Tensor.ofFn [1, 1, 1] fun _ => 3
    eos.Physical ∧
    (∃ tt, Stores op (densityCell eos (-1) "ss" x) .tt tt ∧
      Stores op (densityCell eos (-1) "tt" tt) .ss x) ∧
    ∃ ss, Stores op (densityCell eos (-1) "tt" (x.map Real.exp)) .ss ss ∧
      Stores op (densityCell eos (-1) "ss" ss) .tt (x.map Real.exp) := by
  intro op eos x
  have heos : eos.Physical := ⟨four_pos, one_lt_two, two_pos, one_pos⟩
  have hop : op.KeepsShapes := CentralDifference.keepsShapes_scheme
  have hx : [1, 1, 1] <:+ x.shape := List.suffix_refl _
  have hinverse := entropy_temperature_inverse hop heos x x (Tensor.ofFn [1, 1, 1] fun _ => -1)
  obtain ⟨tt, htt, hback⟩ := hinverse.1 rfl _ (entropyGas_densityCell hx)
  obtain ⟨ss, hss, hforth⟩ := hinverse.2 rfl _ (temperatureGas_densityCell hx)
  have htt_shape := htt.suffix hop (fitted_densityCell eos (-1) "ss" x hx)
  have hss_shape := hss.suffix hop (fitted_densityCell eos (-1) "tt" (x.map Real.exp) hx)
  exact ⟨heos, ⟨tt, htt, hback _ (temperatureGas_densityCell htt_shape)⟩,
    ss, hss, hforth _ (entropyGas_densityCell hss_shape)⟩

end Derivation

end GridSnapshot
