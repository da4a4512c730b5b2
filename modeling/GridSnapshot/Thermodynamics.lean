import GridSnapshot.Snapshot

namespace GridSnapshot.Thermodynamics

variable {ω α : Type} [RealOps ω] [RealOps α] [Narrowing ω α]

def temperatureOfEntropy (e : EquationOfState ω) (ss lnrho : α) : α :=
  RealOps.exp (narrow e.logTemperature + narrow (e.gamma / e.cp) * ss
    + narrow (e.gamma - RingOps.ofInt 1) * (lnrho - narrow e.logDensity))

def entropyOfTemperature (e : EquationOfState ω) (lnTT lnrho : α) : α :=
  narrow (e.cp / e.gamma) * (lnTT - narrow e.logTemperature
    - narrow (e.gamma - RingOps.ofInt 1) * (lnrho - narrow e.logDensity))

def pressureOfEntropy (e : EquationOfState ω) (ss lnrho : α) : α :=
  narrow (e.density * e.soundSpeed * e.soundSpeed / e.gamma)
    * RealOps.exp (narrow e.gamma * (ss + lnrho - narrow e.logDensity))

def pressureOfTemperature (e : EquationOfState ω) (lnTT lnrho : α) : α :=
  narrow (e.cp - e.cv) * RealOps.exp (lnTT + lnrho)

/-- A field, or the logarithm of another one that stands for it. -/
def logField? (s : Snapshot ω α) (logarithm plain : String) : Option (Tensor α) :=
  match s.lookup? logarithm with
  | some t => some t
  | none => (s.lookup? plain).map (·.map RealOps.log)

def logDensity? (s : Snapshot ω α) : Option (Tensor α) := logField? s "lnrho" "rho"

def logTemperature? (s : Snapshot ω α) : Option (Tensor α) := logField? s "lnTT" "tt"

def required (field : String) (alternatives : List String) (t : Option (Tensor α)) :
    Except DerivationFault (Tensor α) :=
  match t with
  | some t => .ok t
  | none => .error (.missingField field alternatives)

def combine (g : α → α → α) (s t : Tensor α) : Except DerivationFault (Tensor α) :=
  match Tensor.zipWith? g s t with
  | some r => .ok r
  | none => .error (.shapeMismatch (.inputs s.shape t.shape))

def density (s : Snapshot ω α) : Except DerivationFault (Tensor α) := do
  let lnrho ← required "rho" ["lnrho"] (s.lookup? "lnrho")
  .ok (lnrho.map RealOps.exp)

def temperature (s : Snapshot ω α) : Except DerivationFault (Tensor α) := do
  match s.lookup? "lnTT" with
  | some lnTT => .ok (lnTT.map RealOps.exp)
  | none =>
    let ss ← required "tt" ["ss"] (s.lookup? "ss")
    let lnrho ← required "tt" ["lnrho", "rho"] (logDensity? s)
    combine (temperatureOfEntropy s.metadata.params.eos) ss lnrho

def entropy (s : Snapshot ω α) : Except DerivationFault (Tensor α) := do
  let lnTT ← required "ss" ["lnTT", "tt"] (logTemperature? s)
  let lnrho ← required "ss" ["lnrho", "rho"] (logDensity? s)
  combine (entropyOfTemperature s.metadata.params.eos) lnTT lnrho

def pressure (s : Snapshot ω α) : Except DerivationFault (Tensor α) := do
  let lnrho ← required "pp" ["lnrho", "rho"] (logDensity? s)
  match s.lookup? "ss" with
  | some ss => combine (pressureOfEntropy s.metadata.params.eos) ss lnrho
  | none =>
    let lnTT ← required "pp" ["ss", "lnTT", "tt"] (logTemperature? s)
    combine (pressureOfTemperature s.metadata.params.eos) lnTT lnrho

end GridSnapshot.Thermodynamics
