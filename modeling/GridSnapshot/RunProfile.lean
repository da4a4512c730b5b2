import GridSnapshot.RunRecipe

namespace GridSnapshot.RunProfile

/-- A magnetised gas with velocity, vector potential, density and entropy, of smooth values. -/
def magneticGas (cells : PerAxis Nat) (p : Precision) : RunRecipe :=
  { RunRecipe.standard cells with
    evolved := ["ux", "uy", "uz", "ax", "ay", "az", "lnrho", "ss"]
    precision := p
    values := CellPattern.smooth.value }

/-- A cube of 32 cells a side in eight parts. -/
def reference (p : Precision) : RunRecipe :=
  { magneticGas (.uniform 32) p with processors := .uniform 2 }

/-- A flat box in 32 parts. -/
def stress (p : Precision) : RunRecipe :=
  { magneticGas ⟨64, 64, 32⟩ p with processors := ⟨4, 4, 2⟩ }

end GridSnapshot.RunProfile
