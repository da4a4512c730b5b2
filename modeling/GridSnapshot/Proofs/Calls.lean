import GridSnapshot.Proofs.Outcome

namespace GridSnapshot

open Outcome

/-- A call that writes to a state as it goes. It can be refused, or stop at an index that the state
does not have. -/
abbrev Call (ε σ α : Type) := ExceptT (Halt ε) (StateM σ) α

namespace Call

variable {ε σ α β : Type}

def settle (r : Except ε α) : Call ε σ α := ExceptT.mk (pure (r.mapError .refused))

/-- Refuses the call for a fault. -/
def deny (fault : Option ε) : Call ε σ Unit :=
  match fault with
  | none => pure ()
  | some e => throw (.refused e)

def need (p : Prop) [Decidable p] : Call ε σ Unit := if p then pure () else throw .outOfRange

section Steps

variable {s s' : σ} {a : α} {e : ε} {r : Except ε α}

theorem yields_need {p : Prop} [Decidable p] (h : p) :
    Yields (need p : Call ε σ Unit) s () s := by
  rw [need, if_pos h]
  exact rfl

theorem yields_get : Yields (get : Call ε σ σ) s s s := rfl

theorem yields_modify {g : σ → σ} : Yields (modify g : Call ε σ Unit) s () (g s) := rfl

end Steps

/-- The step refuses the call for a fault, or does nothing. -/
def Checks (x : Call ε σ Unit) (s : σ) (fault : Option ε) : Prop :=
  x.run.run s = ((deny fault : Call ε σ Unit).run.run s)

section Checks

variable {x y : Call ε σ Unit} {s : σ} {fault fault' : Option ε} {e : ε}

theorem checks_deny : Checks (deny fault) s fault := rfl

theorem Checks.yields (h : Checks x s none) : Yields x s () s := h

theorem Checks.fails (h : Checks x s (some e)) : Fails x s (.refused e) s := h

theorem Checks.bind (hx : Checks x s fault) (hy : Checks y s fault') :
    Checks (x >>= fun _ => y) s (fault.or fault') := by
  cases fault with
  | none => exact hx.yields.run_bind.trans hy
  | some e => exact hx.fails.bind

/-- A check refuses the call, unless it finds nothing and the rest of the call refuses it. -/
theorem Checks.bind_fails {z : Unit → Call ε σ β} (hx : Checks x s fault)
    (h : fault.or fault' = some e) (hz : fault' = some e → Fails (z ()) s (.refused e) s) :
    Fails (x >>= z) s (.refused e) s := by
  cases fault with
  | none => exact hx.yields.bind_fails (hz h)
  | some e' =>
    cases h
    exact hx.fails.bind

/-- The first fault that a run of checks finds. -/
theorem checks_forM {xs : List β} {check : β → Call ε σ Unit} {fault : β → Option ε}
    (h : ∀ b ∈ xs, Checks (check b) s (fault b)) :
    Checks (xs.forM check) s (xs.findSome? fault) := by
  induction xs with
  | nil => exact rfl
  | cons b xs ih =>
    rw [List.forall_mem_cons] at h
    have hboth := h.1.bind (ih h.2)
    rw [List.findSome?_cons]
    cases hb : fault b with
    | none =>
      rw [hb] at hboth
      exact hboth
    | some e =>
      rw [hb] at hboth
      exact hboth

end Checks

section Kept

variable {P : σ → Prop}

theorem keeps_get : Keeps P (get : Call ε σ σ) := fun _ hs => hs

theorem keeps_modify {g : σ → σ} (h : ∀ s, P s → P (g s)) : Keeps P (modify g : Call ε σ Unit) := h

theorem keeps_need (p : Prop) [Decidable p] : Keeps P (need p : Call ε σ Unit) := by
  intro s hs
  unfold need
  split
  · exact hs
  · exact hs

theorem keeps_halt (h : Halt ε) : Keeps P (throw h : Call ε σ α) := fun _ hs => hs

theorem keeps_deny (fault : Option ε) : Keeps P (deny fault : Call ε σ Unit) := by
  intro s hs
  cases fault with
  | none => exact hs
  | some e => exact hs

theorem keeps_forM {xs : List β} {step : β → Call ε σ Unit} (h : ∀ b ∈ xs, Keeps P (step b)) :
    Keeps P (xs.forM step) := by
  induction xs with
  | nil => exact fun _ hs => hs
  | cons b xs ih =>
    rw [List.forall_mem_cons] at h
    exact h.1.bind fun _ => ih h.2

end Kept

end Call

end GridSnapshot
