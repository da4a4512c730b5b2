namespace GridSnapshot.Outcome

variable {ε ε' α β σ : Type}

theorem bind_eq_ok_iff {x : Except ε α} {f : α → Except ε β} {b : β} :
    (x >>= f) = .ok b ↔ ∃ a, x = .ok a ∧ f a = .ok b := by
  cases x with
  | error e => simp only [bind, Except.bind, reduceCtorEq, false_and, exists_false]
  | ok a => simp only [bind, Except.bind, Except.ok.injEq, exists_eq_left']

theorem mapError_eq_ok_iff {x : Except ε α} {f : ε → ε'} {a : α} :
    x.mapError f = .ok a ↔ x = .ok a := by
  cases x with
  | error e => exact ⟨fun h => (nomatch h), fun h => (nomatch h)⟩
  | ok b => exact ⟨fun h => by cases h; rfl, fun h => by cases h; rfl⟩

theorem mapError_eq_error_iff {x : Except ε α} {f : ε → ε'} {e' : ε'} :
    x.mapError f = .error e' ↔ ∃ e, x = .error e ∧ f e = e' := by
  cases x with
  | error e =>
    constructor
    · intro h
      exact ⟨e, rfl, Except.error.inj h⟩
    · intro hex
      obtain ⟨_, h, rfl⟩ := hex
      cases h
      rfl
  | ok b => exact ⟨fun h => (nomatch h), fun ⟨_, h, _⟩ => (nomatch h)⟩

theorem map_eq_error_iff {x : Except ε α} {f : α → β} {e : ε} :
    x.map f = .error e ↔ x = .error e := by
  cases x with
  | error e' => exact ⟨fun h => by cases h; rfl, fun h => by cases h; rfl⟩
  | ok a => exact ⟨fun h => (nomatch h), fun h => (nomatch h)⟩

theorem exists_error_iff {x : Except ε α} : (∃ e, x = .error e) ↔ ¬ ∃ a, x = .ok a := by
  cases x with
  | error e => exact ⟨fun _ ⟨_, h⟩ => (nomatch h), fun _ => ⟨e, rfl⟩⟩
  | ok a => exact ⟨fun ⟨_, h⟩ => (nomatch h), fun h => absurd ⟨a, rfl⟩ h⟩

theorem toOption_eq_some_iff {x : Except ε α} {a : α} : x.toOption = some a ↔ x = .ok a := by
  cases x with
  | error e => exact ⟨fun h => (nomatch h), fun h => (nomatch h)⟩
  | ok b => exact ⟨fun h => by cases h; rfl, fun h => by cases h; rfl⟩

variable {α' β' : Type}

theorem bind_map {x : Except ε α} {f : α → Except ε β} {h : β → β'} :
    (x >>= f).map h = x >>= fun a => (f a).map h := by
  cases x with
  | error e => rfl
  | ok a => rfl

/-- Two steps after each other give the image of what they gave, if each of them does. -/
theorem bind_eq_map {x : Except ε α} {x' : Except ε α'} {f : α → Except ε β}
    {f' : α' → Except ε β'} {g : α → α'} {h : β → β'} (hx : x' = x.map g)
    (hf : ∀ a, f' (g a) = (f a).map h) : (x' >>= f') = (x >>= f).map h := by
  subst hx
  cases x with
  | error e => rfl
  | ok a => exact hf a

theorem mapError_map {x : Except ε α} {f : ε → ε'} {h : α → α'} :
    (x.map h).mapError f = (x.mapError f).map h := by
  cases x with
  | error e => rfl
  | ok a => rfl

theorem mapError_bind {x : Except ε α} {f : α → Except ε β} {g : ε → ε'} :
    (x >>= f).mapError g = x.mapError g >>= fun a => (f a).mapError g := by
  cases x with
  | error e => rfl
  | ok a => rfl

/-- A step goes well from one state and ends in another. -/
def Yields (x : ExceptT ε (StateM σ) α) (s : σ) (a : α) (s' : σ) : Prop :=
  x.run.run s = (.ok a, s')

variable {x : ExceptT ε (StateM σ) α} {f : α → ExceptT ε (StateM σ) β} {s s' : σ} {a b : α}

theorem yields_pure_iff : Yields (pure a : ExceptT ε (StateM σ) α) s b s' ↔ b = a ∧ s' = s := by
  constructor
  · intro h
    cases h
    exact ⟨rfl, rfl⟩
  · intro hboth
    obtain ⟨rfl, rfl⟩ := hboth
    rfl

theorem yields_bind_iff {c : β} :
    Yields (x >>= f) s c s' ↔ ∃ a t, Yields x s a t ∧ Yields (f a) t c s' := by
  unfold Yields
  simp only [ExceptT.run_bind, StateT.run_bind]
  generalize x.run.run s = first
  obtain ⟨outcome, t⟩ : Except ε α × σ := first
  cases outcome with
  | error e =>
    constructor
    · intro h
      cases h
    · intro hex
      obtain ⟨a, t, h, -⟩ := hex
      cases h
  | ok a =>
    constructor
    · intro h
      exact ⟨a, t, rfl, h⟩
    · intro hex
      obtain ⟨a, t, h, hf⟩ := hex
      cases h
      exact hf

theorem Yields.bind {c : β} {t : σ} (h : Yields x s a t) (hf : Yields (f a) t c s') :
    Yields (x >>= f) s c s' := yields_bind_iff.mpr ⟨a, t, h, hf⟩

theorem Yields.run_bind {t : σ} (h : Yields x s a t) :
    (x >>= f).run.run s = (f a).run.run t := by
  unfold Yields at h
  simp only [ExceptT.run_bind, StateT.run_bind, h]
  rfl

/-- A step fails from one state and leaves another. -/
def Fails (x : ExceptT ε (StateM σ) α) (s : σ) (e : ε) (s' : σ) : Prop :=
  x.run.run s = (.error e, s')

theorem Fails.bind {e : ε} (h : Fails x s e s') : Fails (x >>= f) s e s' := by
  unfold Fails at h ⊢
  simp only [ExceptT.run_bind, StateT.run_bind, h]
  rfl

theorem Yields.bind_fails {e : ε} {t : σ} (h : Yields x s a t) (hf : Fails (f a) t e s') :
    Fails (x >>= f) s e s' := by
  unfold Fails at hf ⊢
  rw [h.run_bind, hf]

theorem Yields.unique {t : σ} (h : Yields x s a s') (h' : Yields x s b t) : a = b ∧ s' = t := by
  cases h.symm.trans h'
  exact ⟨rfl, rfl⟩

theorem Yields.not_fails {e : ε} {t : σ} (h : Yields x s a s') : ¬ Fails x s e t := by
  intro h'
  cases h.symm.trans h'

theorem fails_bind_iff {e : ε} : Fails (x >>= f) s e s' ↔
    Fails x s e s' ∨ ∃ a t, Yields x s a t ∧ Fails (f a) t e s' := by
  constructor
  · intro h
    unfold Fails Yields at *
    simp only [ExceptT.run_bind, StateT.run_bind] at h
    generalize x.run.run s = first at h ⊢
    obtain ⟨outcome, t⟩ : Except ε α × σ := first
    cases outcome with
    | error e' =>
      cases h
      exact .inl rfl
    | ok a => exact .inr ⟨a, t, rfl, h⟩
  · rintro (h | ⟨a, t, h, hf⟩)
    · exact h.bind
    · exact h.bind_fails hf

theorem exists_yields_iff : (∃ s', Yields x s a s') ↔ (x.run.run s).1 = .ok a := by
  constructor
  · rintro ⟨s', h⟩
    rw [h]
  · intro h
    exact ⟨_, Prod.ext h rfl⟩

theorem exists_fails_iff {e : ε} : (∃ s', Fails x s e s') ↔ (x.run.run s).1 = .error e := by
  constructor
  · rintro ⟨s', h⟩
    rw [h]
  · intro h
    exact ⟨_, Prod.ext h rfl⟩

/-- What holds before a step holds after it, also when it fails. -/
def Keeps (P : σ → Prop) (x : ExceptT ε (StateM σ) α) : Prop := ∀ s, P s → P (x.run.run s).2

theorem Keeps.bind {P : σ → Prop} (hx : Keeps P x) (hf : ∀ a, Keeps P (f a)) :
    Keeps P (x >>= f) := by
  intro s hs
  have hafter := hx s hs
  simp only [ExceptT.run_bind, StateT.run_bind]
  generalize x.run.run s = first at hafter ⊢
  obtain ⟨outcome, t⟩ : Except ε α × σ := first
  cases outcome with
  | error e => exact hafter
  | ok a => exact hf a t hafter

/-- How a step that looks at its indices can end early. -/
inductive Halt (ε : Type) where
  | refused (e : ε)
  | outOfRange

inductive Together {γ : Type} (R : α → γ → Prop) : Except ε α → Except ε' γ → Prop where
  | ok {a c} : R a c → Together R (.ok a) (.ok c)
  | error {e e'} : Together R (.error e) (.error e')

namespace Together

variable {γ δ ε₁ ε₂ : Type} {R : α → γ → Prop} {S : β → δ → Prop} {x : Except ε α}
  {y : Except ε' γ}

theorem exists_right {a : α} (h : Together (ε := ε) R (.ok a) y) : ∃ c, y = .ok c ∧ R a c := by
  cases h with
  | ok hac => exact ⟨_, rfl, hac⟩

theorem bind {f : α → Except ε β} {g : γ → Except ε' δ} (h : Together R x y)
    (hfg : ∀ a c, R a c → Together S (f a) (g c)) : Together S (x >>= f) (y >>= g) := by
  cases h with
  | ok hac => exact hfg _ _ hac
  | error => exact .error

theorem map {f : α → β} {g : γ → δ} (h : Together R x y) (hfg : ∀ a c, R a c → S (f a) (g c)) :
    Together S (f <$> x) (g <$> y) := by
  cases h with
  | ok hac => exact .ok (hfg _ _ hac)
  | error => exact .error

theorem mapError {f : ε → ε₁} {g : ε' → ε₂} (h : Together R x y) :
    Together R (x.mapError f) (y.mapError g) := by
  cases h with
  | ok hac => exact .ok hac
  | error => exact .error

end Together

/-- Two steps of which neither fails alone, with related failures. -/
inductive Paired {γ : Type} (R : α → γ → Prop) (S : ε → ε' → Prop) :
    Except ε α → Except ε' γ → Prop where
  | ok {a c} : R a c → Paired R S (.ok a) (.ok c)
  | error {e e'} : S e e' → Paired R S (.error e) (.error e')

theorem Paired.bind {γ δ : Type} {R : α → γ → Prop} {R' : β → δ → Prop} {S : ε → ε' → Prop}
    {x : Except ε α} {y : Except ε' γ} {f : α → Except ε β} {g : γ → Except ε' δ}
    (h : Paired R S x y) (hfg : ∀ a c, R a c → Paired R' S (f a) (g c)) :
    Paired R' S (x >>= f) (y >>= g) := by
  cases h with
  | ok hac => exact hfg _ _ hac
  | error he => exact .error he

end GridSnapshot.Outcome
