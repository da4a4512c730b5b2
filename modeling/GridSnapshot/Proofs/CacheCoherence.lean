import GridSnapshot.Proofs.CacheLookups

namespace GridSnapshot

open Outcome
open MetadataSupplier (answer)

variable {σ ω : Type}

/-- The answers about a run are the same at all times and by all paths to its place. -/
structure MetadataSupplier.Constant (src : MetadataSupplier σ ω) (place : Place)
    (res : Resolution) (m : RunMetadata ω)
    (a : (q : Question) → Except MetadataFault (q.Reply ω)) : Prop where
  metadata_eq : ∀ dir : Directory, dir.place = place →
    ∀ w, answer (src.runMetadata dir.path res) w = .ok m
  reply_eq : ∀ dir : Directory, dir.place = place → ∀ w q, answer (src.reply dir res m q) w = a q

namespace MetadataCache

/-- What can be done with a cache. -/
inductive Call where
  | lookup (dir : Directory) (res : Resolution) (q : Question)
  | invalidate (place : Place)
  | clear

namespace Call

/-- The call drops what is kept for a place. -/
def Drops : Call → Place → Prop
  | lookup .., _ => False
  | invalidate place, place' => place = place'
  | clear, _ => True

/-- The call has the source asked the question, if its answer is not kept. Whatever is looked up of
a run, its metadata are asked for. -/
def Asks : Call → Place × Resolution → Question → Prop
  | lookup dir res q, key, q' => (dir.place, res) = key ∧ (q' = q ∨ q' = .run)
  | invalidate _, _, _ => False
  | clear, _, _ => False

end Call

def perform (src : MetadataSupplier σ ω) (s : MetadataCache ω × σ) : Call → MetadataCache ω × σ
  | .lookup dir res q => ((lookup src dir res q).run.run s).2
  | .invalidate place => ((s.1.invalidate place).2, s.2)
  | .clear => (s.1.clear, s.2)

def performAll (src : MetadataSupplier σ ω) (calls : List Call) (s : MetadataCache ω × σ) :
    MetadataCache ω × σ :=
  calls.foldl (perform src) s

variable {src : MetadataSupplier σ ω} {c c' : MetadataCache ω} {s s' : MetadataCache ω × σ}
  {w w' : σ} {dir : Directory} {res : Resolution} {q q' : Question}
  {key key' : Place × Resolution} {e : MetadataFault} {place : Place}

theorem get?_invalidate (c : MetadataCache ω) (place : Place) (key : Place × Resolution) :
    (c.invalidate place).2.runs.get? key = if key.1 = place then none else c.runs.get? key := by
  refine (Table.get?_filter _ c.runs key).trans ?_
  by_cases h : key.1 = place <;> simp [h]

theorem invalidate_eq_true_iff :
    (c.invalidate place).1 = true ↔ ∃ res r, c.runs.get? (place, res) = some r := by
  refine decide_eq_true_iff.trans ((Table.size_filter_ne_iff _ _).trans ?_)
  constructor
  · rintro ⟨⟨place', res⟩, hmem, hplace⟩
    have heq : place' = place := by simpa using hplace
    subst heq
    exact ⟨res, Table.mem_keys_iff.mp hmem⟩
  · rintro ⟨res, r, hget⟩
    exact ⟨(place, res), Table.mem_keys_iff.mpr ⟨r, hget⟩, by simp⟩

theorem get?_clear (c : MetadataCache ω) (key : Place × Resolution) :
    c.clear.runs.get? key = none := rfl

theorem kept_invalidate_of_ne (h : key.1 ≠ place) (q : Question) :
    (c.invalidate place).2.kept key q = c.kept key q := by
  rw [kept, get?_invalidate, if_neg h, kept]

theorem yields_of_kept {v : q.Reply ω} (h : c.kept (dir.place, res) q = some v)
    (src : MetadataSupplier σ ω) (w : σ) :
    ∃ c', Yields (lookup src dir res q) (c, w) v (c', w) := by
  obtain ⟨reply, c', w', hrun, hconsult, -⟩ := lookup_spec src c w dir res q
  rw [consult, h] at hconsult
  cases hconsult
  exact ⟨c', hrun⟩

theorem kept_perform_lookup {v : q'.Reply ω} (h : s.1.kept key q' = some v) (src)
    (dir : Directory) (res : Resolution) (q : Question) :
    (perform src s (.lookup dir res q)).1.kept key q' = some v := by
  obtain ⟨reply, c', w', hrun, hconsult, hlearned⟩ := lookup_spec src s.1 s.2 dir res q
  rw [perform, hrun]
  by_cases hkey : key = (dir.place, res)
  · subst hkey
    by_cases hmetadata : q' = .run
    · subst hmetadata
      rw [hlearned.metadata_eq, h, Option.some_or]
    · by_cases hq : q' = q
      · subst hq
        rw [consult, h] at hconsult
        cases hconsult
        exact hlearned.reply_eq
      · rw [hlearned.rest_eq q' hq hmetadata, h]
  · rw [kept, hlearned.other_eq key hkey]
    exact h

theorem kept_perform_lookup_of_not_asks (h : ¬ (Call.lookup dir res q).Asks key q') :
    (perform src s (.lookup dir res q)).1.kept key q' = s.1.kept key q' := by
  obtain ⟨reply, c', w', hrun, -, hlearned⟩ := lookup_spec src s.1 s.2 dir res q
  rw [perform, hrun]
  by_cases hkey : (dir.place, res) = key
  · subst hkey
    obtain ⟨hq, hmetadata⟩ := not_or.mp fun hask => h ⟨rfl, hask⟩
    exact hlearned.rest_eq q' hq hmetadata
  · rw [kept, kept, hlearned.other_eq key (Ne.symm hkey)]

theorem kept_performAll {v : q.Reply ω} (src : MetadataSupplier σ ω) {calls : List Call}
    (hcalls : ∀ call ∈ calls, ¬ call.Drops key.1) (h : s.1.kept key q = some v) :
    (performAll src calls s).1.kept key q = some v := by
  induction calls generalizing s with
  | nil => exact h
  | cons call calls ih =>
    refine ih (fun call' hmem => hcalls call' (List.mem_cons_of_mem _ hmem)) ?_
    have hcall := hcalls call List.mem_cons_self
    cases call with
    | lookup dir res q' => exact kept_perform_lookup h src dir res q'
    | invalidate place => exact (kept_invalidate_of_ne (Ne.symm hcall) q).trans h
    | clear => exact absurd trivial hcall

theorem kept_performAll_of_not_asks (src : MetadataSupplier σ ω) {calls : List Call}
    (hcalls : ∀ call ∈ calls, ¬ call.Asks key q) (h : s.1.kept key q = none) :
    (performAll src calls s).1.kept key q = none := by
  induction calls generalizing s with
  | nil => exact h
  | cons call calls ih =>
    refine ih (fun call' hmem => hcalls call' (List.mem_cons_of_mem _ hmem)) ?_
    have hcall := hcalls call List.mem_cons_self
    cases call with
    | lookup dir res q' => exact (kept_perform_lookup_of_not_asks hcall).trans h
    | invalidate place =>
      by_cases hplace : key.1 = place
      · exact kept_of_get?_eq_none ((get?_invalidate ..).trans (if_pos hplace)) q
      · exact (kept_invalidate_of_ne hplace q).trans h
    | clear => rfl

/-- What is kept of a run is what the source says. -/
def Agrees (c : MetadataCache ω) (key : Place × Resolution)
    (a : (q : Question) → Except MetadataFault (q.Reply ω)) : Prop :=
  ∀ q v, c.kept key q = some v → a q = .ok v

section Constant

variable {m : RunMetadata ω} {a : (q : Question) → Except MetadataFault (q.Reply ω)}

theorem consult_of_agrees (hconstant : src.Constant dir.place res m a)
    (h : c.Agrees (dir.place, res) a) (w : σ) (q : Question) :
    answer (c.consult src dir res q) w = a q := by
  have hrun : a .run = .ok m := (hconstant.reply_eq dir rfl w .run).symm
  rw [consult]
  cases hkept : c.kept (dir.place, res) q with
  | some v => exact (h q v hkept).symm
  | none =>
    cases hmetadata : c.kept (dir.place, res) .run with
    | some m' =>
      have heq : m' = m := Except.ok.inj ((h .run m' hmetadata).symm.trans hrun)
      subst heq
      exact hconstant.reply_eq dir rfl w q
    | none =>
      have hm : (src.runMetadata dir.path res).run w =
          (.ok m, ((src.runMetadata dir.path res).run w).2) :=
        Prod.ext (hconstant.metadata_eq dir rfl w) rfl
      exact (congrArg Prod.fst (MetadataSupplier.run_fresh_of_ok hm q)).trans
        (hconstant.reply_eq dir rfl _ q)

theorem lookup_of_agrees (hconstant : src.Constant dir.place res m a)
    (h : c.Agrees (dir.place, res) a) (w : σ) (q : Question) :
    ((lookup src dir res q).run.run (c, w)).1 = a q := by
  obtain ⟨reply, c', w', hrun, hconsult, -⟩ := lookup_spec src c w dir res q
  rw [hrun, ← consult_of_agrees hconstant h w q, answer, hconsult]

theorem Agrees.perform (hconstant : src.Constant place res m a)
    (h : s.1.Agrees (place, res) a) (call : Call) :
    (perform src s call).1.Agrees (place, res) a := by
  intro q' v hv
  cases call with
  | lookup dir res' q =>
    by_cases hkey : (place, res) = (dir.place, res')
    · cases hkey
      have hreply := lookup_of_agrees hconstant h s.2 q
      obtain ⟨reply, c', w', hrun, -, hlearned⟩ := lookup_spec src s.1 s.2 dir res q
      rw [hrun] at hreply
      rw [MetadataCache.perform, hrun] at hv
      by_cases hq : q' = q
      · subst hq
        rw [hlearned.reply_eq, toOption_eq_some_iff] at hv
        exact hreply.symm.trans hv
      · by_cases hmetadata : q' = .run
        · subst hmetadata
          rw [hlearned.metadata_eq, Option.or_eq_some_iff] at hv
          obtain hkept | ⟨-, hasked⟩ := hv
          · exact h .run v hkept
          · have hm := (hconstant.metadata_eq dir rfl s.2).symm.trans
              (toOption_eq_some_iff.mp hasked)
            rw [← Except.ok.inj hm]
            exact (hconstant.reply_eq dir rfl s.2 .run).symm
        · exact h q' v ((hlearned.rest_eq q' hq hmetadata).symm.trans hv)
    · have hasks : ¬ (Call.lookup dir res' q).Asks (place, res) q' := fun hask =>
        hkey hask.1.symm
      exact h q' v ((kept_perform_lookup_of_not_asks hasks).symm.trans hv)
  | invalidate place' =>
    by_cases hplace : place = place'
    · rw [MetadataCache.perform,
        kept_of_get?_eq_none ((get?_invalidate ..).trans (if_pos hplace))] at hv
      cases hv
    · exact h q' v ((kept_invalidate_of_ne hplace q').symm.trans hv)
  | clear => cases hv

theorem Agrees.performAll (hconstant : src.Constant place res m a)
    (h : s.1.Agrees (place, res) a) (calls : List Call) :
    (performAll src calls s).1.Agrees (place, res) a := by
  induction calls generalizing s with
  | nil => exact h
  | cons call calls ih => exact ih (h.perform hconstant call)

end Constant

/-- A cache in front of a source whose answers may change from call to call. -/
structure Coherent (src : MetadataSupplier σ ω) : Prop where
  /-- An answer stays through all calls that do not drop it. It is given by all paths to the place,
  whatever source there is, and the source is left as it is. -/
  remembers : ∀ s s' dir res q v, Yields (lookup src dir res q) s v s' →
    ∀ calls : List Call, (∀ call ∈ calls, ¬ call.Drops dir.place) →
    ∀ (src' : MetadataSupplier σ ω) dir', dir'.place = dir.place →
      ∃ c, Yields (lookup src' dir' res q) (performAll src calls s') v
        (c, (performAll src calls s').2)
  /-- An answer that is not kept is what the source says now, and so is a failure. -/
  asks : ∀ c w dir res q m, c.kept (dir.place, res) q = none →
    c.kept (dir.place, res) .run = some m →
    ∃ reply c' w', (lookup src dir res q).run.run (c, w) = (reply, (c', w')) ∧
      (src.reply dir res m q).run w = (reply, w')
  /-- That there is no grid is an answer; any other failure is none. -/
  reply_grid : ∀ dir res m w, (src.reply dir res m .grid).run w =
    match (src.grid dir.path m.dims).run w with
    | (.ok g, w') => (.ok (some g), w')
    | (.error (.noGrid _), w') => (.ok none, w')
    | (.error e, w') => (.error e, w')
  /-- Where there is no entry, the source is asked for the metadata first. -/
  asks_fresh : ∀ c w dir res q, c.runs.get? (dir.place, res) = none →
    ∃ reply c' w', (lookup src dir res q).run.run (c, w) = (reply, (c', w')) ∧
      (src.fresh dir res q).run w = (reply, w')
  /-- A failure is not kept, so the source is asked again. -/
  forgets : ∀ s s' dir res q e, Fails (lookup src dir res q) s e s' →
    ∀ calls : List Call, (∀ call ∈ calls, ¬ call.Asks (dir.place, res) q) →
      (performAll src calls s').1.kept (dir.place, res) q = none
  /-- A lookup changes nothing that is kept, even if it fails. -/
  keeps : ∀ s dir res q key q' v, s.1.kept key q' = some v →
    (perform src s (.lookup dir res q)).1.kept key q' = some v
  invalidate_get? : ∀ (c : MetadataCache ω) place key, (c.invalidate place).2.runs.get? key =
    if key.1 = place then none else c.runs.get? key
  invalidate_iff : ∀ (c : MetadataCache ω) place, (c.invalidate place).1 = true ↔
    ∃ res r, c.runs.get? (place, res) = some r
  clear_get? : ∀ (c : MetadataCache ω) key, c.clear.runs.get? key = none
  /-- In front of a source whose answers do not change nobody notices the cache. -/
  transparent : ∀ place res m a, src.Constant place res m a → ∀ (calls : List Call) w dir,
    dir.place = place → ∀ q,
      ((lookup src dir res q).run.run (performAll src calls (.empty, w))).1 = a q

theorem coherent (src : MetadataSupplier σ ω) : Coherent src where
  remembers s s' dir res q v h calls hcalls src' dir' hplace := by
    obtain ⟨reply, c', w', hrun, -, hlearned⟩ := lookup_spec src s.1 s.2 dir res q
    cases hrun.symm.trans h
    have hkept : (performAll src calls (c', w')).1.kept (dir.place, res) q = some v :=
      kept_performAll src hcalls hlearned.reply_eq
    rw [← hplace] at hkept
    exact yields_of_kept hkept src' _
  asks c w dir res q m hkept hmetadata := by
    obtain ⟨reply, c', w', hrun, hconsult, -⟩ := lookup_spec src c w dir res q
    rw [consult, hkept, hmetadata] at hconsult
    exact ⟨reply, c', w', hrun, hconsult⟩
  reply_grid dir res m w := by
    refine (StateT.run_map ..).trans ?_
    rcases (src.grid dir.path m.dims).run w with ⟨e | g, w'⟩
    · cases e <;> rfl
    · rfl
  asks_fresh c w dir res q hget := by
    obtain ⟨reply, c', w', hrun, hconsult, -⟩ := lookup_spec src c w dir res q
    rw [consult, kept_of_get?_eq_none hget, kept_of_get?_eq_none hget] at hconsult
    exact ⟨reply, c', w', hrun, hconsult⟩
  forgets s s' dir res q e h calls hcalls := by
    obtain ⟨reply, c', w', hrun, -, hlearned⟩ := lookup_spec src s.1 s.2 dir res q
    cases hrun.symm.trans h
    exact kept_performAll_of_not_asks src hcalls hlearned.reply_eq
  keeps s dir res q key q' v h := kept_perform_lookup h src dir res q
  invalidate_get? := get?_invalidate
  invalidate_iff _ _ := invalidate_eq_true_iff
  clear_get? := get?_clear
  transparent place res m a hconstant calls w dir hplace q := by
    subst hplace
    have hempty : (empty : MetadataCache ω).Agrees (dir.place, res) a := by
      intro q v hkept
      cases hkept
    exact lookup_of_agrees hconstant
      (Agrees.performAll (s := (.empty, w)) hconstant hempty calls) _ q

/-- The metadata of a run that evolves the given number of variables. -/
def growingRun (n : Nat) : RunMetadata Float :=
  ⟨⟨⟨1, 1, 1⟩, ⟨0, 0, 0⟩, n, 0, .double, ⟨1, 1, 1⟩, ⟨0, 0, 0⟩⟩, .standard, .empty⟩

/-- A source that finds one variable more each time it is asked for the metadata. -/
def growingSource : MetadataSupplier Nat Float where
  runMetadata _ _ := fun n => (.ok (growingRun n), n + 1)
  processorDims _ n _ := pure (.error (.unknownProcessor n))
  grid dir _ := pure (.error (.noGrid dir))

def growingPlace : Directory := ⟨⟨"run"⟩, ["run"]⟩

/-- The first answer stays until the place is invalidated. -/
theorem coherent_growingSource : ∃ s c c',
    Yields (lookup growingSource growingPlace .standard .run) (.empty, 0) (growingRun 0) s ∧
    Yields (lookup growingSource growingPlace .standard .run)
      (performAll growingSource [.lookup growingPlace .standard .grid,
        .lookup growingPlace .standard (.processor 3), .invalidate ["other"]] s)
      (growingRun 0) (c, 1) ∧
    Yields (lookup growingSource growingPlace .standard .run)
      (performAll growingSource [.lookup growingPlace .standard .grid,
        .invalidate growingPlace.place] s) (growingRun 1) (c', 2) := by
  have hfirst : Yields (lookup growingSource growingPlace .standard .run) (.empty, 0)
      (growingRun 0) _ := rfl
  obtain ⟨c, hsame⟩ := (coherent growingSource).remembers _ _ _ _ _ _ hfirst
    [.lookup growingPlace .standard .grid, .lookup growingPlace .standard (.processor 3),
      .invalidate ["other"]] (by simp [Call.Drops, growingPlace]) growingSource growingPlace rfl
  exact ⟨_, c, _, hfirst, hsame, rfl⟩

end MetadataCache

end GridSnapshot
