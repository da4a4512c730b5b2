import GridSnapshot.Proofs.CacheCoherence

namespace GridSnapshot

open Outcome

variable {σ ω α : Type}

namespace MetadataSupplier

/-- A question that is counted when it is put. -/
def counted (question : StateM σ (Except MetadataFault α)) :
    StateM (σ × Nat) (Except MetadataFault α) :=
  fun (w, n) => let (answer, w') := question.run w; (answer, (w', n + 1))

/-- A source that counts what it is asked. -/
def metered (src : MetadataSupplier σ ω) : MetadataSupplier (σ × Nat) ω where
  runMetadata p res := counted (src.runMetadata p res)
  processorDims p n res := counted (src.processorDims p n res)
  grid p d := counted (src.grid p d)

variable {src : MetadataSupplier σ ω} {dir : Directory} {res : Resolution} {q : Question}
  {m : RunMetadata ω} {w : σ}

/-- The second question has the answer of the first, and moves the meter by the given number. -/
def Meters (x : StateM σ (Except MetadataFault α)) (y : StateM (σ × Nat) (Except MetadataFault α))
    (w : σ) (k : Nat) : Prop :=
  ∀ n, y.run (w, n) = ((x.run w).1, ((x.run w).2, n + k))

theorem meters_reply : Meters (src.reply dir res m q) (src.metered.reply dir res m q) w
    (if q = .run then 0 else 1) := by
  intro n
  cases q <;> rfl

theorem meters_counted (x : StateM σ (Except MetadataFault α)) (w : σ) :
    Meters x (counted x) w 1 := fun _ => rfl

/-- Where nothing is known of a run, its metadata are asked for at least. -/
theorem meters_fresh (src : MetadataSupplier σ ω) (dir : Directory) (res : Resolution)
    (q : Question) (w : σ) :
    ∃ k, 0 < k ∧ Meters (src.fresh dir res q) (src.metered.fresh dir res q) w k := by
  have hmetered := meters_counted (src.runMetadata dir.path res) w
  rcases hm : (src.runMetadata dir.path res).run w with ⟨e | m, w'⟩
  · rw [Meters, hm] at hmetered
    refine ⟨1, Nat.one_pos, fun n => ?_⟩
    rw [run_fresh_of_error hm, run_fresh_of_error (hmetered n)]
  · rw [Meters, hm] at hmetered
    refine ⟨1 + if q = .run then 0 else 1, by omega, fun n => ?_⟩
    rw [run_fresh_of_ok hm, run_fresh_of_ok (hmetered n), meters_reply, Nat.add_assoc]

end MetadataSupplier

open MetadataSupplier (Meters)

namespace MetadataCache

/-- A call with the state that it finds. -/
structure Visit (σ ω : Type) where
  call : Call
  before : MetadataCache ω × σ

def visits (src : MetadataSupplier σ ω) : List Call → MetadataCache ω × σ → List (Visit σ ω)
  | [], _ => []
  | call :: calls, s => ⟨call, s⟩ :: visits src calls (perform src s call)

def Call.isLookup : Call → Bool
  | lookup .. => true
  | _ => false

namespace Visit

/-- How often the source is asked during the call. -/
def questions (src : MetadataSupplier σ ω) (t : Visit σ ω) : Nat :=
  (perform src.metered (t.before.1, (t.before.2, 0)) t.call).2.2

/-- The source is asked at least once. -/
def consults (src : MetadataSupplier σ ω) (t : Visit σ ω) : Bool := 0 < t.questions src

/-- A lookup that is answered without the source. -/
def isServed (src : MetadataSupplier σ ω) (t : Visit σ ω) : Bool :=
  t.call.isLookup && !t.consults src

/-- A lookup about a run that has an entry. -/
def findsRun (t : Visit σ ω) : Bool :=
  match t.call with
  | .lookup dir res _ => t.before.1.runs.contains (dir.place, res)
  | _ => false

/-- The source is asked about a part of a run that has an entry. -/
def asksPartOnly (src : MetadataSupplier σ ω) (t : Visit σ ω) : Bool :=
  t.findsRun && t.consults src

/-- The source is asked about a part of a run and answers. -/
def gainsPart (src : MetadataSupplier σ ω) (t : Visit σ ω) : Bool :=
  match t.call with
  | .lookup dir res q =>
    q ≠ .run && t.consults src && ((lookup src dir res q).run.run t.before).1.isOk
  | _ => false

end Visit

variable {src : MetadataSupplier σ ω} {c : MetadataCache ω} {s : MetadataCache ω × σ} {w : σ}
  {dir : Directory} {res : Resolution} {q : Question} {r : CachedRun ω}

/-- What a lookup has to ask is the same for both sources, and the meter moves if it is anything. -/
theorem meters_consult (c : MetadataCache ω) (src : MetadataSupplier σ ω) (w : σ) (dir : Directory)
    (res : Resolution) (q : Question) : ∃ k, (0 < k ↔ c.kept (dir.place, res) q = none) ∧
      Meters (c.consult src dir res q) (c.consult src.metered dir res q) w k := by
  cases hkept : c.kept (dir.place, res) q with
  | some v =>
    refine ⟨0, by simp, fun n => ?_⟩
    rw [consult, consult, hkept]
    rfl
  | none =>
    cases hmetadata : c.kept (dir.place, res) .run with
    | some m =>
      have hq : q ≠ .run := by
        rintro rfl
        cases hkept.symm.trans hmetadata
      refine ⟨1, by simp, fun n => ?_⟩
      rw [consult, consult, hkept, hmetadata]
      exact (MetadataSupplier.meters_reply n).trans (by rw [if_neg hq])
    | none =>
      obtain ⟨k, hk, hmeters⟩ := MetadataSupplier.meters_fresh src dir res q w
      refine ⟨k, by simp [hk], fun n => ?_⟩
      rw [consult, consult, hkept, hmetadata]
      exact hmeters n

/-- A lookup asks the source if its answer is not kept. -/
theorem consults_lookup_iff : Visit.consults src ⟨.lookup dir res q, (c, w)⟩ = true ↔
    c.kept (dir.place, res) q = none := by
  obtain ⟨k, hk, hmeters⟩ := meters_consult c src w dir res q
  obtain ⟨reply, c', w', hrun, hconsult, -⟩ := lookup_spec src.metered c (w, 0) dir res q
  have hquestions : Visit.questions src ⟨.lookup dir res q, (c, w)⟩ = k := by
    rw [hmeters 0, Nat.zero_add] at hconsult
    cases hconsult
    rw [Visit.questions, perform, hrun]
  rw [Visit.consults, decide_eq_true_iff, hquestions, hk]

theorem isNone_kept_iff : (r.kept q).isNone ↔ q ≠ .run ∧ r.kept q = none := by
  rw [Option.isNone_iff_eq_none]
  refine ⟨fun h => ⟨?_, h⟩, fun h => h.2⟩
  rintro rfl
  cases h

/-- The entry of a run is looked for once. What it says of the parts is what was kept of them. -/
theorem counters_entry (src : MetadataSupplier σ ω) (c : MetadataCache ω) (w : σ)
    (dir : Directory) (res : Resolution) :
    ∃ found c' w', (entry src dir res).run.run (c, w) = (found, (c', w')) ∧
      c'.misses = c.misses + (if (c.runs.get? (dir.place, res)).isSome then 0 else 1) ∧
      c'.hits = c.hits + (if (c.runs.get? (dir.place, res)).isSome then 1 else 0) ∧
      ∀ r, found = .ok r → c'.runs.get? (dir.place, res) = some r ∧
        ∀ q, q ≠ .run → r.kept q = c.kept (dir.place, res) q := by
  cases hget : c.runs.get? (dir.place, res) with
  | some r =>
    refine ⟨.ok r, c.countHit, w, yields_entry_of_get? hget, rfl, rfl, fun r' hr' => ?_⟩
    cases hr'
    exact ⟨hget, fun q _ => (kept_of_get? hget q).symm⟩
  | none =>
    have hentry := run_entry_of_none src w hget
    rcases hm : (src.runMetadata dir.path res).run w with ⟨e | m, w'⟩
    · simp only [hm] at hentry
      exact ⟨_, _, _, hentry, rfl, rfl, fun r hr => nomatch hr⟩
    · simp only [hm] at hentry
      refine ⟨_, _, _, hentry, rfl, rfl, fun r hr => ?_⟩
      cases hr
      exact ⟨get?_put_self, fun q hq => by
        rw [CachedRun.kept_new m hq, kept_of_get?_eq_none hget]⟩

theorem counters_answerFrom (src : MetadataSupplier σ ω)
    (hget : c.runs.get? (dir.place, res) = some r) (q : Question) (w : σ) :
    ∃ reply c' w', (answerFrom src dir res q r).run.run (c, w) = (reply, (c', w')) ∧
      c'.misses = c.misses ∧
      c'.hits = c.hits + if (r.kept q).isNone ∧ reply.isOk then 1 else 0 := by
  cases hkept : r.kept q with
  | some v => exact ⟨.ok v, c, w, yields_answerFrom_of_kept hkept, rfl, rfl⟩
  | none =>
    rcases hreply : (src.reply dir res r.metadata q).run w with ⟨e | v, w'⟩
    · exact ⟨.error e, c, w', fails_answerFrom hkept hreply, rfl, rfl⟩
    · exact ⟨.ok v, _, w', yields_answerFrom hkept hget hreply, rfl, rfl⟩

theorem findsRun_lookup : Visit.findsRun ⟨.lookup dir res q, (c, w)⟩ =
    (c.runs.get? (dir.place, res)).isSome := rfl

theorem gainsPart_lookup_iff {reply : Except MetadataFault (q.Reply ω)}
    {s' : MetadataCache ω × σ} (hrun : (lookup src dir res q).run.run (c, w) = (reply, s')) :
    Visit.gainsPart src ⟨.lookup dir res q, (c, w)⟩ = true ↔
      q ≠ .run ∧ c.kept (dir.place, res) q = none ∧ reply.isOk := by
  simp only [Visit.gainsPart, hrun, Bool.and_eq_true, consults_lookup_iff, decide_eq_true_iff,
    and_assoc]

/-- A lookup counts once for the entry of the run, and once more if a part is gained. -/
theorem counters_lookup (src : MetadataSupplier σ ω) (c : MetadataCache ω) (w : σ)
    (dir : Directory) (res : Resolution) (q : Question) :
    let after := (perform src (c, w) (.lookup dir res q)).1
    let visit : Visit σ ω := ⟨.lookup dir res q, (c, w)⟩
    after.misses = c.misses + (if visit.findsRun then 0 else 1) ∧
      after.hits = c.hits + (if visit.findsRun then 1 else 0) +
        if visit.gainsPart src then 1 else 0 := by
  intro after visit
  obtain ⟨found, c₁, w₁, hentry, hmisses₁, hhits₁, hfound⟩ := counters_entry src c w dir res
  rw [← findsRun_lookup (w := w) (q := q)] at hmisses₁ hhits₁
  cases found with
  | error e =>
    have hlookup : (lookup src dir res q).run.run (c, w) = (.error e, (c₁, w₁)) := by
      rw [lookup_eq_bind]
      exact Fails.bind hentry
    have hgains : visit.gainsPart src = false := by
      rw [Bool.eq_false_iff, Ne, gainsPart_lookup_iff hlookup]
      exact fun h => nomatch h.2.2
    have hafter : after = c₁ := congrArg (fun r => r.2.1) hlookup
    rw [hafter, hgains]
    exact ⟨hmisses₁, hhits₁⟩
  | ok r =>
    obtain ⟨hget, hkept⟩ := hfound r rfl
    obtain ⟨reply, c', w', hrun, hmisses, hhits⟩ := counters_answerFrom src hget q w₁
    have hlookup : (lookup src dir res q).run.run (c, w) = (reply, (c', w')) := by
      rw [lookup_eq_bind, Yields.run_bind hentry, hrun]
    have hgains : visit.gainsPart src = true ↔ (r.kept q).isNone ∧ reply.isOk := by
      rw [gainsPart_lookup_iff hlookup, isNone_kept_iff, and_assoc]
      refine and_congr_right fun hq => ?_
      rw [hkept q hq]
    have hafter : after = c' := congrArg (fun r => r.2.1) hlookup
    simp only [hafter, hgains]
    exact ⟨hmisses.trans hmisses₁, by rw [hhits, hhits₁]⟩

theorem consults_of_not_findsRun (h : Visit.findsRun ⟨.lookup dir res q, (c, w)⟩ = false) :
    Visit.consults src ⟨.lookup dir res q, (c, w)⟩ = true := by
  rw [findsRun_lookup, Option.isSome_eq_false_iff, Option.isNone_iff_eq_none] at h
  exact consults_lookup_iff.mpr (kept_of_get?_eq_none h q)

/-- What one call adds to the counters. -/
theorem counters_perform (src : MetadataSupplier σ ω) (call : Call) (s : MetadataCache ω × σ) :
    let after := (perform src s call).1
    let visit : Visit σ ω := ⟨call, s⟩
    after.misses + (if visit.asksPartOnly src then 1 else 0) =
        s.1.misses + (if visit.consults src then 1 else 0) ∧
      after.hits = s.1.hits + (if visit.isServed src then 1 else 0) +
        (if visit.asksPartOnly src then 1 else 0) + (if visit.gainsPart src then 1 else 0) := by
  obtain ⟨c, w⟩ := s
  cases call with
  | lookup dir res q =>
    obtain ⟨hmisses, hhits⟩ := counters_lookup src c w dir res q
    simp only [Visit.asksPartOnly, Visit.isServed, Call.isLookup, Bool.true_and, hmisses, hhits]
    by_cases hfinds : Visit.findsRun ⟨.lookup dir res q, (c, w)⟩ = true
    · by_cases hconsults : Visit.consults src ⟨.lookup dir res q, (c, w)⟩ = true <;>
        simp [hfinds, hconsults]
    · rw [Bool.not_eq_true] at hfinds
      simp [hfinds, consults_of_not_findsRun hfinds]
  | invalidate place => exact ⟨rfl, rfl⟩
  | clear => exact ⟨rfl, rfl⟩

/-- What any number of calls adds to the counters. -/
theorem counters_visits (src : MetadataSupplier σ ω) (calls : List Call)
    (s : MetadataCache ω × σ) :
    (performAll src calls s).1.misses + (visits src calls s).countP (·.asksPartOnly src) =
        s.1.misses + (visits src calls s).countP (·.consults src) ∧
      (performAll src calls s).1.hits = s.1.hits + (visits src calls s).countP (·.isServed src) +
        (visits src calls s).countP (·.asksPartOnly src) +
        (visits src calls s).countP (·.gainsPart src) := by
  induction calls generalizing s with
  | nil => exact ⟨rfl, rfl⟩
  | cons call calls ih =>
    obtain ⟨hmisses, hhits⟩ := counters_perform src call s
    obtain ⟨ihmisses, ihhits⟩ := ih (perform src s call)
    have hrest : performAll src (call :: calls) s = performAll src calls (perform src s call) := rfl
    rw [hrest]
    simp only [visits, List.countP_cons]
    omega

/-- A lookup asks the source, or it is served. -/
theorem countP_isLookup (src : MetadataSupplier σ ω) (calls : List Call)
    (s : MetadataCache ω × σ) :
    (visits src calls s).countP (·.consults src) + (visits src calls s).countP (·.isServed src) =
      calls.countP (·.isLookup) := by
  induction calls generalizing s with
  | nil => rfl
  | cons call calls ih =>
    have hrest := ih (perform src s call)
    have hcall : (if Visit.consults src ⟨call, s⟩ then 1 else 0) +
        (if Visit.isServed src ⟨call, s⟩ then 1 else 0) = if call.isLookup then 1 else 0 := by
      cases call with
      | lookup dir res q =>
        by_cases h : Visit.consults src ⟨.lookup dir res q, s⟩ = true <;>
          simp [Visit.isServed, Call.isLookup, h]
      | invalidate place => rfl
      | clear => rfl
    simp only [visits, List.countP_cons]
    omega

/-- The misses lack the lookups that asked for a part of a run that has an entry. The hits have
them instead, and have those that gained a part once more. So the counters tell the lookups with
and without the source exactly when there was no lookup of either kind. -/
theorem counters_performAll (src : MetadataSupplier σ ω) (calls : List Call) (w : σ) :
    let c := (performAll src calls (.empty, w)).1
    let visits := visits src calls (.empty, w)
    let consulting := visits.countP (·.consults src)
    let served := visits.countP (·.isServed src)
    let partOnly := visits.countP (·.asksPartOnly src)
    let gained := visits.countP (·.gainsPart src)
    c.misses + partOnly = consulting ∧ c.hits = served + partOnly + gained ∧
      c.hits + c.misses = calls.countP (·.isLookup) + gained ∧
      (c.misses = consulting ∧ c.hits = served ↔
        ∀ t ∈ visits, t.asksPartOnly src = false ∧ t.gainsPart src = false) := by
  intro c visits consulting served partOnly gained
  obtain ⟨hmisses, hhits⟩ : c.misses + partOnly = 0 + consulting ∧
      c.hits = 0 + served + partOnly + gained := counters_visits src calls (.empty, w)
  have hlookups : consulting + served = calls.countP (·.isLookup) := countP_isLookup ..
  refine ⟨by omega, by omega, by omega, ?_⟩
  have hnone : partOnly = 0 ∧ gained = 0 ↔
      ∀ t ∈ visits, t.asksPartOnly src = false ∧ t.gainsPart src = false := by
    simp only [partOnly, gained, List.countP_eq_zero, Bool.not_eq_true, forall_and]
  rw [← hnone]
  omega

/-- A run in one part, of which everything but a grid is known. -/
def knownRun : MetadataSupplier Unit Float :=
  FixedMetadata.supplier ⟨growingRun 1, .ofList [(0, (growingRun 1).dims)], none⟩

/-- The part is asked for after the metadata: two hits are counted for it and no miss. -/
theorem counters_knownRun :
    let calls : List Call := [.lookup growingPlace .standard .run,
      .lookup growingPlace .standard (.processor 0)]
    let c := (performAll knownRun calls (.empty, ())).1
    let visits := visits knownRun calls (.empty, ())
    c.misses = 1 ∧ visits.countP (·.consults knownRun) = 2 ∧
      c.hits = 2 ∧ visits.countP (·.isServed knownRun) = 0 ∧
      calls.countP (·.isLookup) = 2 :=
  ⟨rfl, rfl, rfl, rfl, rfl⟩

end MetadataCache

end GridSnapshot
