import GridSnapshot.Proofs.CachedAnswers

namespace GridSnapshot

open Outcome
open MetadataSupplier (answer)

variable {σ ω : Type}

/-- What is asked about a run: its metadata, the dimensions of a part, or its grid. -/
inductive Question where
  | run
  | processor (n : Nat)
  | grid
  deriving DecidableEq

/-- A run without a grid is answered as well. -/
abbrev Question.Reply (ω : Type) : Question → Type
  | run => RunMetadata ω
  | processor _ => Dimensions
  | grid => Option (Grid ω)

namespace CachedRun

variable {r : CachedRun ω} {q q' : Question}

def kept (r : CachedRun ω) : (q : Question) → Option (q.Reply ω)
  | .run => some r.metadata
  | .processor n => r.processors.get? n
  | .grid => r.grid

def keep (r : CachedRun ω) : (q : Question) → q.Reply ω → CachedRun ω
  | .run, m => { r with metadata := m }
  | .processor n, d => { r with processors := r.processors.insert n d }
  | .grid, g => { r with grid := some g }

theorem kept_keep_self (v : q.Reply ω) : (r.keep q v).kept q = some v := by
  cases q with
  | run => rfl
  | processor n => exact Table.get?_insert_self
  | grid => rfl

theorem kept_keep_of_ne (v : q.Reply ω) (h : q' ≠ q) : (r.keep q v).kept q' = r.kept q' := by
  cases q with
  | run => cases q' <;> first | rfl | exact absurd rfl h
  | processor n =>
    cases q' with
    | processor n' => exact Table.get?_insert_of_ne fun heq => h (congrArg _ heq)
    | run => rfl
    | grid => rfl
  | grid => cases q' <;> first | rfl | exact absurd rfl h

/-- Of a run that is new only the metadata are kept. -/
theorem kept_new (m : RunMetadata ω) (h : q ≠ .run) :
    (⟨m, .empty, none⟩ : CachedRun ω).kept q = none := by
  cases q with
  | run => exact absurd rfl h
  | processor n => rfl
  | grid => rfl

end CachedRun

namespace MetadataSupplier

/-- What the source says about a run whose metadata are known. -/
def reply (src : MetadataSupplier σ ω) (dir : Directory) (res : Resolution) (m : RunMetadata ω) :
    (q : Question) → StateM σ (Except MetadataFault (q.Reply ω))
  | .run => pure (.ok m)
  | .processor n => src.processorDims dir.path n res
  | .grid => MetadataCache.noGridAsNone <$> src.grid dir.path m.dims

/-- What the source says about a run of which nothing is known: the metadata come first. -/
def fresh (src : MetadataSupplier σ ω) (dir : Directory) (res : Resolution) (q : Question) :
    StateM σ (Except MetadataFault (q.Reply ω)) := do
  match ← src.runMetadata dir.path res with
  | .ok m => src.reply dir res m q
  | .error e => pure (.error e)

variable {src : MetadataSupplier σ ω} {w w' : σ} {dir : Directory} {res : Resolution}

theorem run_fresh_of_ok {m : RunMetadata ω}
    (h : (src.runMetadata dir.path res).run w = (.ok m, w')) (q : Question) :
    (src.fresh dir res q).run w = (src.reply dir res m q).run w' := by
  simp only [fresh, StateT.run_bind, h]
  rfl

theorem run_fresh_of_error {e : MetadataFault}
    (h : (src.runMetadata dir.path res).run w = (.error e, w')) (q : Question) :
    (src.fresh dir res q).run w = (.error e, w') := by
  simp only [fresh, StateT.run_bind, h]
  rfl

end MetadataSupplier

namespace MetadataCache

variable {src : MetadataSupplier σ ω} {c c' : MetadataCache ω} {w w' : σ} {dir : Directory}
  {res : Resolution} {q q' : Question} {key key' : Place × Resolution} {r : CachedRun ω}
  {e : MetadataFault}

def kept (c : MetadataCache ω) (key : Place × Resolution) (q : Question) : Option (q.Reply ω) :=
  (c.runs.get? key).bind (·.kept q)

def lookup (src : MetadataSupplier σ ω) (dir : Directory) (res : Resolution) :
    (q : Question) → Consulting σ ω (q.Reply ω)
  | .run => run src dir res
  | .processor n => processorDims src dir n res
  | .grid => grid src dir res

/-- What has to be asked for the answer to a question: nothing if it is kept, and the metadata only
if they are not. -/
def consult (c : MetadataCache ω) (src : MetadataSupplier σ ω) (dir : Directory) (res : Resolution)
    (q : Question) : StateM σ (Except MetadataFault (q.Reply ω)) :=
  match c.kept (dir.place, res) q, c.kept (dir.place, res) .run with
  | some v, _ => pure (.ok v)
  | none, some m => src.reply dir res m q
  | none, none => src.fresh dir res q

/-- What a cache has learned from a lookup: the answer, and the metadata if they were not kept. -/
structure Learned (c c' : MetadataCache ω) (key : Place × Resolution) (q : Question)
    (metadata : Except MetadataFault (RunMetadata ω)) (reply : Except MetadataFault (q.Reply ω)) :
    Prop where
  other_eq : ∀ key', key' ≠ key → c'.runs.get? key' = c.runs.get? key'
  reply_eq : c'.kept key q = reply.toOption
  metadata_eq : c'.kept key .run = (c.kept key .run).or metadata.toOption
  rest_eq : ∀ q', q' ≠ q → q' ≠ .run → c'.kept key q' = c.kept key q'

theorem kept_of_get? (h : c.runs.get? key = some r) (q : Question) : c.kept key q = r.kept q := by
  rw [kept, h, Option.bind_some]

theorem kept_of_get?_eq_none (h : c.runs.get? key = none) (q : Question) : c.kept key q = none := by
  rw [kept, h, Option.bind_none]

theorem get?_put_self : (c.put key r).runs.get? key = some r := Table.get?_insert_self

theorem get?_put_of_ne (h : key' ≠ key) : (c.put key r).runs.get? key' = c.runs.get? key' :=
  Table.get?_insert_of_ne h

theorem yields_entry_of_get? (h : c.runs.get? (dir.place, res) = some r) :
    Yields (entry src dir res) (c, w) r (c.countHit, w) := by
  unfold entry
  refine yields_bind_iff.mpr ⟨(c, w), (c, w), rfl, ?_⟩
  simp only [h]
  rfl

/-- Where nothing is kept, the source is asked for the metadata. -/
theorem run_entry_of_none (src : MetadataSupplier σ ω) (w : σ)
    (h : c.runs.get? (dir.place, res) = none) :
    (entry src dir res).run.run (c, w) =
      match (src.runMetadata dir.path res).run w with
      | (.ok m, w') => (.ok ⟨m, .empty, none⟩,
          (c.countMiss.put (dir.place, res) ⟨m, .empty, none⟩, w'))
      | (.error e, w') => (.error e, (c.countMiss, w')) := by
  unfold entry
  rcases hm : (src.runMetadata dir.path res).run w with ⟨e | m, w'⟩
  · refine Yields.bind_fails (a := (c, w)) (t := (c, w)) rfl ?_
    simp only [h]
    refine Yields.bind_fails (a := ()) (t := (c.countMiss, w)) rfl (Fails.bind ?_)
    rw [Fails, run_ask, answer, hm]
  · refine yields_bind_iff.mpr ⟨(c, w), (c, w), rfl, ?_⟩
    simp only [h]
    refine yields_bind_iff.mpr ⟨(), (c.countMiss, w), rfl, ?_⟩
    refine yields_bind_iff.mpr ⟨m, (c.countMiss, w'), ?_, rfl⟩
    rw [Yields, run_ask, answer, hm]

theorem yields_update (h : c.runs.get? (dir.place, res) = some r) (f : CachedRun ω → CachedRun ω) :
    Yields (update src dir res f) (c, w) () (c.countHit.put (dir.place, res) (f r), w) :=
  yields_bind_iff.mpr ⟨r, (c.countHit, w), yields_entry_of_get? h, rfl⟩

/-- What a lookup does with the entry of the run, whatever the question. -/
def answerFrom (src : MetadataSupplier σ ω) (dir : Directory) (res : Resolution) (q : Question)
    (r : CachedRun ω) : Consulting σ ω (q.Reply ω) :=
  match r.kept q with
  | some v => pure v
  | none => do
    let v ← ask (src.reply dir res r.metadata q)
    update src dir res fun r => r.keep q v
    pure v

theorem lookup_eq_bind (q : Question) :
    lookup src dir res q = entry src dir res >>= answerFrom src dir res q := by
  cases q with
  | run => rfl
  | processor n =>
    refine congrArg (entry src dir res >>= ·) (funext fun r => ?_)
    have hkept : r.kept (.processor n) = r.processors.get? n := rfl
    rw [answerFrom, hkept]
    cases r.processors.get? n <;> rfl
  | grid =>
    refine congrArg (entry src dir res >>= ·) (funext fun r => ?_)
    have hkept : r.kept .grid = r.grid := rfl
    rw [answerFrom, hkept]
    cases r.grid <;> rfl

theorem yields_answerFrom_of_kept {v : q.Reply ω} (h : r.kept q = some v) :
    Yields (answerFrom src dir res q r) (c, w) v (c, w) := by
  rw [answerFrom, h]
  rfl

theorem yields_answerFrom {v : q.Reply ω} (hkept : r.kept q = none)
    (hget : c.runs.get? (dir.place, res) = some r)
    (hv : (src.reply dir res r.metadata q).run w = (.ok v, w')) :
    Yields (answerFrom src dir res q r) (c, w) v
      (c.countHit.put (dir.place, res) (r.keep q v), w') := by
  rw [answerFrom, hkept]
  refine yields_bind_iff.mpr ⟨v, (c, w'), ?_, ?_⟩
  · rw [Yields, run_ask, answer, hv]
  · exact yields_bind_iff.mpr ⟨(), _, yields_update hget _, rfl⟩

theorem fails_answerFrom (hkept : r.kept q = none)
    (he : (src.reply dir res r.metadata q).run w = (.error e, w')) :
    Fails (answerFrom src dir res q r) (c, w) e (c, w') := by
  rw [answerFrom, hkept]
  refine Fails.bind ?_
  rw [Fails, run_ask, answer, he]

/-- An answer is given from the entry of the run or asked for, and kept. -/
theorem answerFrom_spec (src : MetadataSupplier σ ω)
    (hget : c.runs.get? (dir.place, res) = some r) (q : Question) (w : σ) :
    ∃ reply c' w', (answerFrom src dir res q r).run.run (c, w) = (reply, (c', w')) ∧
      (reply, w') = (match r.kept q with
        | some v => (.ok v, w)
        | none => (src.reply dir res r.metadata q).run w) ∧
      (∀ key', key' ≠ (dir.place, res) → c'.runs.get? key' = c.runs.get? key') ∧
      c'.kept (dir.place, res) q = reply.toOption ∧
      ∀ q', q' ≠ q ∨ q' = .run → c'.kept (dir.place, res) q' = r.kept q' := by
  cases hkept : r.kept q with
  | some v =>
    refine ⟨.ok v, c, w, yields_answerFrom_of_kept hkept, rfl, fun _ _ => rfl, ?_, fun q' _ => ?_⟩
    · rw [kept_of_get? hget, hkept]
      rfl
    · rw [kept_of_get? hget]
  | none =>
    rcases hreply : (src.reply dir res r.metadata q).run w with ⟨e | v, w'⟩
    · refine ⟨.error e, c, w', fails_answerFrom hkept hreply, rfl, fun _ _ => rfl, ?_,
        fun q' _ => ?_⟩
      · rw [kept_of_get? hget, hkept]
        rfl
      · rw [kept_of_get? hget]
    · have hput : (c.countHit.put (dir.place, res) (r.keep q v)).runs.get? (dir.place, res) =
          some (r.keep q v) := get?_put_self
      refine ⟨.ok v, _, w', yields_answerFrom hkept hget hreply, rfl,
        fun key' hne => get?_put_of_ne hne, ?_, fun q' hq' => ?_⟩
      · rw [kept_of_get? hput, CachedRun.kept_keep_self]
        rfl
      · have hne : q' ≠ q := by
          rintro rfl
          obtain hne | rfl := hq'
          · exact hne rfl
          · cases hkept
        rw [kept_of_get? hput, CachedRun.kept_keep_of_ne v hne]

/-- A lookup answers as the source does where nothing is kept, and keeps what it has learned. -/
theorem lookup_spec (src : MetadataSupplier σ ω) (c : MetadataCache ω) (w : σ) (dir : Directory)
    (res : Resolution) (q : Question) :
    ∃ reply c' w', (lookup src dir res q).run.run (c, w) = (reply, (c', w')) ∧
      (c.consult src dir res q).run w = (reply, w') ∧
      Learned c c' (dir.place, res) q (answer (src.runMetadata dir.path res) w) reply := by
  cases hget : c.runs.get? (dir.place, res) with
  | some r =>
    have hentry : Yields (entry src dir res) (c, w) r (c.countHit, w) := yields_entry_of_get? hget
    have hcounted : c.countHit.runs.get? (dir.place, res) = some r := hget
    obtain ⟨reply, c', w', hrun, hreply, hother, hself, hrest⟩ :=
      answerFrom_spec src hcounted q w
    refine ⟨reply, c', w', ?_, ?_, hother, hself, ?_, fun q' hne _ => ?_⟩
    · rw [lookup_eq_bind, hentry.run_bind, hrun]
    · rw [hreply, consult, kept_of_get? hget, kept_of_get? hget]
      cases r.kept q <;> rfl
    · rw [hrest .run (.inr rfl), kept_of_get? hget]
      rfl
    · rw [hrest q' (.inl hne), kept_of_get? hget]
  | none =>
    have hkept (q' : Question) : c.kept (dir.place, res) q' = none := kept_of_get?_eq_none hget q'
    have hentry := run_entry_of_none src w hget
    rcases hm : (src.runMetadata dir.path res).run w with ⟨e | m, w₁⟩
    · simp only [hm] at hentry
      refine ⟨.error e, c.countMiss, w₁, ?_, ?_, fun _ _ => rfl, ?_, ?_, fun _ _ _ => rfl⟩
      · rw [lookup_eq_bind]
        exact Fails.bind hentry
      · rw [consult, hkept, hkept]
        exact MetadataSupplier.run_fresh_of_error hm q
      · exact hkept q
      · rw [hkept, answer, hm]
        exact hkept .run
    · simp only [hm] at hentry
      have hput : (c.countMiss.put (dir.place, res) ⟨m, .empty, none⟩).runs.get? (dir.place, res) =
          some ⟨m, .empty, none⟩ := get?_put_self
      obtain ⟨reply, c', w', hrun, hreply, hother, hself, hrest⟩ := answerFrom_spec src hput q w₁
      refine ⟨reply, c', w', ?_, ?_, fun key' hne => ?_, hself, ?_, fun q' hne hrun => ?_⟩
      · rw [lookup_eq_bind, Yields.run_bind hentry, hrun]
      · rw [consult, hkept, hkept, hreply]
        refine (MetadataSupplier.run_fresh_of_ok hm q).trans ?_
        by_cases hq : q = .run
        · subst hq
          rfl
        · rw [CachedRun.kept_new m hq]
      · rw [hother key' hne, get?_put_of_ne hne]
        rfl
      · rw [hrest .run (.inr rfl), hkept, answer, hm]
        rfl
      · rw [hrest q' (.inl hne), hkept, CachedRun.kept_new m hrun]

end MetadataCache

end GridSnapshot
