namespace GridSnapshot

/-- Decodes jobs in order and hands each result on; the first failure ends it. -/
def decodeInOrder {ι β σ ε : Type} (decode : ι → Except ε β) (sink : σ → ι → β → Except ε σ) :
    List ι → σ → Except ε σ
  | [], s => .ok s
  | job :: jobs, s => do
    let b ← decode job
    let s ← sink s job b
    decodeInOrder decode sink jobs s

/-- The work of a pool: jobs, how one is decoded, and where results go. -/
structure DecodePool (ι β σ ε : Type) where
  jobs : List ι
  workers : Nat
  decode : ι → Except ε β
  sink : σ → ι → β → Except ε σ

namespace DecodePool

inductive Worker (β ε : Type) where
  | idle
  /-- Has taken a number and not yet looked whether the main loop goes on. -/
  | holding (n : Nat)
  | sending (n : Nat) (result : Except ε β)
  | finished

def Worker.isFinished {β ε : Type} : Worker β ε → Bool
  | finished => true
  | _ => false

/-- How far the main loop has come. Workers look at the abort mark, which is set after the loop has
ended, and the channel is closed after that. -/
inductive Phase where
  | receiving
  | ended
  | aborted
  | closed
  deriving DecidableEq, Repr

structure State (β σ ε : Type) where
  /-- The numbers that no worker has taken yet. -/
  queue : List Nat
  workers : List (Worker β ε)
  channel : List (Nat × Except ε β)
  /-- Results received ahead of their turn. -/
  early : List (Nat × Except ε β)
  /-- The number whose turn it is. -/
  next : Nat
  /-- The numbers whose results went to the sink, in that order. -/
  handed : List Nat
  sink : σ
  failure : Option ε
  phase : Phase

/-- Why a pool has no answer: a job failed, or results of jobs never came. -/
inductive Fault (ε : Type) where
  | job (e : ε)
  | unreported (count : Nat)
  deriving DecidableEq, Repr

variable {ι β σ ε : Type}

def State.setWorker (s : State β σ ε) (i : Nat) (w : Worker β ε) : State β σ ε :=
  { s with workers := s.workers.set i w }

def State.stop (s : State β σ ε) (e : ε) : State β σ ε :=
  { s with failure := some e, phase := .ended }

def start (p : DecodePool ι β σ ε) (sink : σ) : State β σ ε where
  queue := List.range p.jobs.length
  workers := List.replicate p.workers .idle
  channel := []
  early := []
  next := 0
  handed := []
  sink := sink
  failure := none
  phase := .receiving

/-- How many results the channel holds at most. -/
def capacity (p : DecodePool ι β σ ε) : Nat := 2 * p.workers

/-- Hands on the result of the job whose turn it is; the first failure ends the loop. -/
def handOn (p : DecodePool ι β σ ε) (s : State β σ ε) (job : ι) (result : Except ε β) :
    State β σ ε :=
  let s' := { s with
    early := s.early.filter fun m => m.1 ≠ s.next
    next := s.next + 1 }
  match result with
  | .error e => s'.stop e
  | .ok b =>
    let s' := { s' with handed := s.handed ++ [s.next] }
    match p.sink s.sink job b with
    | .error e => s'.stop e
    | .ok sink => { s' with sink := sink }

/-- One action of one worker or of the main loop. A run of the pool is any interleaving of them. -/
inductive Step (p : DecodePool ι β σ ε) : State β σ ε → State β σ ε → Prop where
  | take {s i n queue} : s.workers[i]? = some .idle → s.queue = n :: queue →
      Step p s { s.setWorker i (.holding n) with queue := queue }
  /-- A worker that finds the queue empty is done. -/
  | leave {s i} : s.workers[i]? = some .idle → s.queue = [] →
      Step p s (s.setWorker i .finished)
  | decode {s i n job} : s.workers[i]? = some (.holding n) →
      s.phase = .receiving ∨ s.phase = .ended → p.jobs[n]? = some job →
      Step p s (s.setWorker i (.sending n (p.decode job)))
  /-- A worker that finds the abort mark drops its number. -/
  | drop {s i n} : s.workers[i]? = some (.holding n) → s.phase = .aborted ∨ s.phase = .closed →
      Step p s (s.setWorker i .finished)
  | send {s i n result} : s.workers[i]? = some (.sending n result) → s.phase ≠ .closed →
      s.channel.length < p.capacity →
      Step p s { s.setWorker i .idle with channel := s.channel ++ [(n, result)] }
  /-- A worker that finds the channel closed is done. -/
  | refuse {s i n result} : s.workers[i]? = some (.sending n result) → s.phase = .closed →
      Step p s (s.setWorker i .finished)
  | receive {s message channel} : s.phase = .receiving → s.early.lookup s.next = none →
      s.channel = message :: channel →
      Step p s { s with channel := channel, early := message :: s.early }
  | handOn {s job result} : s.phase = .receiving → s.early.lookup s.next = some result →
      p.jobs[s.next]? = some job → Step p s (p.handOn s job result)
  /-- Nothing comes any more when all workers are done and the channel is empty. -/
  | exhaust {s} : s.phase = .receiving → s.early.lookup s.next = none → s.channel = [] →
      s.workers.all Worker.isFinished → Step p s { s with phase := .ended }
  | abort {s} : s.phase = .ended → Step p s { s with phase := .aborted }
  | close {s} : s.phase = .aborted → Step p s { s with phase := .closed, channel := [] }

/-- The states that some interleaving leads to. -/
inductive Reachable (p : DecodePool ι β σ ε) (sink : σ) : State β σ ε → Prop where
  | start : Reachable p sink (p.start sink)
  | step {s t} : Reachable p sink s → Step p s t → Reachable p sink t

/-- The pool returns when the main loop has closed the channel and all workers are done. -/
def State.isDone (s : State β σ ε) : Bool := s.phase = .closed ∧ s.workers.all Worker.isFinished

def outcome (p : DecodePool ι β σ ε) (s : State β σ ε) : Except (Fault ε) σ :=
  match s.failure with
  | some e => .error (.job e)
  | none =>
    if s.next < p.jobs.length then .error (.unreported (p.jobs.length - s.next)) else .ok s.sink

theorem Step.length_workers {p : DecodePool ι β σ ε} {s t : State β σ ε} (h : Step p s t) :
    t.workers.length = s.workers.length := by
  cases h with
  | handOn =>
    simp only [DecodePool.handOn]
    split
    · rfl
    · split <;> rfl
  | _ => simp [State.setWorker]

theorem Reachable.length_workers {p : DecodePool ι β σ ε} {sink : σ} {s : State β σ ε}
    (h : Reachable p sink s) : s.workers.length = p.workers := by
  induction h with
  | start => simp [DecodePool.start]
  | step _ hst ih => rw [hst.length_workers, ih]

end DecodePool

end GridSnapshot
