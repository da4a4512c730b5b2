import GridSnapshot.Proofs.PoolProgress
import Mathlib.Data.List.Infix
import Mathlib.Logic.Relation

namespace GridSnapshot

section InOrder

variable {ι β σ ε : Type}

/-- The blocks that go to the sink when jobs are decoded in order, each with its job. A block that
the sink refuses is the last. -/
def sinkCalls (decode : ι → Except ε β) (sink : σ → ι → β → Except ε σ) :
    List ι → σ → List (ι × β)
  | [], _ => []
  | job :: jobs, s =>
    match decode job with
    | .error _ => []
    | .ok b =>
      match sink s job b with
      | .error _ => [(job, b)]
      | .ok s => (job, b) :: sinkCalls decode sink jobs s

variable {decode : ι → Except ε β} {sink : σ → ι → β → Except ε σ} {jobs rest : List ι} {s s' : σ}
  {job : ι} {b : β} {e : ε}

theorem sinkCalls_append_of_ok (h : decodeInOrder decode sink jobs s = .ok s') :
    sinkCalls decode sink (jobs ++ rest) s =
      sinkCalls decode sink jobs s ++ sinkCalls decode sink rest s' := by
  induction jobs generalizing s with
  | nil =>
    cases h
    simp only [List.nil_append, sinkCalls]
  | cons job jobs ih =>
    obtain ⟨b, hb, hrest⟩ := Outcome.bind_eq_ok_iff.mp h
    obtain ⟨next, hnext, hrest⟩ := Outcome.bind_eq_ok_iff.mp hrest
    simp only [List.cons_append, sinkCalls, hb, hnext]
    rw [ih hrest]

/-- After a failure nothing goes to the sink. -/
theorem sinkCalls_append_of_error (h : decodeInOrder decode sink jobs s = .error e) :
    sinkCalls decode sink (jobs ++ rest) s = sinkCalls decode sink jobs s := by
  induction jobs generalizing s with
  | nil => cases h
  | cons job jobs ih =>
    rw [decodeInOrder] at h
    simp only [List.cons_append, sinkCalls]
    cases hb : decode job with
    | error e' => simp only
    | ok b =>
      cases hnext : sink s job b with
      | error e' => simp only [hnext]
      | ok next =>
        simp only [hb, hnext, bind, Except.bind] at h
        simp only [hnext, ih h]

theorem sinkCalls_singleton_of_ok (h : decode job = .ok b) :
    sinkCalls decode sink [job] s = [(job, b)] := by
  simp only [sinkCalls, h]
  cases sink s job b <;> simp only

theorem sinkCalls_singleton_of_error (h : decode job = .error e) :
    sinkCalls decode sink [job] s = [] := by
  simp only [sinkCalls, h]

theorem sinkCalls_take_isPrefix (n : Nat) :
    sinkCalls decode sink (jobs.take n) s <+: sinkCalls decode sink jobs s := by
  have hjobs : jobs.take n ++ jobs.drop n = jobs := List.take_append_drop n jobs
  cases h : decodeInOrder decode sink (jobs.take n) s with
  | ok s' =>
    have hcalls : sinkCalls decode sink (jobs.take n ++ jobs.drop n) s =
        sinkCalls decode sink (jobs.take n) s ++ sinkCalls decode sink (jobs.drop n) s' :=
      sinkCalls_append_of_ok h
    rw [hjobs] at hcalls
    rw [hcalls]
    exact List.prefix_append _ _
  | error e =>
    have hcalls : sinkCalls decode sink (jobs.take n ++ jobs.drop n) s =
        sinkCalls decode sink (jobs.take n) s := sinkCalls_append_of_error h
    rw [hjobs] at hcalls
    rw [hcalls]

theorem length_sinkCalls_of_ok (h : decodeInOrder decode sink jobs s = .ok s') :
    (sinkCalls decode sink jobs s).length = jobs.length := by
  induction jobs generalizing s with
  | nil => simp only [sinkCalls, List.length_nil]
  | cons job jobs ih =>
    obtain ⟨b, hb, hrest⟩ := Outcome.bind_eq_ok_iff.mp h
    obtain ⟨next, hnext, hrest⟩ := Outcome.bind_eq_ok_iff.mp hrest
    simp only [sinkCalls, hb, hnext, List.length_cons, ih hrest]

theorem decodeInOrder_cons :
    decodeInOrder decode sink (job :: jobs) s =
      ((decode job).bind fun b => sink s job b).bind (decodeInOrder decode sink jobs) := by
  have hone : decodeInOrder decode sink ([] ++ [job]) s =
      (decode job).bind fun b => sink s job b := decodeInOrder_concat rfl
  rw [← hone, ← decodeInOrder_append, List.nil_append, List.singleton_append]

/-- A failure is that of the first job whose block cannot be decoded or is refused. -/
theorem decodeInOrder_eq_error_iff :
    decodeInOrder decode sink jobs s = .error e ↔
      ∃ n job before, jobs[n]? = some job ∧
        decodeInOrder decode sink (jobs.take n) s = .ok before ∧
        ((decode job).bind fun b => sink before job b) = .error e := by
  constructor
  · intro h
    induction jobs generalizing s with
    | nil => cases h
    | cons job jobs ih =>
      rw [decodeInOrder_cons] at h
      cases hfirst : (decode job).bind fun b => sink s job b with
      | error e' =>
        rw [hfirst] at h
        exact ⟨0, job, s, rfl, rfl, hfirst.trans h⟩
      | ok next =>
        rw [hfirst] at h
        obtain ⟨n, job', before, hget, hbefore, herror⟩ := ih h
        refine ⟨n + 1, job', before, hget, ?_, herror⟩
        rw [List.take_succ_cons, decodeInOrder_cons, hfirst]
        exact hbefore
  · rintro ⟨n, job, before, hget, hbefore, herror⟩
    obtain ⟨hlt, rfl⟩ := List.getElem?_eq_some_iff.mp hget
    have hjobs : jobs.take (n + 1) ++ jobs.drop (n + 1) = jobs := List.take_append_drop _ _
    rw [← hjobs, List.take_succ_eq_append_getElem hlt]
    exact decodeInOrder_append_of_error ((decodeInOrder_concat hbefore).trans herror)

/-- The job that fails gives a last block to the sink if it is the sink that refuses. -/
theorem length_sinkCalls_of_error {n : Nat} {before : σ} (hget : jobs[n]? = some job)
    (hbefore : decodeInOrder decode sink (jobs.take n) s = .ok before)
    (herror : ((decode job).bind fun b => sink before job b) = .error e) :
    (sinkCalls decode sink jobs s).length = if (decode job).isOk then n + 1 else n := by
  obtain ⟨hlt, rfl⟩ := List.getElem?_eq_some_iff.mp hget
  have hjobs : jobs.take (n + 1) ++ jobs.drop (n + 1) = jobs := List.take_append_drop _ _
  have hcalls : sinkCalls decode sink (jobs.take (n + 1) ++ jobs.drop (n + 1)) s =
      sinkCalls decode sink (jobs.take (n + 1)) s := by
    rw [List.take_succ_eq_append_getElem hlt]
    exact sinkCalls_append_of_error ((decodeInOrder_concat hbefore).trans herror)
  have htake : (jobs.take n).length = n := List.length_take_of_le (Nat.le_of_lt hlt)
  rw [hjobs] at hcalls
  rw [hcalls, List.take_succ_eq_append_getElem hlt, sinkCalls_append_of_ok hbefore,
    List.length_append, length_sinkCalls_of_ok hbefore, htake]
  cases hdecode : decode jobs[n] with
  | error e' =>
    rw [sinkCalls_singleton_of_error hdecode]
    simp [Except.isOk, Except.toBool]
  | ok b =>
    rw [sinkCalls_singleton_of_ok hdecode]
    simp [Except.isOk, Except.toBool]

end InOrder

namespace DecodePool

variable {ι β σ ε : Type} {p : DecodePool ι β σ ε} {initial : σ} {s t : State β σ ε}

/-- The block that the sink gets when a number is handed on. -/
def blockAt? (p : DecodePool ι β σ ε) (n : Nat) : Option (ι × β) :=
  p.jobs[n]?.bind fun job => (p.decode job).toOption.map (job, ·)

/-- The sink has been called on the blocks of the first jobs, in their order. -/
structure InTurn (p : DecodePool ι β σ ε) (initial : σ) (s : State β σ ε) : Prop where
  handed_eq : s.handed = List.range s.handed.length
  length_eq : s.failure = none → s.handed.length = s.next
  calls_eq : s.handed.map p.blockAt? =
    (sinkCalls p.decode p.sink (p.jobs.take s.next) initial).map some
  failure_eq : ∀ e, s.failure = some e →
    decodeInOrder p.decode p.sink (p.jobs.take s.next) initial = .error e

theorem inTurn_start (p : DecodePool ι β σ ε) (initial : σ) :
    p.InTurn initial (p.start initial) where
  handed_eq := rfl
  length_eq _ := rfl
  calls_eq := rfl
  failure_eq _ he := nomatch he

/-- Nothing but handing on a result calls the sink or fails. -/
theorem Step.handed_eq_or (h : p.Step s t) :
    (t.handed = s.handed ∧ t.next = s.next ∧ t.failure = s.failure) ∨
      ∃ job result, s.phase = .receiving ∧ s.early.lookup s.next = some result ∧
        p.jobs[s.next]? = some job ∧ t = p.handOn s job result := by
  cases h with
  | handOn hphase hearly hjob => exact .inr ⟨_, _, hphase, hearly, hjob, rfl⟩
  | _ => exact .inl ⟨rfl, rfl, rfl⟩

theorem InTurn.handOn (h : p.InTurn initial s) (hs : p.Faithful initial s)
    (hphase : s.phase = .receiving) {job : ι} {result : Except ε β}
    (hearly : s.early.lookup s.next = some result) (hjob : p.jobs[s.next]? = some job) :
    p.InTurn initial (p.handOn s job result) := by
  have hnone := hs.receiving hphase
  have hsink := (hs.sink_eq hnone).2
  obtain ⟨job', hjob', rfl⟩ := hs.early _ (mem_of_lookup hearly)
  obtain rfl : job' = job := Option.some.inj (hjob'.symm.trans hjob)
  obtain ⟨hlt, hget⟩ := List.getElem?_eq_some_iff.mp hjob
  have htake : p.jobs.take (s.next + 1) = p.jobs.take s.next ++ [job'] := by
    rw [List.take_succ_eq_append_getElem hlt, hget]
  have hcalls : sinkCalls p.decode p.sink (p.jobs.take (s.next + 1)) initial =
      sinkCalls p.decode p.sink (p.jobs.take s.next) initial ++
        sinkCalls p.decode p.sink [job'] s.sink := by
    rw [htake, sinkCalls_append_of_ok hsink]
  have hnext : decodeInOrder p.decode p.sink (p.jobs.take (s.next + 1)) initial =
      (p.decode job').bind fun b => p.sink s.sink job' b := by
    rw [htake, decodeInOrder_concat hsink]
  unfold DecodePool.handOn
  cases hdecode : p.decode job' with
  | error e =>
    rw [sinkCalls_singleton_of_error hdecode, List.append_nil] at hcalls
    rw [hdecode] at hnext
    have hmap : s.handed.map p.blockAt? =
        (sinkCalls p.decode p.sink (p.jobs.take (s.next + 1)) initial).map some := by
      rw [hcalls, h.calls_eq]
    exact {
      handed_eq := h.handed_eq
      length_eq := fun hnone => nomatch hnone
      calls_eq := hmap
      failure_eq := fun e' he => by
        cases he
        exact hnext }
  | ok b =>
    have hlength := h.length_eq hnone
    have hhanded : s.handed ++ [s.next] = List.range (s.handed ++ [s.next]).length := by
      rw [List.length_append, List.length_singleton, List.range_succ, ← h.handed_eq, hlength]
    have hblock : p.blockAt? s.next = some (job', b) := by
      simp only [blockAt?, hjob, Option.bind_some, hdecode, Except.toOption, Option.map_some]
    have hmap : (s.handed ++ [s.next]).map p.blockAt? =
        (sinkCalls p.decode p.sink (p.jobs.take (s.next + 1)) initial).map some := by
      rw [hcalls, sinkCalls_singleton_of_ok hdecode, List.map_append, List.map_append, h.calls_eq,
        List.map_singleton, List.map_singleton, hblock]
    rw [hdecode] at hnext
    simp only
    split
    · rename_i e hput
      exact {
        handed_eq := hhanded
        length_eq := fun hnone => nomatch hnone
        calls_eq := hmap
        failure_eq := fun e' he => by
          cases he
          exact hnext.trans hput }
    · rename_i next hput
      exact {
        handed_eq := hhanded
        length_eq := fun _ => by rw [List.length_append, hlength, List.length_singleton]
        calls_eq := hmap
        failure_eq := fun e' he => by
          rw [hnone] at he
          cases he }

theorem Step.inTurn (h : p.Step s t) (hs : p.InTurn initial s) (hfaithful : p.Faithful initial s) :
    p.InTurn initial t := by
  rcases h.handed_eq_or with ⟨hhanded, hnext, hfailure⟩ | ⟨job, result, hphase, hearly, hjob, rfl⟩
  · exact {
      handed_eq := by
        rw [hhanded]
        exact hs.handed_eq
      length_eq := by
        rw [hhanded, hnext, hfailure]
        exact hs.length_eq
      calls_eq := by
        rw [hhanded, hnext]
        exact hs.calls_eq
      failure_eq := by
        rw [hnext, hfailure]
        exact hs.failure_eq }
  · exact hs.handOn hfaithful hphase hearly hjob

theorem Reachable.inTurn (h : p.Reachable initial s) (hworkers : 0 < p.workers) :
    p.InTurn initial s := by
  induction h with
  | start => exact inTurn_start p initial
  | step hreach hstep ih => exact hstep.inTurn ih (hreach.invariant hworkers).2

/-- A number may be dropped when the main loop has ended; no action takes one to a second place. -/
theorem Step.places_le (h : p.Step s t) (k : Nat) : t.places k ≤ s.places k := by
  cases h with
  | @take i n queue hw hq =>
    have hqueue := places_queue (s.setWorker i (.holding n)) hq k
    have hworker := places_setWorker hw (.holding n) k
    exact Nat.le_of_eq (Nat.add_right_cancel (hqueue.trans hworker))
  | leave hw _ => exact Nat.le_of_eq (places_setWorker hw .finished k)
  | @decode i n job hw _ _ =>
    have hworker := places_setWorker hw (.sending n (p.decode job)) k
    exact Nat.le_of_eq (Nat.add_right_cancel hworker)
  | drop hw _ => exact Nat.le.intro (places_setWorker hw .finished k)
  | @send i n result hw _ _ =>
    have hchannel := places_channel (s.setWorker i .idle) n result k
    exact Nat.le_of_eq (hchannel.trans (places_setWorker hw .idle k))
  | refuse hw _ => exact Nat.le.intro (places_setWorker hw .finished k)
  | receive _ _ hchannel =>
    simp only [State.places, State.held, hchannel, List.map_cons, List.count_cons]
    omega
  | @handOn job result _ hearly _ =>
    obtain ⟨hqueue, hworkers, hchannel, hearly', hnext⟩ := fields_handOn p s job result
    have hcount : 1 ≤ (s.early.map Prod.fst).count s.next :=
      List.one_le_count_iff.mpr (List.mem_map_of_mem (mem_of_lookup hearly))
    rw [State.places, State.places, State.held, State.held, hqueue, hworkers, hchannel, hearly',
      hnext, count_filter_ne]
    by_cases hk : k = s.next
    · subst hk
      rw [if_pos rfl, if_pos (Nat.lt_succ_self _), if_neg (Nat.lt_irrefl _)]
      omega
    · have hiff : k < s.next + 1 ↔ k < s.next := by omega
      simp only [if_neg hk, hiff]
      exact Nat.le_refl _
  | exhaust => exact Nat.le_refl _
  | abort => exact Nat.le_refl _
  | close =>
    simp only [State.places, State.held, List.map_nil, List.count_nil]
    omega

theorem places_start (p : DecodePool ι β σ ε) (initial : σ) (k : Nat) :
    (p.start initial).places k ≤ 1 := by
  rw [(located_start p initial).places_eq k]
  split <;> decide

theorem Reachable.places_le (h : p.Reachable initial s) (k : Nat) : s.places k ≤ 1 := by
  induction h with
  | start => exact places_start p initial k
  | step _ hstep ih => exact Nat.le_trans (hstep.places_le k) ih

/-- From each state of a run some way to go on ends with the pool done. -/
theorem Reachable.exists_done (h : p.Reachable initial s) (hworkers : 0 < p.workers) :
    ∃ t, Relation.ReflTransGen p.Step s t ∧ p.Reachable initial t ∧ t.isDone := by
  have hacc := acc_step p s
  induction hacc with
  | intro s _ ih =>
    cases hdone : s.isDone with
    | true => exact ⟨s, .refl, h, hdone⟩
    | false =>
      obtain ⟨u, hstep⟩ := h.exists_step hworkers hdone
      obtain ⟨t, hrun, hreach, hdone⟩ := ih u hstep (h.step hstep)
      exact ⟨t, .head hstep hrun, hreach, hdone⟩

/-- The calls of the sink when one worker decodes the jobs. -/
def callsInOrder (p : DecodePool ι β σ ε) (initial : σ) : List (ι × β) :=
  sinkCalls p.decode p.sink p.jobs initial

theorem InTurn.exists_calls (h : p.InTurn initial s) :
    ∃ calls, calls <+: p.callsInOrder initial ∧ s.handed.map p.blockAt? = calls.map some :=
  ⟨_, sinkCalls_take_isPrefix s.next, h.calls_eq⟩

theorem InTurn.calls_of_done (h : p.InTurn initial s) (hs : p.Faithful initial s)
    (hdone : s.isDone) : s.handed.map p.blockAt? = (p.callsInOrder initial).map some := by
  have hphase : s.phase ≠ .receiving := by
    intro hphase
    simp [State.isDone, hphase] at hdone
  have hjobs : p.jobs.take s.next ++ p.jobs.drop s.next = p.jobs := List.take_append_drop _ _
  rw [h.calls_eq, callsInOrder]
  cases hfailure : s.failure with
  | none => rw [hs.ended hphase hfailure, List.take_length]
  | some e =>
    have hcalls : sinkCalls p.decode p.sink (p.jobs.take s.next ++ p.jobs.drop s.next) initial =
        sinkCalls p.decode p.sink (p.jobs.take s.next) initial :=
      sinkCalls_append_of_error (h.failure_eq e hfailure)
    rw [hjobs] at hcalls
    rw [hcalls]

/-- Every interleaving of a pool does what one worker does. -/
structure RefinesInOrder (p : DecodePool ι β σ ε) (initial : σ) : Prop where
  /-- Results go to the sink in the order of the jobs, with no gap and no repetition. -/
  handed_eq : ∀ s, p.Reachable initial s → s.handed = List.range s.handed.length
  /-- At any time the sink has been called on the blocks that one worker gives it first. -/
  calls_begin : ∀ s, p.Reachable initial s →
    ∃ calls, calls <+: p.callsInOrder initial ∧ s.handed.map p.blockAt? = calls.map some
  /-- Until a failure the sink is as one worker leaves it after the same blocks. -/
  sink_eq : ∀ s, p.Reachable initial s → s.failure = none →
    decodeInOrder p.decode p.sink (p.jobs.take s.handed.length) initial = .ok s.sink
  /-- No number is lost while the main loop receives. -/
  places_eq : ∀ s, p.Reachable initial s → s.phase = .receiving →
    ∀ k < p.jobs.length, s.places k = 1
  /-- No number is at two places, or taken again after it was handed on. -/
  places_le : ∀ s, p.Reachable initial s → ∀ k, s.places k ≤ 1
  /-- A pool that is not done is not stuck. -/
  exists_step : ∀ s, p.Reachable initial s → s.isDone = false → ∃ t, p.Step s t
  /-- No run goes on forever. -/
  ends : ∀ s, Acc (fun t s => p.Step s t) s
  exists_done : ∀ s, p.Reachable initial s →
    ∃ t, Relation.ReflTransGen p.Step s t ∧ p.Reachable initial t ∧ t.isDone
  /-- A pool that is done has called the sink as one worker does and returns what it returns. -/
  calls_eq : ∀ s, p.Reachable initial s → s.isDone →
    s.handed.map p.blockAt? = (p.callsInOrder initial).map some
  outcome_eq : ∀ s, p.Reachable initial s → s.isDone →
    p.outcome s = (decodeInOrder p.decode p.sink p.jobs initial).mapError .job
  /-- A pool that succeeds has handed on the blocks of all jobs. -/
  succeeds : ∀ s, p.Reachable initial s → s.isDone → ∀ r, p.outcome s = .ok r →
    s.handed = List.range p.jobs.length
  /-- A pool that fails returns the failure of the first job that cannot be decoded or that the sink
  refuses. The sink has got all blocks before, and that of the job itself if it could be decoded. -/
  fails : ∀ s, p.Reachable initial s → s.isDone → ∀ fault, p.outcome s = .error fault →
    ∃ n job before e, fault = .job e ∧ p.jobs[n]? = some job ∧
      decodeInOrder p.decode p.sink (p.jobs.take n) initial = .ok before ∧
      ((p.decode job).bind fun b => p.sink before job b) = .error e ∧
      s.handed = List.range (if (p.decode job).isOk then n + 1 else n)

theorem Reachable.handed_of_done (h : p.Reachable initial s) (hworkers : 0 < p.workers)
    (hdone : s.isDone) : s.handed = List.range (p.callsInOrder initial).length := by
  have hturn := h.inTurn hworkers
  have hlength := congrArg List.length (hturn.calls_of_done (h.invariant hworkers).2 hdone)
  rw [List.length_map, List.length_map] at hlength
  rw [← hlength]
  exact hturn.handed_eq

theorem refinesInOrder (p : DecodePool ι β σ ε) (initial : σ) (hworkers : 0 < p.workers) :
    p.RefinesInOrder initial where
  handed_eq s h := (h.inTurn hworkers).handed_eq
  calls_begin s h := (h.inTurn hworkers).exists_calls
  sink_eq s h hnone := by
    rw [(h.inTurn hworkers).length_eq hnone]
    exact ((h.invariant hworkers).2.sink_eq hnone).2
  places_eq s h hphase k hk := by
    rw [((h.invariant hworkers).1 hphase).places_eq k, if_pos hk]
  places_le s h k := h.places_le k
  exists_step s h hdone := h.exists_step hworkers hdone
  ends s := acc_step p s
  exists_done s h := h.exists_done hworkers
  calls_eq s h hdone := (h.inTurn hworkers).calls_of_done (h.invariant hworkers).2 hdone
  outcome_eq s h hdone := h.outcome_eq hworkers hdone
  succeeds s h hdone r hr := by
    have hall := (h.outcome_eq hworkers hdone).symm.trans hr
    rw [h.handed_of_done hworkers hdone, callsInOrder,
      length_sinkCalls_of_ok (Outcome.mapError_eq_ok_iff.mp hall)]
  fails s h hdone fault hfault := by
    have herror := (h.outcome_eq hworkers hdone).symm.trans hfault
    obtain ⟨e, he, rfl⟩ := Outcome.mapError_eq_error_iff.mp herror
    obtain ⟨n, job, before, hget, hbefore, hfails⟩ := decodeInOrder_eq_error_iff.mp he
    refine ⟨n, job, before, e, rfl, hget, hbefore, hfails, ?_⟩
    rw [h.handed_of_done hworkers hdone, callsInOrder,
      length_sinkCalls_of_error hget hbefore hfails]

/-- Two workers on four jobs, the third of which cannot be decoded. -/
def thirdUnreadable : DecodePool Nat Nat (List Nat) String where
  jobs := [0, 1, 2, 3]
  workers := 2
  decode n := if n = 2 then .error "unreadable" else .ok (10 * n)
  sink blocks _ b := .ok (blocks ++ [b])

/-- However the two workers race, the fourth block never goes to the sink. -/
theorem refinesInOrder_thirdUnreadable :
    0 < thirdUnreadable.workers ∧
      (∃ s, thirdUnreadable.Reachable [] s ∧ s.isDone) ∧
      ∀ s, thirdUnreadable.Reachable [] s → s.isDone →
        thirdUnreadable.outcome s = .error (.job "unreadable") ∧
          s.handed.map thirdUnreadable.blockAt? = [some (0, 0), some (1, 10)] := by
  have hworkers : 0 < thirdUnreadable.workers := by decide
  have h := refinesInOrder thirdUnreadable [] hworkers
  obtain ⟨t, -, hreach, hdone⟩ := h.exists_done _ .start
  exact ⟨hworkers, ⟨t, hreach, hdone⟩,
    fun s hs hdone => ⟨h.outcome_eq s hs hdone, h.calls_eq s hs hdone⟩⟩

end DecodePool

end GridSnapshot
