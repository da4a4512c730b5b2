import GridSnapshot.Proofs.PoolRuns
import Mathlib.Algebra.GroupWithZero.Nat

namespace GridSnapshot.DecodePool

variable {ι β σ ε : Type} {p : DecodePool ι β σ ε} {initial : σ} {s t : State β σ ε}

/-- A number counts less at each place that it comes to. -/
def Worker.remaining : Worker β ε → Nat
  | idle => 1
  | holding _ => 5
  | sending _ _ => 4
  | finished => 0

def Phase.remaining : Phase → Nat
  | receiving => 3
  | ended => 2
  | aborted => 1
  | closed => 0

/-- No run from here has more actions than this. -/
def State.remaining (s : State β σ ε) : Nat :=
  5 * s.queue.length + (s.workers.map Worker.remaining).sum + 2 * s.channel.length +
    s.early.length + s.phase.remaining

theorem remaining_setWorker {i : Nat} {w : Worker β ε} (h : s.workers[i]? = some w)
    (w' : Worker β ε) :
    (s.setWorker i w').remaining + w.remaining = s.remaining + w'.remaining := by
  obtain ⟨front, back, hs, hset⟩ := exists_setWorker h
  have hqueue : (s.setWorker i w').queue = s.queue := rfl
  have hchannel : (s.setWorker i w').channel = s.channel := rfl
  have hearly : (s.setWorker i w').early = s.early := rfl
  have hphase : (s.setWorker i w').phase = s.phase := rfl
  rw [State.remaining, State.remaining, hqueue, hchannel, hearly, hphase, hset, hs]
  simp only [List.map_append, List.map_cons, List.sum_append, List.sum_cons]
  omega

theorem remaining_setWorker_lt {i : Nat} {w w' : Worker β ε} (h : s.workers[i]? = some w)
    (hlt : w'.remaining < w.remaining) : (s.setWorker i w').remaining < s.remaining := by
  have hworker := remaining_setWorker h w'
  omega

theorem length_filter_lt_of_lookup {γ : Type} {es : List (Nat × γ)} {k : Nat} {v : γ}
    (h : es.lookup k = some v) : (es.filter fun m => m.1 ≠ k).length < es.length :=
  List.length_filter_lt_length_iff_exists.mpr ⟨(k, v), mem_of_lookup h, by simp⟩

theorem Step.remaining_lt (h : p.Step s t) : t.remaining < s.remaining := by
  cases h with
  | @take i n queue hw hq =>
    have hworker := remaining_setWorker hw (.holding n)
    have hlength : s.queue.length = queue.length + 1 := by rw [hq, List.length_cons]
    have hqueue : State.remaining { s.setWorker i (.holding n) with queue := queue } + 5 =
        (s.setWorker i (.holding n)).remaining := by
      simp only [State.remaining, State.setWorker, hlength]
      omega
    simp only [Worker.remaining] at hworker
    omega
  | leave hw _ => exact remaining_setWorker_lt hw Nat.zero_lt_one
  | decode hw _ _ => exact remaining_setWorker_lt hw (Nat.lt_succ_self 4)
  | drop hw _ => exact remaining_setWorker_lt hw (Nat.zero_lt_succ 4)
  | @send i n result hw _ _ =>
    have hworker := remaining_setWorker hw .idle
    have hchannel : State.remaining { s.setWorker i .idle with
        channel := s.channel ++ [(n, result)] } = (s.setWorker i .idle).remaining + 2 := by
      simp only [State.remaining, State.setWorker, List.length_append, List.length_singleton]
      omega
    simp only [Worker.remaining] at hworker
    omega
  | refuse hw _ => exact remaining_setWorker_lt hw (Nat.zero_lt_succ 3)
  | receive _ _ hchannel =>
    simp only [State.remaining, hchannel, List.length_cons]
    omega
  | @handOn job result hphase hearly _ =>
    obtain ⟨hqueue, hworkers, hchannel, hearly', -⟩ := fields_handOn p s job result
    have hlt := length_filter_lt_of_lookup hearly
    have hle : (p.handOn s job result).phase.remaining ≤ Phase.receiving.remaining := by
      cases (p.handOn s job result).phase <;> decide
    rw [State.remaining, State.remaining, hqueue, hworkers, hchannel, hearly', hphase]
    omega
  | exhaust hphase _ _ _ =>
    simp only [State.remaining, hphase, Phase.remaining]
    omega
  | abort hphase =>
    simp only [State.remaining, hphase, Phase.remaining]
    omega
  | close hphase =>
    simp only [State.remaining, hphase, Phase.remaining, List.length_nil]
    omega

/-- No run goes on forever. -/
theorem acc_step (p : DecodePool ι β σ ε) (s : State β σ ε) : Acc (fun t s => p.Step s t) s :=
  Subrelation.accessible Step.remaining_lt ((measure State.remaining).wf.apply s)

theorem exists_unfinished (h : s.workers.all Worker.isFinished = false) :
    ∃ (i : Nat) (w : Worker β ε), s.workers[i]? = some w ∧ w ≠ .finished := by
  obtain ⟨w, hmem, hw⟩ := List.all_eq_false.mp h
  obtain ⟨i, hi⟩ := List.mem_iff_getElem?.mp hmem
  refine ⟨i, w, hi, fun heq => ?_⟩
  rw [heq] at hw
  exact hw rfl

theorem Located.lt_of_number (h : p.Located s) {w : Worker β ε} {n : Nat} (hw : w ∈ s.workers)
    (hn : w.number? = some n) : n < p.jobs.length := by
  have hcount : 1 ≤ s.held.count n :=
    List.one_le_count_iff.mpr (List.mem_filterMap.mpr ⟨w, hw, hn⟩)
  have hplaces : s.places n = if n < p.jobs.length then 1 else 0 := h.places_eq n
  rcases Nat.lt_or_ge n p.jobs.length with hlt | hge
  · exact hlt
  · rw [if_neg (Nat.not_lt.mpr hge), State.places] at hplaces
    omega

/-- While the main loop waits, a worker has something to do. -/
theorem Located.exists_step_of_worker (h : p.Located s) {i : Nat} {w : Worker β ε}
    (hw : s.workers[i]? = some w) (hne : w ≠ .finished) (hphase : s.phase = .receiving)
    (hchannel : s.channel.length < p.capacity) : ∃ t, p.Step s t := by
  cases w with
  | idle =>
    cases hq : s.queue with
    | nil => exact ⟨_, .leave hw hq⟩
    | cons n queue => exact ⟨_, .take hw hq⟩
  | holding n =>
    have hlt := h.lt_of_number (List.mem_of_getElem? hw) rfl
    exact ⟨_, .decode hw (.inl hphase) (List.getElem?_eq_getElem hlt)⟩
  | sending n result =>
    have hopen : s.phase ≠ .closed := by
      rw [hphase]
      decide
    exact ⟨_, .send hw hopen hchannel⟩
  | finished => exact absurd rfl hne

/-- After the main loop has closed the channel, a worker takes a number or leaves. -/
theorem exists_step_of_closed {i : Nat} {w : Worker β ε} (hw : s.workers[i]? = some w)
    (hne : w ≠ .finished) (hphase : s.phase = .closed) : ∃ t, p.Step s t := by
  cases w with
  | idle =>
    cases hq : s.queue with
    | nil => exact ⟨_, .leave hw hq⟩
    | cons n queue => exact ⟨_, .take hw hq⟩
  | holding n => exact ⟨_, .drop hw (.inr hphase)⟩
  | sending n result => exact ⟨_, .refuse hw hphase⟩
  | finished => exact absurd rfl hne

/-- A pool that is not done is not stuck. -/
theorem Reachable.exists_step (h : p.Reachable initial s) (hworkers : 0 < p.workers)
    (hdone : s.isDone = false) : ∃ t, p.Step s t := by
  obtain ⟨hlocated, hs⟩ := h.invariant hworkers
  cases hphase : s.phase with
  | receiving =>
    cases hearly : s.early.lookup s.next with
    | some result =>
      obtain ⟨job, hjob, -⟩ := hs.early _ (mem_of_lookup hearly)
      exact ⟨_, .handOn hphase hearly hjob⟩
    | none =>
      cases hchannel : s.channel with
      | cons message channel => exact ⟨_, .receive hphase hearly hchannel⟩
      | nil =>
        cases hall : s.workers.all Worker.isFinished with
        | true => exact ⟨_, .exhaust hphase hearly hchannel hall⟩
        | false =>
          -- The main loop has to wait, and there is room in the channel.
          obtain ⟨i, w, hw, hne⟩ := exists_unfinished hall
          refine (hlocated hphase).exists_step_of_worker hw hne hphase ?_
          rw [hchannel, capacity, List.length_nil]
          omega
  | ended => exact ⟨_, .abort hphase⟩
  | aborted => exact ⟨_, .close hphase⟩
  | closed =>
    have hall : s.workers.all Worker.isFinished = false := by
      simpa [State.isDone, hphase] using hdone
    obtain ⟨i, w, hw, hne⟩ := exists_unfinished hall
    exact exists_step_of_closed hw hne hphase

end GridSnapshot.DecodePool
