import GridSnapshot.DecodePool
import GridSnapshot.Proofs.Outcome

namespace GridSnapshot

open Outcome

section InOrder

variable {ι β σ ε : Type} {decode : ι → Except ε β} {sink : σ → ι → β → Except ε σ}
  {jobs rest : List ι} {s s' : σ} {job : ι} {e : ε}

theorem decodeInOrder_append :
    decodeInOrder decode sink (jobs ++ rest) s =
      (decodeInOrder decode sink jobs s).bind (decodeInOrder decode sink rest) := by
  induction jobs generalizing s with
  | nil => rfl
  | cons job jobs ih =>
    rw [List.cons_append, decodeInOrder, decodeInOrder]
    cases decode job with
    | error e => rfl
    | ok b =>
      cases hsink : sink s job b with
      | error e => simp only [bind, Except.bind, hsink]
      | ok next =>
        simp only [bind, Except.bind, hsink]
        exact ih

theorem decodeInOrder_append_of_error (h : decodeInOrder decode sink jobs s = .error e) :
    decodeInOrder decode sink (jobs ++ rest) s = .error e := by
  rw [decodeInOrder_append, h]
  rfl

theorem decodeInOrder_concat (h : decodeInOrder decode sink jobs s = .ok s') :
    decodeInOrder decode sink (jobs ++ [job]) s =
      (decode job).bind fun b => sink s' job b := by
  rw [decodeInOrder_append, h]
  simp only [Except.bind, decodeInOrder, bind]
  cases decode job with
  | error e => rfl
  | ok b => cases hsink : sink s' job b <;> simp only [hsink]

end InOrder

namespace DecodePool

variable {ι β σ ε : Type} {p : DecodePool ι β σ ε} {initial : σ} {s t : State β σ ε}

/-- The number that a worker has taken and not sent yet. -/
def Worker.number? : Worker β ε → Option Nat
  | idle => none
  | holding n => some n
  | sending n _ => some n
  | finished => none

def State.held (s : State β σ ε) : List Nat := s.workers.filterMap Worker.number?

/-- At how many places a job number is. -/
def State.places (s : State β σ ε) (k : Nat) : Nat :=
  s.queue.count k + s.held.count k + (s.channel.map Prod.fst).count k +
    (s.early.map Prod.fst).count k + if k < s.next then 1 else 0

/-- A message is the result of its job. -/
def IsResult (p : DecodePool ι β σ ε) (n : Nat) (result : Except ε β) : Prop :=
  ∃ job, p.jobs[n]? = some job ∧ result = p.decode job

theorem exists_setWorker {i : Nat} {w : Worker β ε} (h : s.workers[i]? = some w) :
    ∃ front back, s.workers = front ++ w :: back ∧
      ∀ w', (s.setWorker i w').workers = front ++ w' :: back := by
  obtain ⟨hi, hw⟩ := List.getElem?_eq_some_iff.mp h
  refine ⟨s.workers.take i, s.workers.drop (i + 1), ?_, fun w' => ?_⟩
  · rw [← hw, List.getElem_cons_drop, List.take_append_drop]
  · exact List.set_eq_take_append_cons_drop.trans (if_pos hi)

/-- A worker that is replaced takes its number away and brings the other's. -/
theorem count_held_setWorker {i : Nat} {w : Worker β ε} (h : s.workers[i]? = some w)
    (w' : Worker β ε) (k : Nat) :
    (s.setWorker i w').held.count k + w.number?.toList.count k =
      s.held.count k + w'.number?.toList.count k := by
  obtain ⟨front, back, hs, hset⟩ := exists_setWorker h
  have hcons (w : Worker β ε) : (w :: back).filterMap Worker.number? =
      w.number?.toList ++ back.filterMap Worker.number? := by
    rw [List.filterMap_cons]
    cases w.number? <;> rfl
  rw [State.held, State.held, hset, hs, List.filterMap_append, List.filterMap_append, hcons, hcons]
  simp only [List.count_append]
  omega

theorem places_setWorker {i : Nat} {w : Worker β ε} (h : s.workers[i]? = some w)
    (w' : Worker β ε) (k : Nat) :
    (s.setWorker i w').places k + w.number?.toList.count k =
      s.places k + w'.number?.toList.count k := by
  have hheld := count_held_setWorker h w' k
  have hqueue : (s.setWorker i w').queue = s.queue := rfl
  have hchannel : (s.setWorker i w').channel = s.channel := rfl
  have hearly : (s.setWorker i w').early = s.early := rfl
  have hnext : (s.setWorker i w').next = s.next := rfl
  rw [State.places, State.places, hqueue, hchannel, hearly, hnext]
  omega

theorem places_queue (s : State β σ ε) {n : Nat} {queue : List Nat} (h : s.queue = n :: queue)
    (k : Nat) : State.places { s with queue := queue } k + [n].count k = s.places k := by
  simp only [State.places, State.held, h, List.count_cons, List.count_nil]
  omega

theorem places_channel (s : State β σ ε) (n : Nat) (result : Except ε β) (k : Nat) :
    State.places { s with channel := s.channel ++ [(n, result)] } k = s.places k + [n].count k := by
  simp only [State.places, State.held, List.map_append, List.count_append, List.map_cons,
    List.map_nil]
  omega

/-- While the main loop receives, each number is at one place, and the workers leave only when the
queue is empty. -/
structure Located (p : DecodePool ι β σ ε) (s : State β σ ε) : Prop where
  places_eq : ∀ k, s.places k = if k < p.jobs.length then 1 else 0
  queue_eq : Worker.finished ∈ s.workers → s.queue = []

theorem mem_setWorker {i : Nat} {w w' : Worker β ε} (h : s.workers[i]? = some w)
    (hne : w' ≠ .finished) (hmem : Worker.finished ∈ (s.setWorker i w').workers) :
    Worker.finished ∈ s.workers := by
  obtain ⟨front, back, hs, hset⟩ := exists_setWorker h
  rw [hset, List.mem_append, List.mem_cons] at hmem
  rw [hs, List.mem_append, List.mem_cons]
  rcases hmem with hmem | hmem | hmem
  · exact .inl hmem
  · exact absurd hmem.symm hne
  · exact .inr (.inr hmem)

theorem located_start (p : DecodePool ι β σ ε) (initial : σ) : p.Located (p.start initial) where
  places_eq k := by
    have hheld : (p.start initial).held = [] := by
      rw [State.held, start, List.filterMap_replicate_of_none rfl]
    rw [State.places, hheld]
    simp [start, List.count_range]
  queue_eq hmem := by
    have hmem := List.eq_of_mem_replicate hmem
    cases hmem

theorem Located.of_places (h : p.Located s) (hplaces : ∀ k, t.places k = s.places k)
    (hqueue : Worker.finished ∈ t.workers → t.queue = []) : p.Located t where
  places_eq k := (hplaces k).trans (h.places_eq k)
  queue_eq := hqueue

theorem lookup_isSome_of_mem {γ : Type} {es : List (Nat × γ)} {k : Nat}
    (h : k ∈ es.map Prod.fst) : ∃ v, es.lookup k = some v := by
  induction es with
  | nil => cases h
  | cons e es ih =>
    obtain ⟨a, b⟩ := e
    rw [List.lookup_cons]
    by_cases hk : k = a
    · exact ⟨b, by simp [hk]⟩
    · have hbeq : (k == a) = false := beq_false_of_ne hk
      rw [hbeq]
      exact ih ((List.mem_cons.mp h).resolve_left hk)

theorem mem_of_lookup {γ : Type} {es : List (Nat × γ)} {k : Nat} {v : γ}
    (h : es.lookup k = some v) : (k, v) ∈ es := by
  induction es with
  | nil => cases h
  | cons e es ih =>
    obtain ⟨a, b⟩ := e
    rw [List.lookup_cons] at h
    by_cases hk : k = a
    · subst hk
      rw [beq_self_eq_true, Option.some.injEq] at h
      exact h ▸ List.mem_cons_self
    · have hbeq : (k == a) = false := beq_false_of_ne hk
      rw [hbeq] at h
      exact List.mem_cons_of_mem _ (ih h)

theorem count_filter_ne {γ : Type} (es : List (Nat × γ)) (n k : Nat) :
    ((es.filter fun m => m.1 ≠ n).map Prod.fst).count k =
      if k = n then 0 else (es.map Prod.fst).count k := by
  induction es with
  | nil => simp
  | cons e es ih =>
    obtain ⟨a, b⟩ := e
    by_cases ha : a = n
    · subst ha
      rw [List.filter_cons_of_neg (by simp), ih, List.map_cons, List.count_cons]
      by_cases hk : k = a
      · simp [hk]
      · simp [hk, Ne.symm hk]
    · rw [List.filter_cons_of_pos (by simpa using ha), List.map_cons, List.map_cons,
        List.count_cons, List.count_cons, ih]
      by_cases hk : k = n
      · subst hk
        simp [ha]
      · simp [hk]

/-- What was handed on is no longer among the early results, and all that waits stays. -/
theorem fields_handOn (p : DecodePool ι β σ ε) (s : State β σ ε) (job : ι)
    (result : Except ε β) :
    (p.handOn s job result).queue = s.queue ∧ (p.handOn s job result).workers = s.workers ∧
      (p.handOn s job result).channel = s.channel ∧
      (p.handOn s job result).early = s.early.filter (fun m => m.1 ≠ s.next) ∧
      (p.handOn s job result).next = s.next + 1 := by
  unfold DecodePool.handOn
  cases result with
  | error e => exact ⟨rfl, rfl, rfl, rfl, rfl⟩
  | ok b =>
    simp only
    split <;> exact ⟨rfl, rfl, rfl, rfl, rfl⟩

/-- The number whose turn it is moves from the early results to those that were handed on. -/
theorem Located.handOn (h : p.Located s) {job : ι} {result : Except ε β}
    (hearly : s.early.lookup s.next = some result) (hjob : p.jobs[s.next]? = some job) :
    p.Located (p.handOn s job result) := by
  obtain ⟨hqueue, hworkers, hchannel, hearly', hnext⟩ := fields_handOn p s job result
  refine h.of_places (fun k => ?_) ?_
  · have hcount : 1 ≤ (s.early.map Prod.fst).count s.next :=
      List.one_le_count_iff.mpr (List.mem_map_of_mem (mem_of_lookup hearly))
    have hone := h.places_eq s.next
    have hlt : s.next < p.jobs.length := (List.getElem?_eq_some_iff.mp hjob).1
    rw [if_pos hlt] at hone
    unfold State.places State.held at hone ⊢
    rw [hqueue, hworkers, hchannel, hearly', hnext, count_filter_ne]
    by_cases hk : k = s.next
    · subst hk
      rw [if_pos rfl, if_pos (Nat.lt_succ_self _), if_neg (Nat.lt_irrefl _)]
      rw [if_neg (Nat.lt_irrefl _)] at hone
      omega
    · have hiff : k < s.next + 1 ↔ k < s.next := by omega
      simp only [if_neg hk, hiff]
  · rw [hqueue, hworkers]
    exact h.queue_eq

/-- As long as the main loop receives, each action leaves the numbers at one place. -/
theorem Step.located (h : p.Step s t) (hs : p.Located s) (hphase : s.phase = .receiving) :
    p.Located t := by
  cases h with
  | @take i n queue hw hq =>
    refine hs.of_places (fun k => ?_) fun hmem => ?_
    · have hqueue := places_queue (s.setWorker i (.holding n)) hq k
      exact Nat.add_right_cancel (hqueue.trans (places_setWorker hw (.holding n) k))
    · have hqueue := hs.queue_eq (mem_setWorker hw (by simp) hmem)
      rw [hq] at hqueue
      cases hqueue
  | @leave i hw hq => exact hs.of_places (places_setWorker hw .finished) fun _ => hq
  | @decode i n job hw _ hjob =>
    refine hs.of_places (fun k => ?_) fun hmem => hs.queue_eq (mem_setWorker hw (by simp) hmem)
    exact Nat.add_right_cancel (places_setWorker hw (.sending n (p.decode job)) k)
  | drop hw hphase' => rcases hphase' with h | h <;> rw [hphase] at h <;> cases h
  | @send i n result hw hopen hroom =>
    refine hs.of_places (fun k => ?_) fun hmem => hs.queue_eq (mem_setWorker hw (by simp) hmem)
    exact (places_channel (s.setWorker i .idle) n result k).trans (places_setWorker hw .idle k)
  | refuse hw hclosed =>
    rw [hphase] at hclosed
    cases hclosed
  | receive hphase hnone hchannel =>
    refine hs.of_places (fun k => ?_) hs.queue_eq
    simp only [State.places, State.held, hchannel, List.map_cons, List.count_cons]
    omega
  | handOn _ hearly hjob => exact hs.handOn hearly hjob
  | exhaust => exact ⟨hs.places_eq, hs.queue_eq⟩
  | abort hended =>
    rw [hphase] at hended
    cases hended
  | close haborted =>
    rw [hphase] at haborted
    cases haborted

/-- The messages are results, and what went to the sink is what decoding in order gives. -/
structure Faithful (p : DecodePool ι β σ ε) (initial : σ) (s : State β σ ε) : Prop where
  sending : ∀ n result, Worker.sending n result ∈ s.workers → p.IsResult n result
  channel : ∀ m ∈ s.channel, p.IsResult m.1 m.2
  early : ∀ m ∈ s.early, p.IsResult m.1 m.2
  sink_eq : s.failure = none → s.next ≤ p.jobs.length ∧
    decodeInOrder p.decode p.sink (p.jobs.take s.next) initial = .ok s.sink
  failure_eq : ∀ e, s.failure = some e →
    decodeInOrder p.decode p.sink p.jobs initial = .error e
  receiving : s.phase = .receiving → s.failure = none
  ended : s.phase ≠ .receiving → s.failure = none → s.next = p.jobs.length

theorem sending_setWorker {i : Nat} {w w' : Worker β ε} (h : s.workers[i]? = some w)
    (hs : ∀ n result, Worker.sending n result ∈ s.workers → p.IsResult n result)
    (hw' : ∀ n result, w' = .sending n result → p.IsResult n result) :
    ∀ n result, Worker.sending n result ∈ (s.setWorker i w').workers → p.IsResult n result := by
  intro n result hmem
  obtain ⟨front, back, hworkers, hset⟩ := exists_setWorker h
  rw [hset, List.mem_append, List.mem_cons] at hmem
  rw [hworkers] at hs
  rcases hmem with hmem | hmem | hmem
  · exact hs n result (List.mem_append_left _ hmem)
  · exact hw' n result hmem.symm
  · exact hs n result (List.mem_append_right _ (List.mem_cons_of_mem _ hmem))

theorem faithful_start (p : DecodePool ι β σ ε) (initial : σ) :
    p.Faithful initial (p.start initial) where
  sending _ _ hmem := nomatch List.eq_of_mem_replicate hmem
  channel _ hm := nomatch hm
  early _ hm := nomatch hm
  sink_eq _ := ⟨Nat.zero_le _, rfl⟩
  failure_eq _ he := nomatch he
  receiving _ := rfl
  ended hphase := absurd rfl hphase

/-- The main loop may end on the failure that decoding in order ends on. -/
theorem faithful_stop {e : ε}
    (hsending : ∀ n result, Worker.sending n result ∈ s.workers → p.IsResult n result)
    (hchannel : ∀ m ∈ s.channel, p.IsResult m.1 m.2) (hearly : ∀ m ∈ s.early, p.IsResult m.1 m.2)
    (herror : decodeInOrder p.decode p.sink p.jobs initial = .error e) :
    p.Faithful initial (s.stop e) where
  sending := hsending
  channel := hchannel
  early := hearly
  sink_eq hnone := nomatch hnone
  failure_eq _ he := by
    cases he
    exact herror
  receiving hphase := nomatch hphase
  ended _ hnone := nomatch hnone

theorem Faithful.handOn (h : p.Faithful initial s) (hphase : s.phase = .receiving) {job : ι}
    {result : Except ε β} (hearly : s.early.lookup s.next = some result)
    (hjob : p.jobs[s.next]? = some job) : p.Faithful initial (p.handOn s job result) := by
  obtain ⟨hle, hsink⟩ := h.sink_eq (h.receiving hphase)
  obtain ⟨job', hjob', rfl⟩ := h.early _ (mem_of_lookup hearly)
  have hsame : job' = job := Option.some.inj (hjob'.symm.trans hjob)
  subst hsame
  obtain ⟨hlt, hget⟩ := List.getElem?_eq_some_iff.mp hjob
  have htake : p.jobs.take (s.next + 1) = p.jobs.take s.next ++ [job'] := by
    rw [List.take_succ_eq_append_getElem hlt, hget]
  have hnext : decodeInOrder p.decode p.sink (p.jobs.take (s.next + 1)) initial =
      (p.decode job').bind fun b => p.sink s.sink job' b := by
    rw [htake]
    exact decodeInOrder_concat hsink
  have hkept : ∀ m ∈ s.early.filter fun m => m.1 ≠ s.next, p.IsResult m.1 m.2 :=
    fun m hm => h.early m (List.mem_filter.mp hm).1
  have hfail {e : ε} (herror : decodeInOrder p.decode p.sink (p.jobs.take (s.next + 1)) initial =
      .error e) : decodeInOrder p.decode p.sink p.jobs initial = .error e := by
    rw [← List.take_append_drop (s.next + 1) p.jobs]
    exact decodeInOrder_append_of_error herror
  unfold DecodePool.handOn
  cases hdecode : p.decode job' with
  | error e =>
    rw [hdecode] at hnext
    exact faithful_stop h.sending h.channel hkept (hfail hnext)
  | ok b =>
    rw [hdecode] at hnext
    simp only
    split
    · rename_i e hput
      exact faithful_stop h.sending h.channel hkept (hfail (hnext.trans hput))
    · rename_i next hput
      exact {
        sending := h.sending
        channel := h.channel
        early := hkept
        sink_eq := fun _ => ⟨hlt, hnext.trans hput⟩
        failure_eq := fun e' he => by
          rw [h.receiving hphase] at he
          cases he
        receiving := fun _ => h.receiving hphase
        ended := fun hne => absurd hphase hne }

/-- When nothing comes any more, everything was handed on. -/
theorem Located.next_eq (h : p.Located s) (hne : s.workers ≠ [])
    (hfinished : s.workers.all Worker.isFinished) (hchannel : s.channel = [])
    (hearly : s.early.lookup s.next = none) (hle : s.next ≤ p.jobs.length) :
    s.next = p.jobs.length := by
  have hall : ∀ w ∈ s.workers, w = .finished := by
    intro w hw
    have hw := List.all_eq_true.mp hfinished w hw
    cases w with
    | finished => rfl
    | _ => cases hw
  obtain ⟨w, hw⟩ := List.exists_mem_of_ne_nil _ hne
  have hqueue := h.queue_eq (hall w hw ▸ hw)
  have hheld : s.held = [] := by
    refine List.filterMap_eq_nil_iff.mpr fun w hw => ?_
    rw [hall w hw]
    rfl
  have hcount : (s.early.map Prod.fst).count s.next = 0 := by
    refine List.count_eq_zero.mpr fun hmem => ?_
    obtain ⟨v, hv⟩ := lookup_isSome_of_mem hmem
    rw [hearly] at hv
    cases hv
  -- If there were a job whose turn it is, its number would be at one of the empty places.
  have hplaces := h.places_eq s.next
  rw [State.places, hqueue, hheld, hchannel, hcount, if_neg (Nat.lt_irrefl _)] at hplaces
  split at hplaces
  · cases hplaces
  · omega

/-- Each action keeps the main loop true to decoding in order. -/
theorem Step.faithful (h : p.Step s t) (hs : p.Faithful initial s)
    (hlocated : s.phase = .receiving → p.Located s) (hworkers : s.workers ≠ []) :
    p.Faithful initial t := by
  cases h with
  | take hw hq =>
    exact { hs with sending := sending_setWorker hw hs.sending (by simp) }
  | leave hw hq =>
    exact { hs with sending := sending_setWorker hw hs.sending (by simp) }
  | @decode i n job hw hphase hjob =>
    refine { hs with sending := sending_setWorker hw hs.sending ?_ }
    intro n' result heq
    cases heq
    exact ⟨job, hjob, rfl⟩
  | drop hw hphase =>
    exact { hs with sending := sending_setWorker hw hs.sending (by simp) }
  | @send i n result hw hopen hroom =>
    refine { hs with
      sending := sending_setWorker hw hs.sending (by simp)
      channel := fun m hm => ?_ }
    rcases List.mem_append.mp hm with hm | hm
    · exact hs.channel m hm
    · obtain rfl := List.mem_singleton.mp hm
      exact hs.sending n result (List.mem_of_getElem? hw)
  | refuse hw hclosed =>
    exact { hs with sending := sending_setWorker hw hs.sending (by simp) }
  | @receive message channel hphase hnone hchannel =>
    obtain ⟨hmessage, hrest⟩ := List.forall_mem_cons.mp (hchannel ▸ hs.channel)
    exact { hs with
      channel := hrest
      early := List.forall_mem_cons.mpr ⟨hmessage, hs.early⟩ }
  | handOn hphase hearly hjob => exact hs.handOn hphase hearly hjob
  | exhaust hphase hearly hchannel hfinished =>
    have hle := (hs.sink_eq (hs.receiving hphase)).1
    have hnext := (hlocated hphase).next_eq hworkers hfinished hchannel hearly hle
    exact { hs with
      receiving := fun hphase => nomatch hphase
      ended := fun _ _ => hnext }
  | abort hphase =>
    exact { hs with
      receiving := fun hphase => nomatch hphase
      ended := fun _ => hs.ended (by simp [hphase]) }
  | close hphase =>
    exact { hs with
      channel := fun _ hm => nomatch hm
      receiving := fun hphase => nomatch hphase
      ended := fun _ => hs.ended (by simp [hphase]) }

/-- The main loop does not begin again. -/
theorem Step.receiving (h : p.Step s t) (ht : t.phase = .receiving) : s.phase = .receiving := by
  cases h with
  | handOn hphase => exact hphase
  | exhaust hphase => exact hphase
  | abort => cases ht
  | close => cases ht
  | _ => exact ht

theorem Reachable.invariant (h : p.Reachable initial s) (hworkers : 0 < p.workers) :
    (s.phase = .receiving → p.Located s) ∧ p.Faithful initial s := by
  induction h with
  | start => exact ⟨fun _ => located_start p initial, faithful_start p initial⟩
  | step hreach hstep ih =>
    refine ⟨fun ht => ?_, ?_⟩
    · have hs := hstep.receiving ht
      exact hstep.located (ih.1 hs) hs
    · refine hstep.faithful ih.2 ih.1 (List.ne_nil_of_length_pos ?_)
      rw [hreach.length_workers]
      exact hworkers

/-- A pool that is done returns what decoding in order returns. -/
theorem Reachable.outcome_eq (h : p.Reachable initial s) (hworkers : 0 < p.workers)
    (hdone : s.isDone) :
    p.outcome s = (decodeInOrder p.decode p.sink p.jobs initial).mapError .job := by
  have hs := (h.invariant hworkers).2
  have hphase : s.phase ≠ .receiving := by
    intro hphase
    simp [State.isDone, hphase] at hdone
  unfold outcome
  cases hfailure : s.failure with
  | some e => rw [hs.failure_eq e hfailure]; rfl
  | none =>
    have hnext := hs.ended hphase hfailure
    have hsink := (hs.sink_eq hfailure).2
    rw [hnext, List.take_length] at hsink
    simp only [hnext, Nat.lt_irrefl, if_false, hsink]
    rfl

end DecodePool

end GridSnapshot
