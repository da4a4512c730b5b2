import GridSnapshot.Proofs.RecordWords
import Mathlib.Algebra.Group.Nat.Defs
import Mathlib.Tactic.SplitIfs

namespace GridSnapshot

namespace Record

def encode (payloads : List Bytes) : Bytes := payloads.flatMap frame

/-- Where the first n frames end. -/
def frameEnd (payloads : List Bytes) (n : Nat) : Nat := (encode (payloads.take n)).length

variable {payloads : List Bytes} {payload : Bytes}

theorem length_frame (payload : Bytes) : (frame payload).length = payload.length + 8 := by
  simp only [frame, List.length_append, Word.length_encode]
  omega

theorem encode_cons (payload : Bytes) (payloads : List Bytes) :
    encode (payload :: payloads) = frame payload ++ encode payloads := List.flatMap_cons

theorem frameEnd_cons (payload : Bytes) (payloads : List Bytes) (n : Nat) :
    frameEnd (payload :: payloads) (n + 1) = (frame payload).length + frameEnd payloads n := by
  rw [frameEnd, List.take_succ_cons, encode_cons, List.length_append, frameEnd]

theorem frameEnd_length (payloads : List Bytes) :
    frameEnd payloads payloads.length = (encode payloads).length := by
  rw [frameEnd, List.take_length]

theorem frameEnd_le (payloads : List Bytes) {m n : Nat} (h : m ≤ n) :
    frameEnd payloads m ≤ frameEnd payloads n := by
  induction payloads generalizing m n with
  | nil => simp [frameEnd]
  | cons payload payloads ih =>
    cases m with
    | zero => exact Nat.zero_le _
    | succ m =>
      obtain ⟨n, rfl⟩ : ∃ n', n = n' + 1 := ⟨n - 1, by omega⟩
      rw [frameEnd_cons, frameEnd_cons]
      exact Nat.add_le_add_left (ih (Nat.le_of_succ_le_succ h)) _

theorem frameEnd_succ {n : Nat} (h : payloads[n]? = some payload) :
    frameEnd payloads (n + 1) = frameEnd payloads n + (frame payload).length := by
  induction payloads generalizing n with
  | nil => cases h
  | cons first payloads ih =>
    rw [frameEnd_cons]
    cases n with
    | zero =>
      cases h
      simp [frameEnd, encode]
    | succ n => rw [frameEnd_cons, ih h, Nat.add_assoc]

/-- The frames that end before a byte of the frame of record n are those of the records before. -/
theorem frameEnd_le_iff {i j n : Nat} (h : payloads[n]? = some payload)
    (hj : j < (frame payload).length) :
    frameEnd payloads i ≤ frameEnd payloads n + j ↔ i ≤ n := by
  constructor
  · intro hle
    apply Nat.le_of_not_lt
    intro hlt
    have hnext := frameEnd_succ h
    have hmono : frameEnd payloads (n + 1) ≤ frameEnd payloads i := frameEnd_le payloads hlt
    omega
  · intro hi
    exact Nat.le_add_right_of_le (frameEnd_le payloads hi)

/-- A cut before the end is at the start of some frame or inside it. -/
theorem exists_cut {k : Nat} (h : k < (encode payloads).length) :
    ∃ n payload j, payloads[n]? = some payload ∧ j < (frame payload).length ∧
      k = frameEnd payloads n + j ∧
      (encode payloads).take k = encode (payloads.take n) ++ (frame payload).take j := by
  induction payloads generalizing k with
  | nil => cases h
  | cons payload payloads ih =>
    rw [encode_cons, List.length_append] at h
    rw [encode_cons]
    rcases Nat.lt_or_ge k (frame payload).length with hlt | hge
    · exact ⟨0, payload, k, rfl, hlt, (Nat.zero_add k).symm,
        List.take_append_of_le_length (Nat.le_of_lt hlt)⟩
    · obtain ⟨m, rfl⟩ := Nat.exists_eq_add_of_le hge
      obtain ⟨n, payload', j, hget, hj, hk, htake⟩ := ih (Nat.lt_of_add_lt_add_left h)
      refine ⟨n + 1, payload', j, hget, hj, ?_, ?_⟩
      · rw [frameEnd_cons, hk, Nat.add_assoc]
      · rw [List.take_length_add_append, htake, List.take_succ_cons, encode_cons,
          List.append_assoc]

end Record

namespace RecordStream

open Record

variable {r r' : RecordStream} {payload : Bytes} {payloads : List Bytes} {e : RecordFault}

theorem next_nil (n : Nat) : RecordStream.next ⟨[], n⟩ = (.ok none, ⟨[], n⟩) := by
  simp [RecordStream.next]

theorem next_eq_none (h : r.next = (.ok none, r')) : r.rest = [] ∧ r' = r := by
  unfold RecordStream.next at h
  simp only at h
  split_ifs at h with hhead
  · rw [List.length_eq_zero_iff, List.take_eq_nil_iff] at hhead
    cases h
    exact ⟨hhead.resolve_left (by decide), rfl⟩
  all_goals cases h

/-- A payload is read from nothing but its frame. -/
theorem next_eq_some (h : r.next = (.ok (some payload), r')) :
    payload.length < Word.count 4 ∧ r.rest = frame payload ++ r'.rest ∧ r'.count = r.count + 1 := by
  unfold RecordStream.next at h
  simp only at h
  split_ifs at h with hnone hshort hpayload htail hsame
  all_goals cases h
  generalize hhead : r.rest.take 4 = head at *
  generalize hrest : r.rest.drop 4 = rest at *
  generalize htrailer : (rest.drop (Word.decode head)).take 4 = trailer at *
  have hlength : (rest.take (Word.decode head)).length = Word.decode head := by
    have hle := List.length_take_le (Word.decode head) rest
    omega
  have hfour : head.length = 4 ∧ trailer.length = 4 := by
    have hle := List.length_take_le 4 r.rest
    have hle' := List.length_take_le 4 (rest.drop (Word.decode head))
    rw [hhead] at hle
    rw [htrailer] at hle'
    omega
  have hmarker := Word.encode_decode head
  have htrailing := Word.encode_decode trailer
  have hlt := Word.decode_lt head
  rw [hfour.1] at hmarker hlt
  rw [hfour.2, Decidable.not_not.mp hsame, hmarker] at htrailing
  refine ⟨by rw [hlength]; exact hlt, ?_, rfl⟩
  calc r.rest = head ++ rest := by rw [← hhead, ← hrest, List.take_append_drop]
    _ = head ++ (rest.take (Word.decode head) ++ (trailer ++
          (rest.drop (Word.decode head)).drop 4)) := by
        rw [← htrailer, List.take_append_drop, List.take_append_drop]
    _ = frame (rest.take (Word.decode head)) ++ (rest.drop (Word.decode head)).drop 4 := by
        rw [frame, hlength, hmarker, htrailing, List.append_assoc, List.append_assoc]

theorem count_of_next_error (h : r.next = (.error e, r')) : r'.count = r.count := by
  unfold RecordStream.next at h
  simp only at h
  split_ifs at h <;> cases h <;> rfl

/-- A frame that is cut off cannot be read. -/
theorem next_take_frame {k n : Nat} (h : payload.length < Word.count 4) (hpos : 0 < k)
    (hlt : k < (frame payload).length) :
    ∃ e r, RecordStream.next ⟨(frame payload).take k, n⟩ = (.error e, r) ∧
      e.kind = .unexpectedEnd := by
  have hlength : ((frame payload).take k).length = k := List.length_take_of_le (Nat.le_of_lt hlt)
  rw [length_frame] at hlt
  unfold RecordStream.next
  simp only [List.length_take, List.length_drop, hlength]
  split_ifs with hnone hmarker hpayload htrailer hsame
  · omega
  · exact ⟨_, _, rfl, rfl⟩
  · exact ⟨_, _, rfl, rfl⟩
  · exact ⟨_, _, rfl, rfl⟩
  all_goals
    have hfour : 4 ≤ k := by omega
    have hhead : ((frame payload).take k).take 4 = Word.encode 4 payload.length := by
      rw [List.take_take, Nat.min_eq_left hfour, frame, List.append_assoc,
        List.take_left' (Word.length_encode 4 _)]
    rw [hhead, Word.decode_encode h] at hpayload htrailer
    omega

theorem length_rest_lt_of_next (h : r.next = (.ok (some payload), r')) :
    r'.rest.length < r.rest.length := by
  have hrest := (next_eq_some h).2.1
  rw [hrest, List.length_append, length_frame]
  omega

/-- What reading a stream to its end gives, or up to the first failure. -/
structure Contents where
  payloads : List Bytes
  ending : Except RecordFault Unit
  stream : RecordStream

def readAll (r : RecordStream) : Contents :=
  match h : r.next with
  | (.error e, r') => ⟨[], .error e, r'⟩
  | (.ok none, r') => ⟨[], .ok (), r'⟩
  | (.ok (some payload), r') =>
    have : r'.rest.length < r.rest.length := length_rest_lt_of_next h
    { r'.readAll with payloads := payload :: r'.readAll.payloads }
  termination_by r.rest.length

theorem readAll_of_error (h : r.next = (.error e, r')) : r.readAll = ⟨[], .error e, r'⟩ := by
  rw [readAll]
  split
  all_goals
    rename_i hnext
    rw [h] at hnext
    cases hnext
  rfl

theorem readAll_of_none (h : r.next = (.ok none, r')) : r.readAll = ⟨[], .ok (), r'⟩ := by
  rw [readAll]
  split
  all_goals
    rename_i hnext
    rw [h] at hnext
    cases hnext
  rfl

theorem readAll_of_some (h : r.next = (.ok (some payload), r')) :
    r.readAll = { r'.readAll with payloads := payload :: r'.readAll.payloads } := by
  rw [readAll]
  split
  all_goals
    rename_i hnext
    rw [h] at hnext
    cases hnext
  rfl

/-- Whole frames are read, and reading goes on behind them. -/
theorem readAll_encode_append (h : ∀ p ∈ payloads, p.length < Word.count 4) (rest : Bytes)
    (n : Nat) :
    readAll ⟨encode payloads ++ rest, n⟩ =
      { readAll ⟨rest, n + payloads.length⟩ with
        payloads := payloads ++ (readAll ⟨rest, n + payloads.length⟩).payloads } := by
  induction payloads generalizing n with
  | nil => simp [encode]
  | cons payload payloads ih =>
    obtain ⟨hpayload, hpayloads⟩ := List.forall_mem_cons.mp h
    have hnext : RecordStream.next ⟨encode (payload :: payloads) ++ rest, n⟩ =
        (.ok (some payload), ⟨encode payloads ++ rest, n + 1⟩) := by
      rw [encode_cons, List.append_assoc]
      exact Reading.next_frame hpayload
    rw [readAll_of_some hnext, ih hpayloads, List.length_cons, Nat.add_right_comm, Nat.add_assoc]
    simp only [List.cons_append]

theorem readAll_encode (h : ∀ p ∈ payloads, p.length < Word.count 4) :
    readAll ⟨encode payloads, 0⟩ = ⟨payloads, .ok (), ⟨[], payloads.length⟩⟩ := by
  have hall := readAll_encode_append h [] 0
  rw [List.append_nil, Nat.zero_add, readAll_of_none (next_nil _), List.append_nil] at hall
  exact hall

/-- Reading ends well on nothing but whole frames. -/
theorem rest_of_readAll_ok (h : r.readAll = ⟨payloads, .ok (), r'⟩) :
    r.rest = encode payloads ∧ (∀ p ∈ payloads, p.length < Word.count 4) ∧
      r' = ⟨[], r.count + payloads.length⟩ := by
  induction payloads generalizing r with
  | nil =>
    rcases hnext : r.next with ⟨e | none | payload, r''⟩
    · rw [readAll_of_error hnext] at h
      cases h
    · rw [readAll_of_none hnext] at h
      cases h
      obtain ⟨hrest, rfl⟩ := next_eq_none hnext
      exact ⟨hrest, by simp, by rw [← hrest]; rfl⟩
    · rw [readAll_of_some hnext] at h
      cases h
  | cons payload payloads ih =>
    rcases hnext : r.next with ⟨e | none | payload', r''⟩
    · rw [readAll_of_error hnext] at h
      cases h
    · rw [readAll_of_none hnext] at h
      cases h
    · rw [readAll_of_some hnext] at h
      simp only [Contents.mk.injEq, List.cons.injEq] at h
      obtain ⟨⟨rfl, hpayloads⟩, hending, hstream⟩ := h
      have htail : r''.readAll = ⟨payloads, .ok (), r'⟩ := by
        rw [← hpayloads, ← hending, ← hstream]
      obtain ⟨hshort, hrest, hcount⟩ := next_eq_some hnext
      obtain ⟨hencode, hall, rfl⟩ := ih htail
      refine ⟨?_, List.forall_mem_cons.mpr ⟨hshort, hall⟩, ?_⟩
      · rw [hrest, hencode, encode_cons]
      · rw [hcount, List.length_cons, Nat.add_right_comm, Nat.add_assoc]

/-- A stream that was cut off gives the records before the cut. -/
theorem readAll_take_encode (h : ∀ p ∈ payloads, p.length < Word.count 4) {k : Nat}
    (hk : k ≤ (encode payloads).length) :
    ∃ n ≤ payloads.length, ∃ ending rest,
      readAll ⟨(encode payloads).take k, 0⟩ = ⟨payloads.take n, ending, ⟨rest, n⟩⟩ ∧
      (∀ i < payloads.length, frameEnd payloads (i + 1) ≤ k ↔ i < n) ∧
      (ending = .ok () ↔ ∃ i ≤ payloads.length, k = frameEnd payloads i) ∧
      ∀ e, ending = .error e → e.kind = .unexpectedEnd := by
  rcases Nat.eq_or_lt_of_le hk with rfl | hlt
  · refine ⟨payloads.length, Nat.le_refl _, .ok (), [], ?_, fun i hi => ?_, ?_,
      fun _ he => nomatch he⟩
    · rw [List.take_length, List.take_length, readAll_encode h]
    · rw [← frameEnd_length]
      exact ⟨fun _ => hi, fun _ => frameEnd_le payloads hi⟩
    · exact ⟨fun _ => ⟨_, Nat.le_refl _, (frameEnd_length payloads).symm⟩, fun _ => rfl⟩
  · obtain ⟨n, payload, j, hget, hj, rfl, htake⟩ := exists_cut hlt
    have hn : n < payloads.length := (List.getElem?_eq_some_iff.mp hget).1
    have hlength : (payloads.take n).length = n := List.length_take_of_le (Nat.le_of_lt hn)
    have hfront : ∀ p ∈ payloads.take n, p.length < Word.count 4 :=
      fun p hp => h p (List.mem_of_mem_take hp)
    have hread := readAll_encode_append hfront ((frame payload).take j) 0
    rw [← htake, hlength, Nat.zero_add] at hread
    rcases Nat.eq_zero_or_pos j with rfl | hpos
    · rw [List.take_zero, readAll_of_none (next_nil n), List.append_nil] at hread
      exact ⟨n, Nat.le_of_lt hn, .ok (), [], hread, fun i _ => frameEnd_le_iff hget hj,
        ⟨fun _ => ⟨n, Nat.le_of_lt hn, rfl⟩, fun _ => rfl⟩, fun _ he => nomatch he⟩
    · have hshort := h payload (List.mem_of_getElem? hget)
      obtain ⟨e, ⟨rest, count⟩, hnext, hkind⟩ := next_take_frame (n := n) hshort hpos hj
      obtain rfl : count = n := count_of_next_error hnext
      rw [readAll_of_error hnext, List.append_nil] at hread
      refine ⟨count, Nat.le_of_lt hn, .error e, rest, hread, fun i _ => frameEnd_le_iff hget hj,
        ⟨nofun, ?_⟩, ?_⟩
      · rintro ⟨i, hi, hboundary⟩
        have hle := (frameEnd_le_iff hget hj).mp (Nat.le_of_eq hboundary.symm)
        have hmono := frameEnd_le payloads hle
        omega
      · intro e' he
        cases he
        exact hkind

/-- Streams of records are the concatenations of frames. What was framed is read back, with as many
records counted; what reads well to its end was framed; what was cut off gives the records whose
frames end at or before the cut and then ends well if and only if a frame ends there; and a record
that cannot be read is not counted. -/
theorem readAll_framed :
    (∀ payloads : List Bytes, (∀ p ∈ payloads, p.length < 2 ^ 32) →
      readAll ⟨encode payloads, 0⟩ = ⟨payloads, .ok (), ⟨[], payloads.length⟩⟩) ∧
    (∀ bytes payloads r, readAll ⟨bytes, 0⟩ = ⟨payloads, .ok (), r⟩ →
      bytes = encode payloads ∧ (∀ p ∈ payloads, p.length < 2 ^ 32) ∧ r.count = payloads.length) ∧
    (∀ payloads : List Bytes, (∀ p ∈ payloads, p.length < 2 ^ 32) →
      ∀ k ≤ (encode payloads).length, ∃ n ≤ payloads.length, ∃ ending rest,
        readAll ⟨(encode payloads).take k, 0⟩ = ⟨payloads.take n, ending, ⟨rest, n⟩⟩ ∧
        (∀ i < payloads.length, frameEnd payloads (i + 1) ≤ k ↔ i < n) ∧
        (ending = .ok () ↔ ∃ i ≤ payloads.length, k = frameEnd payloads i) ∧
        ∀ e, ending = .error e → e.kind = .unexpectedEnd) ∧
    ∀ r e r', RecordStream.next r = (.error e, r') → r'.count = r.count := by
  have hcount : (2 : Nat) ^ 32 = Word.count 4 := by decide
  rw [hcount]
  refine ⟨fun payloads h => readAll_encode h, fun bytes payloads r h => ?_,
    fun payloads h k hk => readAll_take_encode h hk, fun r e r' h => count_of_next_error h⟩
  obtain ⟨hbytes, hshort, rfl⟩ := rest_of_readAll_ok h
  exact ⟨hbytes, hshort, Nat.zero_add _⟩

/-- Three records of which the second is empty, cut off inside the second. -/
theorem readAll_framed_three :
    ∃ e rest, readAll ⟨(encode [[7], [], [1, 2]]).take 12, 0⟩ = ⟨[[7]], .error e, ⟨rest, 1⟩⟩ ∧
      e.kind = .unexpectedEnd := by
  obtain ⟨n, hn, ending, rest, hread, hbefore, hok, herror⟩ :=
    readAll_framed.2.2.1 [[7], [], [1, 2]] (by decide) 12 (by decide)
  obtain rfl : n = 1 := by
    have hfirst := (hbefore 0 (by decide)).mp (by decide)
    have hsecond := mt (hbefore 1 (by decide)).mpr (by decide)
    omega
  cases ending with
  | error e => exact ⟨e, rest, hread, herror e rfl⟩
  | ok u =>
    have hcut : ¬∃ i ≤ [[7], [], [1, 2]].length, 12 = frameEnd [[7], [], [1, 2]] i := by decide
    exact absurd (hok.mp rfl) hcut

end RecordStream

end GridSnapshot
