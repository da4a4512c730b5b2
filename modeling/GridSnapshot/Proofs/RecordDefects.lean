import GridSnapshot.Proofs.RecordStreams

namespace GridSnapshot

open Outcome

namespace Word

theorem readMany_eq {α : Type} (k : Nat) (f : Bytes → α) (n : Nat) (bs : Bytes) (out : Array α) :
    readMany k f n bs out =
      out ++ ((List.range n).map fun i => f ((bs.drop (i * k)).take k)).toArray := by
  induction n generalizing bs out with
  | zero => simp [readMany]
  | succ n ih =>
    have hdrop (i : Nat) : (bs.drop k).drop (i * k) = bs.drop ((i + 1) * k) := by
      rw [List.drop_drop, Nat.succ_mul, Nat.add_comm]
    rw [readMany, ih, List.range_succ_eq_map]
    simp only [hdrop, List.map_cons, List.map_map, Nat.zero_mul, List.drop_zero]
    simp [Function.comp_def]

end Word

namespace Record

/-- The count in front of a record. -/
def leading (bytes : Bytes) : Nat := Word.decode (bytes.take 4)

/-- The count behind the payload of a record. -/
def trailing (bytes : Bytes) : Nat := Word.decode ((bytes.drop (leading bytes + 4)).take 4)

/-- The bytes end before the record in front does, whose payload has two markers of four bytes. -/
def StopsShort (bytes : Bytes) : Prop := bytes.length < leading bytes + 8

/-- The bytes start with the frame of a payload whose length a marker can hold. -/
structure Framed (bytes payload rest : Bytes) : Prop where
  bytes_eq : bytes = frame payload ++ rest
  length_lt : payload.length < 2 ^ 32

/-- The bytes do not start with a frame. -/
inductive Broken (bytes : Bytes) : RecordFault.Kind → Prop where
  | short : StopsShort bytes → Broken bytes .unexpectedEnd
  | marker : ¬ StopsShort bytes → trailing bytes ≠ leading bytes → Broken bytes .malformed

/-- What is wrong with the record in front if its payload has to have n bytes. -/
inductive Defect (n : Nat) (bytes : Bytes) : RecordFault.Kind → Prop where
  | broken {kind} : Broken bytes kind → Defect n bytes kind
  | count {payload rest} : Framed bytes payload rest → payload.length ≠ n →
      Defect n bytes .malformed

/-- The reals that a payload holds, in order. -/
def values (p : Precision) (payload : Bytes) : List Float :=
  (List.range (payload.length / p.bytes)).map fun i =>
    p.decode ((payload.drop (i * p.bytes)).take p.bytes)

variable {bytes payload rest : Bytes} {kind : RecordFault.Kind} {p : Precision}

theorem count_four : Word.count 4 = 2 ^ 32 := by decide

theorem length_values (p : Precision) (payload : Bytes) :
    (values p payload).length = payload.length / p.bytes := by
  rw [values, List.length_map, List.length_range]

/-- A payload has a number of reals exactly if it has that many words. -/
theorem length_eq_mul_iff {n : Nat} : payload.length = n * p.bytes ↔
    payload.length % p.bytes = 0 ∧ payload.length / p.bytes = n := by
  constructor
  · intro h
    rw [h, Nat.mul_mod_left, Nat.mul_div_cancel _ p.bytes_pos]
    exact ⟨rfl, rfl⟩
  · rintro ⟨hmod, rfl⟩
    exact (Nat.div_mul_cancel (Nat.dvd_of_mod_eq_zero hmod)).symm

/-- A word counts the reals of a framed payload. -/
theorem Framed.length_values_lt (h : Framed bytes payload rest) (p : Precision) :
    (values p payload).length < Word.count 8 :=
  calc
    (values p payload).length = payload.length / p.bytes := length_values p payload
    _ ≤ payload.length := Nat.div_le_self _ _
    _ < 2 ^ 32 := h.length_lt
    _ < Word.count 8 := by decide

theorem leading_frame_append (h : payload.length < 2 ^ 32) (rest : Bytes) :
    leading (frame payload ++ rest) = payload.length := by
  rw [leading, frame, List.append_assoc, List.append_assoc,
    List.take_left' (Word.length_encode 4 _), Word.decode_encode (count_four ▸ h)]

theorem trailing_frame_append (h : payload.length < 2 ^ 32) (rest : Bytes) :
    trailing (frame payload ++ rest) = payload.length := by
  have hfront : (Word.encode 4 payload.length ++ payload).length = payload.length + 4 := by
    rw [List.length_append, Word.length_encode, Nat.add_comm]
  rw [trailing, leading_frame_append h, frame, List.append_assoc, List.drop_left' hfront,
    List.take_left' (Word.length_encode 4 _), Word.decode_encode (count_four ▸ h)]

theorem Framed.not_broken (h : Framed bytes payload rest) : ¬ Broken bytes kind := by
  obtain ⟨rfl, hlt⟩ := h
  rintro (hshort | ⟨-, hmarker⟩)
  · rw [StopsShort, leading_frame_append hlt, List.length_append, length_frame] at hshort
    omega
  · rw [leading_frame_append hlt, trailing_frame_append hlt] at hmarker
    exact hmarker rfl

theorem Broken.unique {kind' : RecordFault.Kind} (h : Broken bytes kind)
    (h' : Broken bytes kind') : kind = kind' := by
  cases h with
  | short hshort =>
    cases h' with
    | short => rfl
    | marker hnot => exact absurd hshort hnot
  | marker hnot =>
    cases h' with
    | short hshort => exact absurd hshort hnot
    | marker => rfl

end Record

open Record

variable {kind : RecordFault.Kind} {s s' : RecordStream} {what : String} {p : Precision}

/-- Bytes start with a frame, or it can be said what is wrong. -/
theorem RecordStream.next_cases (s : RecordStream) :
    (∃ payload rest, Framed s.rest payload rest ∧
      s.next = (.ok (some payload), ⟨rest, s.count + 1⟩)) ∨
    (s.rest = [] ∧ s.next = (.ok none, s)) ∨
    (∃ e s', s.next = (.error e, s') ∧ Broken s.rest e.kind) := by
  rcases hnext : s.next with ⟨e | none | payload, s'⟩
  · refine .inr (.inr ⟨e, s', rfl, ?_⟩)
    have hleading : leading s.rest = Word.decode (s.rest.take 4) := rfl
    have htrailing : trailing s.rest = Word.decode
        (((s.rest.drop 4).drop (Word.decode (s.rest.take 4))).take 4) := by
      rw [trailing, hleading, List.drop_drop, Nat.add_comm]
    unfold RecordStream.next at hnext
    simp only at hnext
    split_ifs at hnext with hnone hmarker hpayload htrailer hsame
    all_goals cases hnext
    all_goals rw [List.length_take] at hnone hmarker
    · refine .short ?_
      rw [StopsShort]
      omega
    · refine .short ?_
      rw [List.length_take, List.length_drop] at hpayload
      rw [StopsShort]
      omega
    · refine .short ?_
      rw [List.length_take, List.length_drop, List.length_drop] at htrailer
      rw [StopsShort]
      omega
    · refine .marker ?_ (htrailing ▸ hleading ▸ hsame)
      rw [List.length_take, List.length_drop] at hpayload
      rw [List.length_take, List.length_drop, List.length_drop] at htrailer
      rw [StopsShort]
      omega
  · obtain ⟨hrest, rfl⟩ := RecordStream.next_eq_none hnext
    exact .inr (.inl ⟨hrest, rfl⟩)
  · obtain ⟨hlt, hrest, hcount⟩ := RecordStream.next_eq_some hnext
    refine .inl ⟨payload, s'.rest, ⟨hrest, count_four ▸ hlt⟩, ?_⟩
    rw [← hcount]

namespace Reading

/-- A step fails with a fault of a kind. -/
def FailsAs {α : Type} (x : Reading α) (s : RecordStream) (kind : RecordFault.Kind) : Prop :=
  ∃ e s', Fails x s e s' ∧ e.kind = kind

theorem exists_decode_eq_error_iff {α : Type} {x : Reading α} {bytes : Bytes}
    {kind : RecordFault.Kind} :
    (∃ e, x.decode bytes = .error e ∧ e.kind = kind) ↔ FailsAs x ⟨bytes, 0⟩ kind := by
  simp only [decode, ← exists_fails_iff]
  constructor
  · rintro ⟨e, ⟨s', hfails⟩, hkind⟩
    exact ⟨e, s', hfails, hkind⟩
  · rintro ⟨e, s', hfails, hkind⟩
    exact ⟨e, ⟨s', hfails⟩, hkind⟩

theorem failsAs_bind_iff {α β : Type} {x : Reading α} {f : α → Reading β} :
    FailsAs (x >>= f) s kind ↔ FailsAs x s kind ∨ ∃ a t, Yields x s a t ∧ FailsAs (f a) t kind := by
  unfold FailsAs
  simp only [fails_bind_iff]
  constructor
  · rintro ⟨e, s', h | ⟨a, t, hx, hf⟩, hkind⟩
    · exact .inl ⟨e, s', h, hkind⟩
    · exact .inr ⟨a, t, hx, e, s', hf, hkind⟩
  · rintro (⟨e, s', h, hkind⟩ | ⟨a, t, hx, e, s', hf, hkind⟩)
    · exact ⟨e, s', .inl h, hkind⟩
    · exact ⟨e, s', .inr ⟨a, t, hx, hf⟩, hkind⟩

theorem not_failsAs_pure {α : Type} {a : α} : ¬ FailsAs (pure a) s kind := by
  rintro ⟨e, s', h, -⟩
  cases h

theorem failsAs_check_iff {α : Type} {x : Except RecordFault α} :
    FailsAs (check x) s kind ↔ ∃ e, x = .error e ∧ e.kind = kind := by
  constructor
  · rintro ⟨e, s', h, hkind⟩
    cases h
    exact ⟨e, rfl, hkind⟩
  · rintro ⟨e, rfl, hkind⟩
    exact ⟨e, s, rfl, hkind⟩

/-- A check that has one fault to report. -/
theorem exists_kind_iff {wrong : Prop} {fault : RecordFault} :
    (∃ e, (wrong ∧ e = fault) ∧ e.kind = kind) ↔ wrong ∧ kind = fault.kind := by
  constructor
  · rintro ⟨e, ⟨hwrong, rfl⟩, rfl⟩
    exact ⟨hwrong, rfl⟩
  · rintro ⟨hwrong, rfl⟩
    exact ⟨fault, ⟨hwrong, rfl⟩, rfl⟩

/-- The program goes on whatever fails in a step. -/
def NeverStops {α : Type} (x : Reading α) : Prop := ∀ s e s', Fails x s e s' → e.stops = false

section NeverStops

variable {α β : Type} {x : Reading α}

theorem NeverStops.pure (a : α) : NeverStops (Pure.pure a : Reading α) := nofun

theorem NeverStops.throw {e : RecordFault} (h : e.stops = false) :
    NeverStops (MonadExcept.throw e : Reading α) := by
  rintro s e' s' hfails
  cases hfails
  exact h

theorem NeverStops.bind {f : α → Reading β} (hx : x.NeverStops) (hf : ∀ a, (f a).NeverStops) :
    NeverStops (x >>= f) := by
  intro s e s' h
  rcases fails_bind_iff.mp h with h | ⟨a, t, -, h⟩
  · exact hx s e s' h
  · exact hf a t e s' h

theorem NeverStops.map {f : α → β} (hx : x.NeverStops) : NeverStops (f <$> x) := by
  rw [map_eq_pure_bind]
  exact hx.bind fun a => .pure (f a)

theorem NeverStops.check {r : Except RecordFault α} (h : ∀ e, r = .error e → e.stops = false) :
    NeverStops (Reading.check r) := by
  intro s e s' hfails
  cases hfails
  exact h e rfl

theorem NeverStops.of_decode {bytes : Bytes} {e : RecordFault} (hx : x.NeverStops)
    (h : x.decode bytes = .error e) : e.stops = false := by
  obtain ⟨s', hfails⟩ := exists_fails_iff.mpr h
  exact hx _ e s' hfails

theorem neverStops_next : Reading.next.NeverStops := by
  intro s e s' h
  have hnext : s.next = (.error e, s') := h
  unfold RecordStream.next at hnext
  simp only at hnext
  split_ifs at hnext
  all_goals cases hnext
  all_goals rfl

theorem neverStops_payload (what : String) : (Reading.payload what).NeverStops := by
  refine neverStops_next.bind fun found => ?_
  cases found with
  | none => exact .throw rfl
  | some payload => exact .pure payload

end NeverStops

theorem yields_next_none_iff : Yields Reading.next s none s' ↔ s.rest = [] ∧ s' = s := by
  constructor
  · intro h
    exact RecordStream.next_eq_none h
  · rintro ⟨hrest, rfl⟩
    obtain ⟨rest, count⟩ := s'
    obtain rfl : rest = [] := hrest
    exact RecordStream.next_nil count

theorem yields_next_some_iff {payload : Bytes} : Yields Reading.next s (some payload) s' ↔
    Framed s.rest payload s'.rest ∧ s'.count = s.count + 1 := by
  constructor
  · intro h
    obtain ⟨hlt, hrest, hcount⟩ := RecordStream.next_eq_some h
    exact ⟨⟨hrest, count_four ▸ hlt⟩, hcount⟩
  · rintro ⟨⟨hrest, hlt⟩, hcount⟩
    have hyields : Yields Reading.next ⟨Record.frame payload ++ s'.rest, s.count⟩ (some payload)
        ⟨s'.rest, s.count + 1⟩ := yields_next_frame (count_four ▸ hlt)
    rw [← hrest, ← hcount] at hyields
    exact hyields

/-- The end of the bytes is no fault of the record that is not there. -/
theorem failsAs_next_iff : FailsAs Reading.next s kind ↔ s.rest ≠ [] ∧ Broken s.rest kind := by
  constructor
  · rintro ⟨e, s', hfails, rfl⟩
    rcases RecordStream.next_cases s with ⟨payload, rest, -, hnext⟩ | ⟨-, hnext⟩ |
      ⟨e', t, hnext, hbroken⟩
    · cases hfails.symm.trans hnext
    · cases hfails.symm.trans hnext
    · cases hfails.symm.trans hnext
      refine ⟨fun hrest => ?_, hbroken⟩
      cases hfails.symm.trans (yields_next_none_iff.mpr ⟨hrest, rfl⟩)
  · rintro ⟨hrest, hbroken⟩
    rcases RecordStream.next_cases s with ⟨payload, rest, hframed, -⟩ | ⟨hempty, -⟩ |
      ⟨e, t, hnext, hbroken'⟩
    · exact absurd hbroken hframed.not_broken
    · exact absurd hempty hrest
    · exact ⟨e, t, hnext, hbroken'.unique hbroken⟩

theorem yields_payload_iff {payload : Bytes} :
    Yields (Reading.payload what) s payload s' ↔
      Framed s.rest payload s'.rest ∧ s'.count = s.count + 1 := by
  constructor
  · intro h
    obtain ⟨found, t, hnext, hfound⟩ := yields_bind_iff.mp h
    cases found with
    | none => cases hfound
    | some payload' =>
      obtain ⟨rfl, rfl⟩ := yields_pure_iff.mp hfound
      obtain ⟨hlt, hrest, hcount⟩ := RecordStream.next_eq_some hnext
      exact ⟨⟨hrest, count_four ▸ hlt⟩, hcount⟩
  · rintro ⟨⟨hrest, hlt⟩, hcount⟩
    have hyields : Yields (Reading.payload what) ⟨Record.frame payload ++ s'.rest, s.count⟩ payload
        ⟨s'.rest, s.count + 1⟩ := yields_payload_frame what (count_four ▸ hlt)
    rw [← hrest, ← hcount] at hyields
    exact hyields

theorem failsAs_payload_iff : FailsAs (Reading.payload what) s kind ↔ Broken s.rest kind := by
  rcases RecordStream.next_cases s with ⟨payload, rest, hframed, -⟩ | ⟨hrest, hnext⟩ |
    ⟨e, t, hnext, hbroken⟩
  · constructor
    · rintro ⟨e, s', hfails, -⟩
      have hyields : Yields (Reading.payload what) s payload ⟨rest, s.count + 1⟩ :=
        yields_payload_iff.mpr ⟨hframed, rfl⟩
      cases hfails.symm.trans hyields
    · intro hbroken
      exact absurd hbroken hframed.not_broken
  · have hfails : Fails (Reading.payload what) s (.missingRecord what) s :=
      Yields.bind_fails (a := none) hnext rfl
    have hshort : StopsShort s.rest := by
      rw [hrest]
      exact Nat.succ_pos _
    constructor
    · rintro ⟨e, s', hfails', rfl⟩
      cases hfails.symm.trans hfails'
      exact .short hshort
    · rintro (- | ⟨hnot, -⟩)
      · exact ⟨_, _, hfails, rfl⟩
      · exact absurd hshort hnot
  · have hfails : Fails (Reading.payload what) s e t := Fails.bind hnext
    constructor
    · rintro ⟨e', s', hfails', rfl⟩
      cases hfails.symm.trans hfails'
      exact hbroken
    · intro hbroken'
      exact ⟨e, t, hfails, hbroken.unique hbroken'⟩

section Reals

variable {α : Type} [Narrowing Float α] {payload : Bytes}

theorem reals_eq_ok_iff {xs : Array α} :
    Record.reals p payload = .ok xs ↔
      payload.length % p.bytes = 0 ∧ xs.toList = (Record.values p payload).map narrow := by
  unfold Record.reals
  split
  · rename_i hwidth
    simp only [reduceCtorEq, hwidth, false_and]
  · rename_i hwidth
    rw [Word.readMany_eq, Array.empty_append, Except.ok.injEq, Decidable.not_not.mp hwidth,
      Record.values, List.map_map, ← Array.toList_inj]
    simp only [true_and, Function.comp_def]
    exact eq_comm

theorem reals_eq_error_iff {e : RecordFault} :
    (Record.reals p payload : Except RecordFault (Array α)) = .error e ↔
      payload.length % p.bytes ≠ 0 ∧ e = .partialReals p.bytes payload.length := by
  unfold Record.reals
  split
  · rename_i hwidth
    simp only [Except.error.injEq, ne_eq, hwidth, not_false_eq_true, true_and]
    exact eq_comm
  · rename_i hwidth
    simp only [reduceCtorEq, hwidth, false_and]

theorem neverStops_reals (what : String) (p : Precision) :
    (Reading.reals what p : Reading (Array α)).NeverStops := by
  refine (neverStops_payload what).bind fun payload => .check fun e he => ?_
  rw [(reals_eq_error_iff.mp he).2]
  rfl

theorem yields_reals_iff {xs : Array α} :
    Yields (Reading.reals what p) s xs s' ↔ ∃ payload, Framed s.rest payload s'.rest ∧
      s'.count = s.count + 1 ∧ payload.length % p.bytes = 0 ∧
      xs.toList = (Record.values p payload).map narrow := by
  unfold Reading.reals
  simp only [yields_bind_iff, yields_check_iff, yields_payload_iff, reals_eq_ok_iff]
  constructor
  · rintro ⟨payload, t, ⟨hframed, hcount⟩, ⟨hwidth, hxs⟩, rfl⟩
    exact ⟨payload, hframed, hcount, hwidth, hxs⟩
  · rintro ⟨payload, hframed, hcount, hwidth, hxs⟩
    exact ⟨payload, s', ⟨hframed, hcount⟩, ⟨hwidth, hxs⟩, rfl⟩

theorem failsAs_reals_iff :
    FailsAs (Reading.reals what p : Reading (Array α)) s kind ↔ Broken s.rest kind ∨
      kind = .malformed ∧ ∃ payload rest, Framed s.rest payload rest ∧
        payload.length % p.bytes ≠ 0 := by
  unfold Reading.reals
  simp only [failsAs_bind_iff, failsAs_check_iff, failsAs_payload_iff, yields_payload_iff,
    reals_eq_error_iff]
  refine or_congr_right ?_
  constructor
  · rintro ⟨payload, t, ⟨hframed, -⟩, e, ⟨hwidth, rfl⟩, rfl⟩
    exact ⟨rfl, payload, t.rest, hframed, hwidth⟩
  · rintro ⟨rfl, payload, rest, hframed, hwidth⟩
    exact ⟨payload, ⟨rest, s.count + 1⟩, ⟨hframed, rfl⟩, _, ⟨hwidth, rfl⟩, rfl⟩

theorem size_eq {xs : Array α} (h : xs.toList = (Record.values p payload).map narrow) :
    xs.size = payload.length / p.bytes := by
  rw [← Array.length_toList, h, List.length_map, length_values]

/-- A record of reals whose number is checked next, where something else may be wrong as well. -/
theorem failsAs_counted_iff {β γ : Type} {n : Nat} {wrong : Prop}
    {x : Array α → Except RecordFault β} {f : Array α → β → Reading γ}
    (hx : ∀ xs, (∃ e, x xs = .error e ∧ e.kind = kind) ↔
      (wrong ∨ xs.size ≠ n) ∧ kind = .malformed) :
    FailsAs (Reading.reals what p >>= fun xs => check (x xs) >>= f xs) s kind ↔
      Defect (n * p.bytes) s.rest kind ∨
      (wrong ∧ kind = .malformed ∧ ∃ payload rest, Framed s.rest payload rest) ∨
      ∃ xs b t, Yields (Reading.reals what p) s xs t ∧ x xs = .ok b ∧ FailsAs (f xs b) t kind := by
  simp only [failsAs_bind_iff, failsAs_check_iff, yields_check_iff, failsAs_reals_iff, hx]
  constructor
  · rintro ((hbroken | ⟨rfl, payload, rest, hframed, hwidth⟩) |
      ⟨xs, t, hxs, ⟨hwrong | hsize, rfl⟩ | ⟨b, t, ⟨hb, rfl⟩, hf⟩⟩)
    · exact .inl (.broken hbroken)
    · exact .inl (.count hframed fun hlength => hwidth (length_eq_mul_iff.mp hlength).1)
    · obtain ⟨payload, hframed, -⟩ := yields_reals_iff.mp hxs
      exact .inr (.inl ⟨hwrong, rfl, payload, t.rest, hframed⟩)
    · obtain ⟨payload, hframed, -, -, hvalues⟩ := yields_reals_iff.mp hxs
      rw [size_eq hvalues] at hsize
      exact .inl (.count hframed fun hlength => hsize (length_eq_mul_iff.mp hlength).2)
    · exact .inr (.inr ⟨xs, b, t, hxs, hb, hf⟩)
  · -- A framed record that is wrong later on has to be a whole number of reals to get that far.
    have hlater {payload rest : Bytes} (hframed : Framed s.rest payload rest)
        (hsize : payload.length % p.bytes = 0 → wrong ∨ payload.length / p.bytes ≠ n)
        (hkind : kind = .malformed) :
        (Broken s.rest kind ∨ kind = .malformed ∧ ∃ payload rest,
          Framed s.rest payload rest ∧ payload.length % p.bytes ≠ 0) ∨
        ∃ xs t, Yields (Reading.reals what p) s xs t ∧
          ((wrong ∨ xs.size ≠ n) ∧ kind = .malformed ∨
            ∃ b t', (x xs = .ok b ∧ t' = t) ∧ FailsAs (f xs b) t' kind) := by
      by_cases hwidth : payload.length % p.bytes = 0
      · have hvalues : ((Record.values p payload).map (narrow : Float → α)).toArray.toList =
            (Record.values p payload).map narrow := rfl
        refine .inr ⟨_, ⟨rest, s.count + 1⟩, yields_reals_iff.mpr
          ⟨payload, hframed, rfl, hwidth, hvalues⟩, .inl ⟨?_, hkind⟩⟩
        rw [size_eq hvalues]
        exact hsize hwidth
      · exact .inl (.inr ⟨hkind, payload, rest, hframed, hwidth⟩)
    rintro ((hbroken | ⟨hframed, hlength⟩) | ⟨hwrong, rfl, payload, rest, hframed⟩ |
      ⟨xs, b, t, hxs, hb, hf⟩)
    · exact .inl (.inl hbroken)
    · exact hlater hframed
        (fun hwidth => .inr fun hdiv => hlength (length_eq_mul_iff.mpr ⟨hwidth, hdiv⟩)) rfl
    · exact hlater hframed (fun _ => .inl hwrong) rfl
    · exact .inr ⟨xs, t, hxs, .inr ⟨b, t, ⟨hb, rfl⟩, hf⟩⟩

end Reals

end Reading

end GridSnapshot
