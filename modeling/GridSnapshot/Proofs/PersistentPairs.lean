import GridSnapshot.Proofs.PersistentRecords
import GridSnapshot.Proofs.RecordDefects

namespace GridSnapshot

open Outcome

namespace Record

variable {payload : Bytes} {p : Precision} {id : Int}

/-- The words of k bytes that a payload consists of. -/
def words (k : Nat) (payload : Bytes) : List Bytes :=
  (List.range (payload.length / k)).map fun i => (payload.drop (i * k)).take k

theorem ints_eq_words (h : payload.length % 4 = 0) :
    ints payload = .ok ((words 4 payload).map signed) := by
  have hmany := Word.readMany_eq 4 signed (payload.length / 4) payload #[]
  unfold ints
  rw [if_neg (by omega), hmany, Array.empty_append, words, List.map_map]
  rfl

theorem reals_eq_words (h : payload.length % p.bytes = 0) :
    (reals p payload : Except RecordFault (Array Float)) =
      .ok ((words p.bytes payload).map p.decode).toArray := by
  have hvalues : (words p.bytes payload).map p.decode = values p payload := by
    rw [words, values, List.map_map]
    rfl
  apply Reading.reals_eq_ok_iff.mpr
  refine ⟨h, ?_⟩
  rw [hvalues]
  exact (List.map_id (values p payload)).symm

/-- The forms in which an id is stored: as a word of two bytes, or as a word of four bytes that any
number of such words may follow. -/
inductive HoldsId (id : Int) : Bytes → Prop where
  | short {word : Bytes} : word.length = 2 → signed word = id → HoldsId id word
  | long {word others : Bytes} : word.length = 4 → others.length % 4 = 0 → signed word = id →
      HoldsId id (word ++ others)

theorem HoldsId.idNumber_eq (h : HoldsId id payload) : idNumber payload = .ok id := by
  unfold idNumber
  cases h with
  | short hlen hid => rw [if_pos hlen, hid]
  | @long word others hlen hothers hid =>
    have htotal : (word ++ others).length = 4 + others.length := by
      rw [List.length_append, hlen]
    rw [if_neg (by omega), if_pos (by omega), List.take_left' hlen, hid]

/-- The bytes of a frame that was cut off end before its record does. -/
theorem stopsShort_take {k : Nat} (hk : k < (frame payload).length)
    (hlt : payload.length < 2 ^ 32) : StopsShort ((frame payload).take k) := by
  rw [length_frame] at hk
  have hlength : ((frame payload).take k).length = k :=
    List.length_take_of_le (by rw [length_frame]; omega)
  rw [StopsShort, hlength]
  by_cases hfour : 4 ≤ k
  · have hleading := leading_frame_append hlt []
    rw [List.append_nil] at hleading
    have hsame : leading ((frame payload).take k) = leading (frame payload) := by
      rw [leading, leading, List.take_take, Nat.min_eq_left hfour]
    omega
  · omega

end Record

/-- How many bytes a word of a kind has. -/
def PersistentKind.width (p : Precision) : PersistentKind → Nat
  | .int => 4
  | .real => p.bytes

namespace Persistence

open Record

variable {p : Precision} {id : Int} {fuel n : Nat} {values : Persistence Float} {rest : Bytes}

/-- A record that holds an id. -/
structure IdRecord (id : Int) where
  payload : Bytes
  holdsId : HoldsId id payload
  length_lt : payload.length < 2 ^ 32

def IdRecord.bytes (r : IdRecord id) : Bytes := frame r.payload

/-- An id other than the one that opens and closes, and its payload, which has whole words of the
kind of the id if the id is known. -/
structure StoredPair (p : Precision) where
  id : Int
  id_ne : id ≠ 2000
  record : IdRecord id
  payload : Bytes
  whole : ∀ t, recordType? id = some t → payload.length % t.kind.width p = 0
  length_lt : payload.length < 2 ^ 32

/-- The value that the words of a payload make up. -/
def valueOf (p : Precision) (kind : PersistentKind) (payload : Bytes) : PersistentValue Float :=
  match kind with
  | .int => .ints ((words 4 payload).map signed)
  | .real => .reals ((words p.bytes payload).map p.decode)

namespace StoredPair

def bytes (e : StoredPair p) : Bytes := e.record.bytes ++ frame e.payload

/-- The name and the value of a known id. -/
def entry? (e : StoredPair p) : Option (String × PersistentValue Float) :=
  (recordType? e.id).map fun t => (t.name, valueOf p t.kind e.payload)

end StoredPair

def pairEntries (pairs : List (StoredPair p)) : List (String × PersistentValue Float) :=
  pairs.filterMap StoredPair.entry?

def collected (pairs : List (StoredPair p)) : Persistence Float := Table.ofList (pairEntries pairs)

/-- The bytes of the opening id, if there is one, and of the pairs. -/
def openedBytes (opening : Option (IdRecord 2000)) (pairs : List (StoredPair p)) : Bytes :=
  opening.toList.flatMap IdRecord.bytes ++ pairs.flatMap StoredPair.bytes

theorem IdRecord.yields_nextId (r : IdRecord id) :
    Yields nextId ⟨r.bytes ++ rest, n⟩ (some id) ⟨rest, n + 1⟩ := by
  have hnext : Yields Reading.next ⟨frame r.payload ++ rest, n⟩ (some r.payload) ⟨rest, n + 1⟩ :=
    Reading.yields_next_frame (count_four ▸ r.length_lt)
  refine yields_bind_iff.mpr ⟨_, _, hnext, ?_⟩
  simp only [r.holdsId.idNumber_eq]
  rfl

theorem yields_nextId_nil : Yields nextId ⟨[], n⟩ none ⟨[], n⟩ := by
  have hnext : Yields Reading.next ⟨[], n⟩ none ⟨[], n⟩ := RecordStream.next_nil n
  exact yields_bind_iff.mpr ⟨_, _, hnext, rfl⟩

theorem decodeValue_eq {kind : PersistentKind} {payload : Bytes}
    (h : payload.length % kind.width p = 0) :
    decodeValue p kind payload = .ok (valueOf p kind payload) := by
  cases kind with
  | int =>
    have hints := ints_eq_words h
    change (ints payload).map PersistentValue.ints = _
    rw [hints]
    rfl
  | real =>
    have hreals := reals_eq_words h
    change (reals p payload).map (fun values => PersistentValue.reals values.toList) = _
    rw [hreals]
    rfl

theorem StoredPair.addPayload_eq (e : StoredPair p) :
    addPayload p e.id e.payload values = .ok (values.insertMany e.entry?.toList) := by
  unfold addPayload StoredPair.entry?
  cases ht : recordType? e.id with
  | none => rfl
  | some t =>
    have hvalue := decodeValue_eq (e.whole t ht)
    simp only [hvalue]
    rfl

/-- Reads the next id, if there is one, and what belongs to it. -/
def readMore (p : Precision) (fuel : Nat) (values : Persistence Float) :
    Reading (Persistence Float) := do
  match ← nextId with
  | some next => readPairs p fuel next values
  | none => pure values

theorem run_readMore (r : IdRecord id) :
    (readMore p fuel values).run.run ⟨r.bytes ++ rest, n⟩ =
      (readPairs p fuel id values).run.run ⟨rest, n + 1⟩ :=
  r.yields_nextId.run_bind

theorem yields_readMore_nil : Yields (readMore p fuel values) ⟨[], n⟩ values ⟨[], n⟩ :=
  yields_bind_iff.mpr ⟨_, _, yields_nextId_nil, rfl⟩

theorem yields_readMore_closing (closing : IdRecord 2000) :
    Yields (readMore p (fuel + 1) values) ⟨closing.bytes ++ rest, n⟩ values ⟨rest, n + 1⟩ := by
  have hrun : (readMore p (fuel + 1) values).run.run ⟨closing.bytes ++ rest, n⟩ =
      (readPairs p (fuel + 1) 2000 values).run.run ⟨rest, n + 1⟩ := run_readMore closing
  exact hrun

theorem fails_readMore_zero (r : IdRecord id) :
    Fails (readMore p 0 values) ⟨r.bytes ++ rest, n⟩ (.unclosedPersistence 2000) ⟨rest, n + 1⟩ :=
  run_readMore r

theorem readPairs_of_ne (h : id ≠ 2000) :
    readPairs p (fuel + 1) id values = (do
      let payload ← Reading.payload "persistent payload"
      let values ← Reading.check (addPayload p id payload values)
      readMore p fuel values) := by
  have hne : id ≠ sentinel := h
  rw [readPairs, if_neg hne]
  rfl

/-- One pair is read and collected. -/
theorem run_readMore_pair (e : StoredPair p) :
    (readMore p (fuel + 1) values).run.run ⟨e.bytes ++ rest, n⟩ =
      (readMore p fuel (values.insertMany e.entry?.toList)).run.run ⟨rest, n + 2⟩ := by
  have hpayload : Yields (Reading.payload "persistent payload")
      ⟨frame e.payload ++ rest, n + 1⟩ e.payload ⟨rest, n + 2⟩ :=
    Reading.yields_payload_frame _ (count_four ▸ e.length_lt)
  have hadd : Yields (Reading.check (addPayload p e.id e.payload values)) ⟨rest, n + 2⟩
      (values.insertMany e.entry?.toList) ⟨rest, n + 2⟩ :=
    Reading.yields_check_iff.mpr ⟨e.addPayload_eq, rfl⟩
  rw [StoredPair.bytes, List.append_assoc, run_readMore, readPairs_of_ne e.id_ne,
    hpayload.run_bind, hadd.run_bind]

theorem pairEntries_cons (e : StoredPair p) (pairs : List (StoredPair p)) :
    pairEntries (e :: pairs) = e.entry?.toList ++ pairEntries pairs := by
  unfold pairEntries
  cases he : e.entry? with
  | none => rw [List.filterMap_cons_none he]; rfl
  | some entry => rw [List.filterMap_cons_some he]; rfl

/-- The bytes of pairs start with the id of the first one. -/
theorem pairBytes_cons (e : StoredPair p) (pairs : List (StoredPair p)) (rest : Bytes) :
    (e :: pairs).flatMap StoredPair.bytes ++ rest =
      e.record.bytes ++ (frame e.payload ++ (pairs.flatMap StoredPair.bytes ++ rest)) := by
  rw [List.flatMap_cons, StoredPair.bytes, List.append_assoc, List.append_assoc]

/-- Pairs within the limit are read and collected in order. -/
theorem run_readMore_pairs (pairs : List (StoredPair p)) :
    (readMore p (fuel + pairs.length) values).run.run
        ⟨pairs.flatMap StoredPair.bytes ++ rest, n⟩ =
      (readMore p fuel (values.insertMany (pairEntries pairs))).run.run
        ⟨rest, n + 2 * pairs.length⟩ := by
  induction pairs generalizing values n with
  | nil => rfl
  | cons e pairs ih =>
    have hinsert : values.insertMany (pairEntries (e :: pairs)) =
        (values.insertMany e.entry?.toList).insertMany (pairEntries pairs) := by
      rw [pairEntries_cons]
      exact List.foldl_append
    have hcount : n + 2 + 2 * pairs.length = n + 2 * (e :: pairs).length := by
      rw [List.length_cons]
      omega
    rw [List.flatMap_cons, List.append_assoc, List.length_cons, ← Nat.add_assoc, run_readMore_pair,
      ih, hinsert, hcount]
    rfl

theorem run_read_opening (opening : IdRecord 2000) :
    (read p).run.run ⟨opening.bytes ++ rest, n⟩ =
      (readMore p 2000 .empty).run.run ⟨rest, n + 1⟩ := by
  rw [read, opening.yields_nextId.run_bind]
  refine congrArg (fun r : Reading (Persistence Float) => r.run.run ⟨rest, n + 1⟩)
    (bind_congr fun next => ?_)
  cases next with
  | none => rfl
  | some id => rfl

/-- Where the opening id is left out, the first id is that of the first pair. -/
theorem run_read_first (r : IdRecord id) (h : id ≠ 2000) :
    (read p).run.run ⟨r.bytes ++ rest, n⟩ =
      (readMore p 2000 .empty).run.run ⟨r.bytes ++ rest, n⟩ := by
  have hne : id ≠ sentinel := h
  rw [read, r.yields_nextId.run_bind, run_readMore]
  simp only [if_neg hne]
  rfl

theorem run_read {opening : Option (IdRecord 2000)} {bytes : Bytes}
    (hstart : opening.isSome = true ∨
      ∃ (e : StoredPair p) (others : Bytes), bytes = e.record.bytes ++ others) :
    (read p).run.run ⟨opening.toList.flatMap IdRecord.bytes ++ bytes, n⟩ =
      (readMore p 2000 .empty).run.run ⟨bytes, n + opening.toList.length⟩ := by
  cases opening with
  | some opening =>
    rw [Option.toList_some, List.flatMap_singleton, run_read_opening]
    rfl
  | none =>
    obtain ⟨e, others, rfl⟩ := hstart.resolve_left Bool.false_ne_true
    exact run_read_first e.record e.id_ne

/-- Up to the limit, reading comes to what stands behind the pairs. -/
theorem run_read_pairs {opening : Option (IdRecord 2000)} {pairs : List (StoredPair p)}
    (rest : Bytes) (n : Nat) (hlimit : fuel + pairs.length = 2000)
    (hstart : opening.isSome = true ∨ pairs ≠ [] ∨
      ∃ (e : StoredPair p) (others : Bytes), rest = e.record.bytes ++ others) :
    (read p).run.run ⟨openedBytes opening pairs ++ rest, n⟩ =
      (readMore p fuel (collected pairs)).run.run
        ⟨rest, n + (opening.toList.length + 2 * pairs.length)⟩ := by
  have hfirst : opening.isSome = true ∨ ∃ (e : StoredPair p) (others : Bytes),
      pairs.flatMap StoredPair.bytes ++ rest = e.record.bytes ++ others := by
    refine hstart.imp_right fun hpair => ?_
    cases pairs with
    | nil => exact hpair.resolve_left fun hne => hne rfl
    | cons e pairs => exact ⟨e, _, pairBytes_cons e pairs rest⟩
  have hpairs : (readMore p (fuel + pairs.length) .empty).run.run
        ⟨pairs.flatMap StoredPair.bytes ++ rest, n + opening.toList.length⟩ =
      (readMore p fuel (collected pairs)).run.run
        ⟨rest, n + opening.toList.length + 2 * pairs.length⟩ := run_readMore_pairs pairs
  rw [hlimit] at hpairs
  rw [openedBytes, List.append_assoc, run_read hfirst, hpairs, Nat.add_assoc]

/-- More pairs are followed by an id, and so is whatever stands in front of an id. -/
theorem exists_idRecord (pairs : List (StoredPair p)) (next : IdRecord id) (rest : Bytes) :
    ∃ (id' : Int) (r : IdRecord id') (others : Bytes),
      pairs.flatMap StoredPair.bytes ++ (next.bytes ++ rest) = r.bytes ++ others := by
  cases pairs with
  | nil => exact ⟨id, next, rest, rfl⟩
  | cons e pairs => exact ⟨e.id, e.record, _, pairBytes_cons e pairs _⟩

theorem yields_read_closed {opening : Option (IdRecord 2000)} {pairs : List (StoredPair p)}
    (hstart : opening.isSome = true ∨ pairs ≠ []) (hlimit : pairs.length ≤ 1999)
    (closing : IdRecord 2000) :
    Yields (read p) ⟨openedBytes opening pairs ++ (closing.bytes ++ rest), n⟩ (collected pairs)
      ⟨rest, n + (opening.toList.length + 2 * pairs.length) + 1⟩ := by
  obtain ⟨fuel, hfuel⟩ : ∃ fuel, fuel + 1 + pairs.length = 2000 :=
    ⟨1999 - pairs.length, by omega⟩
  have hrun := run_read_pairs (closing.bytes ++ rest) n hfuel (hstart.imp_right .inl)
  unfold Yields
  rw [hrun]
  exact yields_readMore_closing closing

theorem yields_read_unclosed {opening : Option (IdRecord 2000)} {pairs : List (StoredPair p)}
    (hstart : opening.isSome = true ∨ pairs ≠ []) (hlimit : pairs.length ≤ 2000) :
    Yields (read p) ⟨openedBytes opening pairs, n⟩ (collected pairs)
      ⟨[], n + (opening.toList.length + 2 * pairs.length)⟩ := by
  have hrun := run_read_pairs [] n (Nat.sub_add_cancel hlimit) (hstart.imp_right .inl)
  rw [List.append_nil] at hrun
  unfold Yields
  rw [hrun]
  exact yields_readMore_nil

theorem fails_read_beyond {opening : Option (IdRecord 2000)} {pairs : List (StoredPair p)}
    (hlimit : 2000 ≤ pairs.length) (next : IdRecord id) :
    ∃ s', Fails (read p) ⟨openedBytes opening pairs ++ (next.bytes ++ rest), n⟩
      (.unclosedPersistence 2000) s' := by
  have hlength : 0 + (pairs.take 2000).length = 2000 := by
    rw [List.length_take_of_le hlimit]
  have hne : pairs.take 2000 ≠ [] := by
    intro hnil
    rw [hnil] at hlength
    cases hlength
  obtain ⟨id', r, others, hrest⟩ := exists_idRecord (pairs.drop 2000) next rest
  have hbytes : openedBytes opening pairs ++ (next.bytes ++ rest) =
      openedBytes opening (pairs.take 2000) ++ (r.bytes ++ others) := by
    rw [← hrest, openedBytes, openedBytes, List.append_assoc, List.append_assoc,
      ← List.append_assoc ((pairs.take 2000).flatMap _), ← List.flatMap_append,
      List.take_append_drop]
  have hstart : opening.isSome = true ∨ pairs.take 2000 ≠ [] ∨
      ∃ (e : StoredPair p) (tail : Bytes), r.bytes ++ others = e.record.bytes ++ tail :=
    .inr (.inl hne)
  have hrun := run_read_pairs (r.bytes ++ others) n hlength hstart
  rw [hbytes]
  exact ⟨_, hrun.trans (fails_readMore_zero r)⟩

theorem failsAs_read_cut {opening : Option (IdRecord 2000)} {pairs : List (StoredPair p)}
    (hlimit : pairs.length < 2000) (next : StoredPair p) {k : Nat}
    (hk : k < (frame next.payload).length) :
    Reading.FailsAs (read p) ⟨openedBytes opening pairs ++
      (next.record.bytes ++ (frame next.payload).take k), n⟩ .unexpectedEnd := by
  obtain ⟨fuel, hfuel⟩ : ∃ fuel, fuel + 1 + pairs.length = 2000 :=
    ⟨1999 - pairs.length, by omega⟩
  have hstart : opening.isSome = true ∨ pairs ≠ [] ∨ ∃ (e : StoredPair p) (others : Bytes),
      next.record.bytes ++ (frame next.payload).take k = e.record.bytes ++ others :=
    .inr (.inr ⟨next, _, rfl⟩)
  have hrun := run_read_pairs (next.record.bytes ++ (frame next.payload).take k) n hfuel hstart
  have hpayload : Reading.FailsAs (Reading.payload "persistent payload")
      ⟨(frame next.payload).take k,
        n + (opening.toList.length + 2 * pairs.length) + 1⟩ .unexpectedEnd :=
    Reading.failsAs_payload_iff.mpr (.short (stopsShort_take hk next.length_lt))
  obtain ⟨e, s', hfails, hkind⟩ := Reading.failsAs_bind_iff.mpr (.inl hpayload)
  refine ⟨e, s', hrun.trans ?_, hkind⟩
  rw [run_readMore, readPairs_of_ne next.id_ne]
  exact hfails

/-- An empty stream holds no persistent values. Pairs behind an opening id, or without one if there
are any, are collected in order: a name keeps the place of its first value and has its last one. Up
to 1999 pairs may stand in front of a closing id, behind which the stream is left, and up to 2000 in
front of the end of the stream. Behind 2000 pairs another id is malformed. A stream that ends behind
an id, but before the record of its payload does, ends too early. -/
theorem read_pairs (p : Precision) (n : Nat) :
    Yields (read p) ⟨[], n⟩ .empty ⟨[], n⟩ ∧
    ∀ (opening : Option (IdRecord 2000)) (pairs : List (StoredPair p)),
      ((collected pairs).keys = ((pairEntries pairs).map Prod.fst).eraseDups ∧
        ∀ name, (collected pairs).get? name = (pairEntries pairs).reverse.lookup name) ∧
      (opening.isSome = true ∨ pairs ≠ [] →
        (pairs.length ≤ 1999 → ∀ (closing : IdRecord 2000) (rest : Bytes),
          Yields (read p) ⟨openedBytes opening pairs ++ (closing.bytes ++ rest), n⟩
            (collected pairs) ⟨rest, n + (opening.toList.length + 2 * pairs.length) + 1⟩) ∧
        (pairs.length ≤ 2000 → Yields (read p) ⟨openedBytes opening pairs, n⟩ (collected pairs)
          ⟨[], n + (opening.toList.length + 2 * pairs.length)⟩)) ∧
      (2000 ≤ pairs.length → ∀ (id : Int) (next : IdRecord id) (rest : Bytes),
        ∃ e s', Fails (read p) ⟨openedBytes opening pairs ++ (next.bytes ++ rest), n⟩ e s' ∧
          e.kind = .malformed ∧ e.count? = some 2000) ∧
      (pairs.length < 2000 → ∀ (next : StoredPair p), ∀ k < (frame next.payload).length,
        Reading.FailsAs (read p) ⟨openedBytes opening pairs ++
          (next.record.bytes ++ (frame next.payload).take k), n⟩ .unexpectedEnd) := by
  refine ⟨yields_bind_iff.mpr ⟨_, _, yields_nextId_nil, rfl⟩, fun opening pairs => ⟨?_, ?_, ?_, ?_⟩⟩
  · exact ⟨Table.keys_ofList _, fun name => Table.get?_ofList _ name⟩
  · intro hstart
    exact ⟨fun hlimit closing rest => yields_read_closed hstart hlimit closing,
      fun hlimit => yields_read_unclosed hstart hlimit⟩
  · intro hlimit id next rest
    obtain ⟨s', hfails⟩ := fails_read_beyond hlimit next
    exact ⟨_, s', hfails, rfl, rfl⟩
  · intro hlimit next k hk
    exact failsAs_read_cut hlimit next hk

/-- The opening and closing id in its short form. -/
def markRecord : IdRecord 2000 := ⟨[0xD0, 7], .short rfl (by decide), by decide⟩

/-- A shear offset behind its id in the short form. -/
def offsetPair (word : UInt8) : StoredPair .double where
  id := 300
  id_ne := by decide
  record := ⟨[0x2C, 1], .short rfl (by decide), by decide⟩
  payload := [0, 0, 0, 0, 0, 0, word, 0x40]
  whole := by
    intro t ht
    cases ht
    exact Nat.mod_self 8
  length_lt := by simp

/-- Three bytes behind an unknown id in two words. -/
def unknownPair : StoredPair .double where
  id := 7
  id_ne := by decide
  record := ⟨[7, 0, 0, 0] ++ [1, 2, 3, 4], .long rfl rfl (by decide), by decide⟩
  payload := [1, 2, 3]
  whole := by
    intro t ht
    cases ht
  length_lt := by decide

/-- Two shear offsets around an unknown id; a stream beyond the limit; one that was cut off. -/
theorem read_pairs_offsets :
    (∃ values s', Yields (read .double)
        ⟨openedBytes (some markRecord) [offsetPair 0, unknownPair, offsetPair 8] ++
          (markRecord.bytes ++ [9]), 2⟩ values s' ∧
      values.keys = ["shear_delta_y"] ∧
      values.get? "shear_delta_y" = some (valueOf .double .real [0, 0, 0, 0, 0, 0, 8, 0x40]) ∧
      s'.rest = [9]) ∧
    (∃ e s', Fails (read .double)
        ⟨openedBytes none (List.replicate 2000 unknownPair) ++ (markRecord.bytes ++ []), 2⟩ e s' ∧
      e.kind = .malformed ∧ e.count? = some 2000) ∧
    Reading.FailsAs (read .double)
      ⟨openedBytes none [unknownPair] ++
        ((offsetPair 0).record.bytes ++ (frame (offsetPair 0).payload).take 0), 2⟩
      .unexpectedEnd := by
  refine ⟨?_, ?_, ?_⟩
  · obtain ⟨⟨hkeys, hget⟩, hread, -, -⟩ := (read_pairs .double 2).2 (some markRecord)
      [offsetPair 0, unknownPair, offsetPair 8]
    refine ⟨_, _, (hread (.inl rfl)).1 (by decide) markRecord [9], ?_, ?_, rfl⟩
    · rw [hkeys]
      rfl
    · rw [hget]
      rfl
  · have hlength : (List.replicate 2000 unknownPair).length = 2000 := List.length_replicate
    obtain ⟨-, -, hbeyond, -⟩ := (read_pairs .double 2).2 none (List.replicate 2000 unknownPair)
    exact hbeyond (Nat.le_of_eq hlength.symm) 2000 markRecord []
  · obtain ⟨-, -, -, hcut⟩ := (read_pairs .double 2).2 none [unknownPair]
    exact hcut (by decide) (offsetPair 0) 0 (by decide)

end Persistence

end GridSnapshot
