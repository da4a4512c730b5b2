import GridSnapshot.RunRecipe
import GridSnapshot.Proofs.RecordWords
import GridSnapshot.Proofs.Tables

namespace GridSnapshot

open Outcome

abbrev PersistentEntry := Int × PersistentValue Binary64

/-- What is read back of a persistent value that was stored. -/
def PersistentValue.rounded (p : Precision) : PersistentValue Binary64 → PersistentValue Float
  | ints values => .ints values
  | reals values => .reals (values.map p.round)

/-- The integers of a persistent value fit into words of four bytes. -/
def PersistentValue.IsStorable {ω : Type} : PersistentValue ω → Prop
  | ints values => ∀ i ∈ values, Record.IsWord i
  | reals _ => True

namespace PersistentEntry

/-- The entry can be stored between the opening and the closing id. -/
structure Storable (e : PersistentEntry) (p : Precision) : Prop where
  id_ne : e.1 ≠ Persistence.sentinel
  isWord : Record.IsWord e.1
  kind_eq : ∀ t, Persistence.recordType? e.1 = some t → e.2.kind = t.kind
  isStorable : e.2.IsStorable
  length_lt : (RunRecipe.encodePersistent p e.2).length < Word.count 4

def collect (p : Precision) (values : Persistence Float) (e : PersistentEntry) :
    Persistence Float :=
  match Persistence.recordType? e.1 with
  | none => values
  | some t => values.insert t.name (e.2.rounded p)

/-- The last payload of an id, as it is read back. -/
def last? (p : Precision) (es : List PersistentEntry) (id : Int) : Option (PersistentValue Float) :=
  (es.reverse.find? fun e => e.1 = id).map fun e => e.2.rounded p

end PersistentEntry

namespace Persistence

variable {p : Precision} {e : PersistentEntry} {es : List PersistentEntry}
  {values : Persistence Float} {rest : Bytes} {n : Nat}

theorem decodeValue_encode {kind : PersistentKind} {v : PersistentValue Binary64}
    (hkind : v.kind = kind) (hv : v.IsStorable) :
    decodeValue p kind (RunRecipe.encodePersistent p v) = .ok (v.rounded p) := by
  subst hkind
  cases v with
  | ints is =>
    have hints : Record.ints (Record.encodeInts is) = .ok is := Record.ints_encodeInts hv
    change (Record.ints (Record.encodeInts is)).map PersistentValue.ints = _
    rw [hints]
    rfl
  | reals xs =>
    have hreals := Record.reals_encodeReals (α := Float) (p := p) xs
    change (Record.reals p (Record.encodeReals p xs)).map
      (fun values => PersistentValue.reals values.toList) = _
    rw [hreals]
    rfl

theorem addPayload_encode (h : e.Storable p) :
    addPayload p e.1 (RunRecipe.encodePersistent p e.2) values = .ok (e.collect p values) := by
  unfold addPayload PersistentEntry.collect
  cases ht : recordType? e.1 with
  | none => rfl
  | some t =>
    have hvalue := decodeValue_encode (p := p) (h.kind_eq t ht) h.isStorable
    simp only
    rw [hvalue]
    rfl

theorem recordType?_id {t : RecordType} (ht : t ∈ recordTypes) : recordType? t.id = some t := by
  revert t
  decide

theorem eq_of_recordType? {id : Int} {t : RecordType} (h : recordType? id = some t) :
    t ∈ recordTypes ∧ t.id = id :=
  ⟨List.mem_of_find?_eq_some h, by simpa using List.find?_some h⟩

theorem eq_of_name_eq {t t' : RecordType} (ht : t ∈ recordTypes) (ht' : t' ∈ recordTypes)
    (h : t.name = t'.name) : t = t' := by
  have hnames : ∀ t ∈ recordTypes, ∀ t' ∈ recordTypes, t.name = t'.name → t = t' := by decide
  exact hnames t ht t' ht' h

theorem get?_collect {t : RecordType} (ht : t ∈ recordTypes) :
    (e.collect p values).get? t.name =
      if e.1 = t.id then some (e.2.rounded p) else values.get? t.name := by
  unfold PersistentEntry.collect
  cases he : recordType? e.1 with
  | none =>
    have hne : e.1 ≠ t.id := by
      intro heq
      rw [heq, recordType?_id ht] at he
      cases he
    rw [if_neg hne]
  | some t' =>
    obtain ⟨ht', hid⟩ := eq_of_recordType? he
    simp only [Table.get?_insert]
    by_cases heq : e.1 = t.id
    · rw [heq, recordType?_id ht, Option.some.injEq] at he
      rw [← he, if_pos rfl, if_pos heq]
    · have hname : t.name ≠ t'.name := fun h => heq (by rw [eq_of_name_eq ht ht' h, hid])
      rw [if_neg hname, if_neg heq]

theorem get?_foldl_collect {t : RecordType} (ht : t ∈ recordTypes) :
    (es.foldl (fun values e => e.collect p values) values).get? t.name =
      (PersistentEntry.last? p es t.id).or (values.get? t.name) := by
  induction es generalizing values with
  | nil => rfl
  | cons e es ih =>
    rw [List.foldl_cons, ih, get?_collect ht]
    unfold PersistentEntry.last?
    rw [List.reverse_cons, List.find?_append]
    cases es.reverse.find? fun e => e.1 = t.id with
    | some e' => rfl
    | none =>
      by_cases heq : e.1 = t.id
      · simp [heq]
      · simp [heq]

theorem get?_foldl_collect_of_unknown {name : String} (h : ∀ t ∈ recordTypes, t.name ≠ name) :
    (es.foldl (fun values e => e.collect p values) values).get? name = values.get? name := by
  induction es generalizing values with
  | nil => rfl
  | cons e es ih =>
    rw [List.foldl_cons, ih]
    unfold PersistentEntry.collect
    cases he : recordType? e.1 with
    | none => rfl
    | some t => exact Table.get?_insert_of_ne (h t (eq_of_recordType? he).1).symm

def idRecord (id : Int) : Bytes := Record.frame (Record.encodeInt 4 id)

/-- The written form of entries, with the closing id. -/
def encodeEntries (p : Precision) (es : List PersistentEntry) : Bytes :=
  es.flatMap (fun e => idRecord e.1 ++ Record.frame (RunRecipe.encodePersistent p e.2)) ++
    idRecord sentinel

/-- The id in front of entries, which is the closing one if there are none. -/
def firstId (es : List PersistentEntry) : Int := (es.head?.map Prod.fst).getD sentinel

def afterId (p : Precision) : List PersistentEntry → Bytes
  | [] => []
  | e :: es => Record.frame (RunRecipe.encodePersistent p e.2) ++ encodeEntries p es

theorem encodeEntries_eq (es : List PersistentEntry) :
    encodeEntries p es = idRecord (firstId es) ++ afterId p es := by
  cases es with
  | nil => rw [encodeEntries, afterId, List.append_nil]; rfl
  | cons e es =>
    simp only [encodeEntries, afterId, List.flatMap_cons, List.append_assoc]
    rfl

theorem isWord_firstId (h : ∀ e ∈ es, e.Storable p) : Record.IsWord (firstId es) := by
  cases es with
  | nil => exact ⟨by decide, by decide⟩
  | cons e es => exact (h e List.mem_cons_self).isWord

theorem yields_nextId {id : Int} (h : Record.IsWord id) :
    Yields nextId ⟨idRecord id ++ rest, n⟩ (some id) ⟨rest, n + 1⟩ := by
  have hlen : (Record.encodeInt 4 id).length < Word.count 4 := by
    rw [Record.length_encodeInt]
    decide
  refine yields_bind_iff.mpr ⟨_, _, Reading.yields_next_frame hlen, ?_⟩
  have hid := Record.idNumber_encodeInt h
  simp only [hid]
  rfl

theorem yields_readPairs {fuel : Nat} (hes : ∀ e ∈ es, e.Storable p) (hfuel : es.length < fuel) :
    ∃ s, Yields (readPairs p fuel (firstId es) values) ⟨afterId p es, n⟩
      (es.foldl (fun values e => e.collect p values) values) s := by
  induction es generalizing fuel values n with
  | nil =>
    obtain ⟨fuel, rfl⟩ : ∃ f, fuel = f + 1 := ⟨fuel - 1, by omega⟩
    exact ⟨_, rfl⟩
  | cons e es ih =>
    obtain ⟨fuel, rfl⟩ : ∃ f, fuel = f + 1 := ⟨fuel - 1, by omega⟩
    obtain ⟨he, hes⟩ := List.forall_mem_cons.mp hes
    have hfirst : firstId (e :: es) = e.1 := rfl
    obtain ⟨s, hrest⟩ := @ih (e.collect p values) (n + 1 + 1) _ hes (Nat.lt_of_succ_lt_succ hfuel)
    refine ⟨s, ?_⟩
    rw [hfirst, readPairs, if_neg he.id_ne]
    refine yields_bind_iff.mpr ⟨_, _, Reading.yields_payload_frame _ he.length_lt, ?_⟩
    refine yields_bind_iff.mpr ⟨_, _, Reading.yields_check_iff.mpr ⟨addPayload_encode he, rfl⟩, ?_⟩
    rw [encodeEntries_eq]
    exact yields_bind_iff.mpr ⟨_, _, yields_nextId (isWord_firstId hes), hrest⟩

theorem yields_read (hes : ∀ e ∈ es, e.Storable p) (hcount : es.length < pairLimit) :
    ∃ s, Yields (read p) ⟨RunRecipe.encodePersistence p es, n⟩
      (es.foldl (fun values e => e.collect p values) .empty) s := by
  cases es with
  | nil => exact ⟨_, rfl⟩
  | cons e es =>
    have hwritten : RunRecipe.encodePersistence p (e :: es) =
        idRecord sentinel ++ encodeEntries p (e :: es) := by
      simp [RunRecipe.encodePersistence, encodeEntries, idRecord]
    obtain ⟨s, hpairs⟩ : ∃ s, Yields (readPairs p pairLimit (firstId (e :: es)) .empty)
        ⟨afterId p (e :: es), n + 1 + 1⟩
        ((e :: es).foldl (fun values e => e.collect p values) .empty) s :=
      yields_readPairs hes hcount
    refine ⟨s, ?_⟩
    rw [hwritten, encodeEntries_eq]
    have hsentinel : Record.IsWord sentinel := ⟨by decide, by decide⟩
    refine yields_bind_iff.mpr ⟨_, _, yields_nextId hsentinel, ?_⟩
    simp only [if_true]
    exact yields_bind_iff.mpr ⟨_, _, yields_nextId (isWord_firstId hes), hpairs⟩

end Persistence

end GridSnapshot
