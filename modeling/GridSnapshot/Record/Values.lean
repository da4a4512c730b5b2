import GridSnapshot.Binary64
import GridSnapshot.Precision
import GridSnapshot.Record.Reader
import GridSnapshot.Scalar

namespace GridSnapshot

namespace Precision

def decode (p : Precision) (word : Bytes) : Float :=
  match p with
  | single => (Float32.ofBits (UInt32.ofNat (Word.decode word))).toFloat
  | double => Float.ofBits (UInt64.ofNat (Word.decode word))

def encode (p : Precision) (x : Binary64) : Bytes :=
  match p with
  | single => Word.encode 4 x.toSingleBits.toNat
  | double => Word.encode 8 x.bits.toNat

theorem length_encode (p : Precision) (x : Binary64) : (p.encode x).length = p.bytes := by
  cases p <;> simp [encode, bytes]

def round (p : Precision) (x : Binary64) : Float := p.decode (p.encode x)

end Precision

namespace Record

variable {α : Type} [Narrowing Float α]

def reals (p : Precision) (payload : Bytes) : Except RecordFault (Array α) :=
  if payload.length % p.bytes ≠ 0 then .error (.partialReals p.bytes payload.length)
  else .ok (Word.readMany p.bytes (fun word => narrow (p.decode word))
    (payload.length / p.bytes) payload #[])

def signed (word : Bytes) : Int := (Word.decode word : Int).bmod (Word.count word.length)

def ints (payload : Bytes) : Except RecordFault (List Int) :=
  if payload.length % 4 ≠ 0 then .error (.partialInts payload.length)
  else .ok (Word.readMany 4 signed (payload.length / 4) payload #[]).toList

/-- An id is a payload of two bytes, or the first integer of a payload of whole integers. -/
def idNumber (payload : Bytes) : Except RecordFault Int :=
  if payload.length = 2 then .ok (signed payload)
  else if 4 ≤ payload.length ∧ payload.length % 4 = 0 then .ok (signed (payload.take 4))
  else .error (.idWidth payload.length)

def encodeReals (p : Precision) (xs : List Binary64) : Bytes := xs.flatMap p.encode

/-- The word of k bytes of an integer in two's complement. -/
def encodeInt (k : Nat) (i : Int) : Bytes := Word.encode k (i % Word.count k).toNat

def encodeInts (is : List Int) : Bytes := is.flatMap (encodeInt 4)

end Record

namespace Reading

def reals {α : Type} [Narrowing Float α] (what : String) (p : Precision) : Reading (Array α) := do
  check (Record.reals p (← payload what))

def ints (what : String) : Reading (List Int) := do
  check (Record.ints (← payload what))

end Reading

end GridSnapshot
