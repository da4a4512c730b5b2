import GridSnapshot.Bytes

namespace GridSnapshot.Hex

def digit (n : Nat) : Char := if n < 10 then Char.ofNat (n + 48) else Char.ofNat (n + 87)

def value (c : Char) : Nat :=
  if c.isDigit then c.toNat - '0'.toNat else c.toLower.toNat - 'a'.toNat + 10

def ofNatOnto : Nat → Nat → List Char → List Char
  | 0, _, out => out
  | k + 1, n, out => ofNatOnto k (n / 16) (digit (n % 16) :: out)

def ofNat (k n : Nat) : String := String.ofList (ofNatOnto k n [])

def toNat (s : String) : Nat := s.toList.foldl (fun n c => 16 * n + value c) 0

def ofBytes (bs : Bytes) : String :=
  String.ofList (bs.flatMap fun b => [digit (b.toNat / 16), digit (b.toNat % 16)])

def pairs (out : Bytes) : List Char → Bytes
  | a :: b :: rest => pairs (UInt8.ofNat (16 * value a + value b) :: out) rest
  | _ => out.reverse

def toBytes (s : String) : Bytes := pairs [] s.toList

end GridSnapshot.Hex
