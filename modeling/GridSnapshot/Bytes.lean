namespace GridSnapshot

abbrev Bytes := List UInt8

namespace Word

def count (k : Nat) : Nat := Nat.pow 256 k

theorem count_succ (k : Nat) : count (k + 1) = count k * 256 := rfl

/-- Extents, slots and places are words of eight bytes, and their sums and products keep the lowest
eight bytes. -/
def wrap (n : Nat) : Nat := n % count 8

theorem count_eight : count 8 = 18446744073709551616 := rfl

theorem wrap_eq {n : Nat} (h : n < count 8) : wrap n = n := Nat.mod_eq_of_lt h

theorem wrap_le (n : Nat) : wrap n ≤ n := Nat.mod_le n (count 8)

theorem wrap_mul_wrap (m n : Nat) : wrap (m * wrap n) = wrap (m * n) := by
  rw [wrap, wrap, wrap, Nat.mul_mod, Nat.mod_mod, ← Nat.mul_mod]

/-- The k lowest bytes of a number, lowest first. -/
def encode : Nat → Nat → Bytes
  | 0, _ => []
  | k + 1, n => UInt8.ofNat n :: encode k (n / 256)

def decode : Bytes → Nat
  | [] => 0
  | b :: bs => b.toNat + 256 * decode bs

@[simp] theorem length_encode (k n : Nat) : (encode k n).length = k := by
  induction k generalizing n with
  | zero => rfl
  | succ k ih => simp [encode, ih]

theorem decode_lt (bs : Bytes) : decode bs < count bs.length := by
  induction bs with
  | nil => decide
  | cons b bs ih =>
    have hb := b.toNat_lt
    simp only [decode, List.length_cons, count_succ]
    omega

theorem decode_encode {k n : Nat} (h : n < count k) : decode (encode k n) = n := by
  induction k generalizing n with
  | zero =>
    have h0 : n = 0 := Nat.lt_one_iff.mp h
    simp [encode, decode, h0]
  | succ k ih =>
    rw [count_succ] at h
    have hd : n / 256 < count k := by omega
    simp only [encode, decode, ih hd, UInt8.toNat_ofNat']
    omega

theorem encode_decode (bs : Bytes) : encode bs.length (decode bs) = bs := by
  induction bs with
  | nil => rfl
  | cons b bs ih =>
    have hb := b.toNat_lt
    have hdiv : (b.toNat + 256 * decode bs) / 256 = decode bs := by omega
    simp only [List.length_cons, decode, encode, hdiv, ih]
    congr 1
    apply UInt8.toNat_inj.mp
    simp only [UInt8.toNat_ofNat']
    omega

/-- Reads n words of k bytes each and appends what they stand for. -/
def readMany {α : Type} (k : Nat) (f : Bytes → α) : Nat → Bytes → Array α → Array α
  | 0, _, out => out
  | n + 1, bs, out => readMany k f n (bs.drop k) (out.push (f (bs.take k)))

end Word

end GridSnapshot
