import ContractAbi.Bytes

/-!
# Keccak-256

The hash that identifies events and errors: the sponge over 1600 bits with a rate of 136 bytes,
padded by a single `1` bit, zeros and a final `1` bit. The state is 25 lanes of 64 bits, lane `x +
5 y` being the one at column `x` and row `y`.
-/

namespace ContractAbi.Keccak

abbrev Lanes := Vector UInt64 25

/-! ## The permutation -/

def rotateLeft (w : UInt64) (n : UInt64) : UInt64 :=
  (w <<< n) ||| (w >>> (64 - n))

def rotations : Vector UInt64 25 :=
  #v[0, 1, 62, 28, 27,
     36, 44, 6, 55, 20,
     3, 10, 43, 25, 39,
     41, 45, 15, 21, 8,
     18, 2, 61, 56, 14]

def roundConstants : List UInt64 :=
  [0x0000000000000001, 0x0000000000008082, 0x800000000000808A, 0x8000000080008000,
   0x000000000000808B, 0x0000000080000001, 0x8000000080008081, 0x8000000000008009,
   0x000000000000008A, 0x0000000000000088, 0x0000000080008009, 0x000000008000000A,
   0x000000008000808B, 0x800000000000008B, 0x8000000000008089, 0x8000000000008003,
   0x8000000000008002, 0x8000000000000080, 0x000000000000800A, 0x800000008000000A,
   0x8000000080008081, 0x8000000000008080, 0x0000000080000001, 0x8000000080008008]

/-- Adds to every lane the parities of two neighbouring columns. -/
def theta (a : Lanes) : Lanes :=
  let parity : Vector UInt64 5 := Vector.ofFn fun x ↦
    a[x.val] ^^^ a[x.val + 5] ^^^ a[x.val + 10] ^^^ a[x.val + 15] ^^^ a[x.val + 20]
  Vector.ofFn fun i ↦
    a[i.val] ^^^ parity[(i.val + 4) % 5] ^^^ rotateLeft parity[(i.val + 1) % 5] 1

/-- Rotates every lane by an amount of its own and moves it to its new place. -/
def rhoPi (a : Lanes) : Lanes :=
  Vector.ofFn fun i ↦
    let source := (i.val + 3 * (i.val / 5)) % 5 + 5 * (i.val % 5)
    have : source < 25 := by omega
    rotateLeft a[source] rotations[source]

/-- Combines every lane with the two behind it in its row. -/
def chi (a : Lanes) : Lanes :=
  Vector.ofFn fun i ↦
    let row := 5 * (i.val / 5)
    have : row ≤ 20 := by omega
    a[i.val] ^^^ (~~~a[row + (i.val + 1) % 5] &&& a[row + (i.val + 2) % 5])

def round (a : Lanes) (constant : UInt64) : Lanes :=
  let b := chi (rhoPi (theta a))
  b.set 0 (b[0] ^^^ constant)

def permute (a : Lanes) : Lanes :=
  roundConstants.foldl round a

/-! ## The sponge -/

/-- Bytes of a block. -/
def rate : Nat := 136

/-- What is put behind a message of this length to fill its last block. -/
def padding (length : Nat) : Bytes :=
  match rate - length % rate with
  | 0 | 1 => [0x81]
  | n + 2 => 0x01 :: Bytes.zeros n ++ [0x80]

/-- The lane whose bytes, least significant first, begin at `index`. -/
def laneAt (bytes : Bytes) (index : Nat) : UInt64 :=
  ((bytes.drop index).take 8).foldr (fun x w ↦ (w <<< 8) ||| x.toUInt64) 0

def absorb (a : Lanes) (block : Bytes) : Lanes :=
  permute (Vector.ofFn fun i ↦
    if i.val < rate / 8 then a[i.val] ^^^ laneAt block (8 * i.val) else a[i.val])

/-- The bytes of a lane, least significant first. -/
def laneBytes (w : UInt64) : Bytes :=
  (List.range 8).map fun i ↦ (w >>> (8 * i).toUInt64).toUInt8

def hash (message : Bytes) : Block 32 :=
  let padded := message ++ padding message.length
  let blocks := (List.range (padded.length / rate)).map fun i ↦ (padded.drop (rate * i)).take rate
  let a := blocks.foldl absorb (Vector.replicate 25 0)
  ⟨laneBytes a[0] ++ laneBytes a[1] ++ laneBytes a[2] ++ laneBytes a[3], by simp [laneBytes]⟩

end ContractAbi.Keccak
