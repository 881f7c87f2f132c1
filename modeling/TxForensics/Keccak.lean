import TxForensics.Word

/-!
# The Keccak-256 hash

Code is identified by the 256-bit Keccak hash of its bytes: the sponge over the 1600-bit
permutation with a rate of 136 bytes and the padding `0x01 … 0x80`.

The state is 25 lanes of 64 bits, lane `x + 5 * y` at column `x` and row `y`. A round is the
composition of the five step mappings, each of them written lane by lane.
-/

namespace TxForensics.Keccak

abbrev State := Vector UInt64 25

/-- The lane at column `x` and row `y`, both taken modulo five. -/
def lane (s : State) (x y : Nat) : UInt64 :=
  s.get ⟨x % 5 + 5 * (y % 5), by omega⟩

def ofLanes (f : Nat → Nat → UInt64) : State := .ofFn fun i => f (i.val % 5) (i.val / 5)

def rotate (w : UInt64) (n : Nat) : UInt64 :=
  if n % 64 = 0 then w
  else (w <<< (n % 64).toUInt64) ||| (w >>> (64 - n % 64).toUInt64)

def parity (s : State) (x : Nat) : UInt64 :=
  lane s x 0 ^^^ lane s x 1 ^^^ lane s x 2 ^^^ lane s x 3 ^^^ lane s x 4

/-- Adds to each lane the parities of the column before and of the column after, turned by one. -/
def theta (s : State) : State :=
  let parities : Vector UInt64 5 := .ofFn fun x => parity s x.val
  let effect : Vector UInt64 5 := .ofFn fun x =>
    parities.get ⟨(x.val + 4) % 5, by omega⟩ ^^^
      rotate (parities.get ⟨(x.val + 1) % 5, by omega⟩) 1
  .ofFn fun i => s[i] ^^^ effect.get ⟨i.val % 5, by omega⟩

def offsets : Vector Nat 25 := #v[
  0, 1, 62, 28, 27,
  36, 44, 6, 55, 20,
  3, 10, 43, 25, 39,
  41, 45, 15, 21, 8,
  18, 2, 61, 56, 14]

def rho (s : State) : State := .ofFn fun i => rotate s[i] offsets[i]

/-- Moves the lanes: the lane that arrives at `(x, y)` comes from column `x + 3 * y` and row `x`. -/
def pi (s : State) : State := ofLanes fun x y => lane s (x + 3 * y) x

/-- Combines each lane with the next two of its row. -/
def chi (s : State) : State :=
  ofLanes fun x y => lane s x y ^^^ (~~~(lane s (x + 1) y) &&& lane s (x + 2) y)

def roundConstants : List UInt64 := [
  0x0000000000000001, 0x0000000000008082, 0x800000000000808A, 0x8000000080008000,
  0x000000000000808B, 0x0000000080000001, 0x8000000080008081, 0x8000000000008009,
  0x000000000000008A, 0x0000000000000088, 0x0000000080008009, 0x000000008000000A,
  0x000000008000808B, 0x800000000000008B, 0x8000000000008089, 0x8000000000008003,
  0x8000000000008002, 0x8000000000000080, 0x000000000000800A, 0x800000008000000A,
  0x8000000080008081, 0x8000000000008080, 0x0000000080000001, 0x8000000080008008]

def iota (constant : UInt64) (s : State) : State := s.set 0 (s[0] ^^^ constant)

def round (s : State) (constant : UInt64) : State := iota constant (chi (pi (rho (theta s))))

def permute (s : State) : State := roundConstants.foldl round s

/-! ### The sponge -/

/-- The number of bytes that are absorbed between two permutations. -/
def rate : Nat := 136

/-- The lane of up to eight bytes, least significant first. -/
def laneOfBytes (bs : List UInt8) : UInt64 := bs.foldr (fun b w => w <<< 8 ||| b.toUInt64) 0

/-- The eight bytes of a lane, least significant first. -/
def bytesOfLane (w : UInt64) : List UInt8 :=
  (List.range 8).map fun i => (w >>> (8 * i).toUInt64).toUInt8

/-- The message filled up to a multiple of the rate. -/
def padMessage (bs : List UInt8) : List UInt8 :=
  let missing := rate - bs.length % rate
  if missing = 1 then bs ++ [0x81]
  else bs ++ 0x01 :: List.replicate (missing - 2) 0 ++ [0x80]

def lanesOfBytes (count : Nat) (bs : List UInt8) : List UInt64 :=
  match count with
  | 0 => []
  | count + 1 => laneOfBytes (bs.take 8) :: lanesOfBytes count (bs.drop 8)

def absorb (blocks : Nat) (s : State) (bs : List UInt8) : State :=
  match blocks with
  | 0 => s
  | blocks + 1 =>
    let lanes := (lanesOfBytes (rate / 8) bs).toArray
    absorb blocks (permute (.ofFn fun i => s[i] ^^^ lanes.getD i.val 0)) (bs.drop rate)

def hash (bs : List UInt8) : Word :=
  let message := padMessage bs
  let final := absorb (message.length / rate) (.replicate 25 0) message
  .ofBytes ((final.toList.take 4).flatMap bytesOfLane)

end TxForensics.Keccak
