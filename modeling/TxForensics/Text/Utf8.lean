/-!
# UTF-8

Texts as sequences of octets, and back.

`encode` writes each character as one to four octets. `decode?` accepts exactly well-formed UTF-8:
no overlong forms, no surrogates, nothing above `U+10FFFF`. `decodeLossy` accepts everything and
puts one replacement character for each maximal part that begins a character but does not finish
it, or for a single octet that begins none.

All three go through `next`, which splits the first character or the first such part off a
sequence of octets.
-/

namespace TxForensics.Text.Utf8

def encodeChar (c : Char) : List UInt8 :=
  let n := c.toNat
  if n < 0x80 then [n.toUInt8]
  else if n < 0x800 then [(0xC0 + n / 64).toUInt8, (0x80 + n % 64).toUInt8]
  else if n < 0x10000 then
    [(0xE0 + n / 4096).toUInt8, (0x80 + n / 64 % 64).toUInt8, (0x80 + n % 64).toUInt8]
  else
    [(0xF0 + n / 262144).toUInt8, (0x80 + n / 4096 % 64).toUInt8, (0x80 + n / 64 % 64).toUInt8,
      (0x80 + n % 64).toUInt8]

def encode (cs : List Char) : List UInt8 := cs.flatMap encodeChar

def width (c : Char) : Nat :=
  let n := c.toNat
  if n < 0x80 then 1 else if n < 0x800 then 2 else if n < 0x10000 then 3 else 4

def size : List Char → Nat
  | [] => 0
  | c :: cs => width c + size cs

theorem length_encodeChar (c : Char) : (encodeChar c).length = width c := by
  simp only [encodeChar, width]
  split
  · rfl
  split
  · rfl
  split <;> rfl

theorem width_pos (c : Char) : 0 < width c := by
  simp only [width]
  split
  · decide
  split
  · decide
  split <;> decide

/-- `size` counts the octets that `encode` writes. -/
theorem length_encode (cs : List Char) : (encode cs).length = size cs := by
  induction cs with
  | nil => rfl
  | cons c cs ih =>
    rw [encode] at ih
    rw [encode, size, List.flatMap_cons, List.length_append, length_encodeChar, ih]

/-! ### Reading -/

def isContinuation (b : UInt8) : Bool := 0x80 ≤ b && b ≤ 0xBF

/-- The number of octets that follow a leading octet; none for one that leads no character. -/
def following? (lead : UInt8) : Option Nat :=
  if lead < 0x80 then some 0
  else if 0xC2 ≤ lead ∧ lead ≤ 0xDF then some 1
  else if 0xE0 ≤ lead ∧ lead ≤ 0xEF then some 2
  else if 0xF0 ≤ lead ∧ lead ≤ 0xF4 then some 3
  else none

/-- Whether `b` may be the second octet after `lead`: it continues, and the two begin neither an
overlong form nor a surrogate nor a number above the last code point. -/
def isSecond (lead b : UInt8) : Bool :=
  isContinuation b &&
    if lead = 0xE0 then 0xA0 ≤ b
    else if lead = 0xED then b ≤ 0x9F
    else if lead = 0xF0 then 0x90 ≤ b
    else if lead = 0xF4 then b ≤ 0x8F
    else true

def payload (b : UInt8) : Nat := b.toNat % 64

/-- Splits the first character off the octets `lead :: rest`, or, as `none`, the longest part that
begins a character without finishing it. -/
def next (lead : UInt8) (rest : List UInt8) : Option Char × List UInt8 :=
  match following? lead, rest with
  | some 0, _ => (some (.ofNat lead.toNat), rest)
  | some 1, b :: r =>
    if isSecond lead b then (some (.ofNat (lead.toNat % 32 * 64 + payload b)), r)
    else (none, rest)
  | some 2, b :: r =>
    if isSecond lead b then
      match r with
      | c :: r' =>
        if isContinuation c then
          (some (.ofNat ((lead.toNat % 16 * 64 + payload b) * 64 + payload c)), r')
        else (none, r)
      | [] => (none, r)
    else (none, rest)
  | some 3, b :: r =>
    if isSecond lead b then
      match r with
      | c :: r' =>
        if isContinuation c then
          match r' with
          | d :: r'' =>
            if isContinuation d then
              (some (.ofNat
                (((lead.toNat % 8 * 64 + payload b) * 64 + payload c) * 64 + payload d)), r'')
            else (none, r')
          | [] => (none, r')
        else (none, r)
      | [] => (none, r)
    else (none, rest)
  | _, _ => (none, rest)

/-- `next` takes the leading octet at least. -/
theorem length_next_le (lead : UInt8) (rest : List UInt8) :
    (next lead rest).2.length ≤ rest.length := by
  unfold next
  split
  · simp
  · split <;> simp
  · split
    · split
      · split <;> simp_all
        omega
      · simp_all
    · simp
  · split
    · split
      · split
        · split
          · split <;> simp_all
            omega
          · simp_all
        · simp_all
      · simp_all
    · simp
  · simp

/-- The characters of a sequence of octets, with `none` for each part that is no character. -/
def pieces : List UInt8 → List (Option Char)
  | [] => []
  | lead :: rest => (next lead rest).1 :: pieces (next lead rest).2
termination_by bs => bs.length
decreasing_by
  have := length_next_le lead rest
  simp only [List.length_cons]
  omega

/-- The text that well-formed UTF-8 encodes. -/
def decode? (bs : List UInt8) : Option (List Char) := (pieces bs).mapM id

/-- The text with a replacement character for each part that is no character. -/
def decodeLossy (bs : List UInt8) : List Char :=
  (pieces bs).map fun piece => piece.getD (.ofNat 0xFFFD)

end TxForensics.Text.Utf8
