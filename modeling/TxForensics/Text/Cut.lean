import TxForensics.Text.Quoted
import TxForensics.Text.Utf8

/-!
# Cutting a text after a number of octets

`takeOctets` keeps the characters that take the first octets of a text, as many octets as asked for.
Their number may end within a character; a character is not divided, so then it is reported with
its place.

Where every character takes one octet, nothing is reported and octets are counted like characters
(`takeOctets_of_width_eq_one`).
-/

namespace TxForensics.Text

/-- A character within which a number of octets ends. -/
structure DividedCharacter where
  character : Char
  /-- The number of octets before the character. -/
  start : Nat
  /-- The number of octets that ends within it. -/
  count : Nat
deriving DecidableEq, Repr

def DividedCharacter.message (d : DividedCharacter) : String :=
  "end byte index " ++ Numeral.decimal d.count ++ " is not a char boundary; it is inside " ++
    Quoted.char d.character ++ " (bytes " ++ Numeral.decimal d.start ++ ".." ++
    Numeral.decimal (d.start + Utf8.width d.character) ++ " of string)"

/-- Keeps the characters of the next `count` octets, where `start` octets come before. -/
def takeOctetsFrom (start count : Nat) : List Char → Except DividedCharacter (List Char)
  | [] => .ok []
  | c :: cs =>
    if count = 0 then .ok []
    else if count < Utf8.width c then .error ⟨c, start, start + count⟩
    else
      (takeOctetsFrom (start + Utf8.width c) (count - Utf8.width c) cs).map (c :: ·)

/-- Keeps the characters of the first `count` octets of a text. -/
def takeOctets (count : Nat) (cs : List Char) : Except DividedCharacter (List Char) :=
  takeOctetsFrom 0 count cs

/-- Among characters of one octet, the next octets are the next characters. -/
theorem takeOctetsFrom_of_width_eq_one {start count : Nat} {cs : List Char}
    (h : ∀ c ∈ cs, Utf8.width c = 1) : takeOctetsFrom start count cs = .ok (cs.take count) := by
  induction cs generalizing start count with
  | nil => simp [takeOctetsFrom]
  | cons c cs ih =>
    rw [takeOctetsFrom, h c List.mem_cons_self]
    cases count with
    | zero => simp
    | succ n =>
      rw [if_neg (Nat.succ_ne_zero n), if_neg (by omega), Nat.add_sub_cancel,
        ih fun d hd => h d (List.mem_cons_of_mem c hd)]
      rfl

/-- In a text of characters of one octet, the first octets are the first characters. -/
theorem takeOctets_of_width_eq_one {count : Nat} {cs : List Char}
    (h : ∀ c ∈ cs, Utf8.width c = 1) : takeOctets count cs = .ok (cs.take count) :=
  takeOctetsFrom_of_width_eq_one h

end TxForensics.Text
