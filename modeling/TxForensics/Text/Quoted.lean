import TxForensics.Text.Numeral
import TxForensics.Text.Unprintable

/-!
# Quoted text

How a text or a single character is shown inside a message: between quotes, with the enclosing
quote and the backslash escaped, the null character, tab, line feed and carriage return by their
letters, and every other character without a printed form by its code point. A text stands between
double quotes and leaves single ones alone, a character the other way round.
-/

namespace TxForensics.Text.Quoted

/-- The form of `c` between quotes of the kind `quote`. -/
def escape (quote c : Char) : List Char :=
  if c = quote ∨ c = '\\' then ['\\', c]
  else if c.toNat = 0 then ['\\', '0']
  else if c = '\t' then ['\\', 't']
  else if c = '\n' then ['\\', 'n']
  else if c = '\r' then ['\\', 'r']
  else if isUnprintable c then '\\' :: 'u' :: '{' :: Nat.toDigits 16 c.toNat ++ ['}']
  else [c]

def text (s : String) : String :=
  .ofList ('"' :: s.toList.flatMap (escape '"') ++ ['"'])

def char (c : Char) : String :=
  .ofList ('\x27' :: escape '\x27' c ++ ['\x27'])

end TxForensics.Text.Quoted
