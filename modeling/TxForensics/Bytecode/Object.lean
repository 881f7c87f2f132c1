import TxForensics.Bytecode.Listing
import TxForensics.Text.Blank

/-!
# Object code

The text in which a compiler writes bytecode: hexadecimal digits, and for each library that has
not been linked yet a placeholder of forty characters that begins with two underscores.

`linked` puts zeros where placeholders stand, so that the bytes around them keep their positions;
`Object.decode` reads the object as bytes. An object that is not ASCII is taken as it is, and so
its first stray character is reported.
-/

namespace TxForensics.Object

def placeholderSize : Nat := 40

/-- The text with every placeholder, the last one perhaps cut short, replaced by zeros. -/
def linked : List Char → List Char
  | '_' :: '_' :: rest =>
    List.replicate (min placeholderSize (rest.length + 2)) '0' ++
      linked (rest.drop (placeholderSize - 2))
  | c :: rest => c :: linked rest
  | [] => []
termination_by cs => cs.length
decreasing_by all_goals simp only [List.length_drop, List.length_cons]; omega

def isAscii (cs : List Char) : Bool := cs.all fun c => c.toNat < 0x80

/-- The object behind the mark that a compiler may put in front, a `0x` in lower case. The digits
behind it may be marked once more. -/
def stripMark : List Char → List Char
  | '0' :: 'x' :: cs => cs
  | cs => cs

def decode (object : String) : Except HexError Bytes :=
  let cs := stripMark (Text.trim object.toList)
  -- a text that is not ASCII keeps its placeholders, and reading fails at one of its characters
  Hex.decode (if isAscii cs then linked cs else cs)

def errorMessage (cause : HexError) : String := "invalid bytecode hex: " ++ cause.message

end TxForensics.Object
