import TxForensics.Bytecode.Listing
import TxForensics.Word

/-!
# Revert payloads

The two payloads that compiled code reverts with: `Panic(uint256)`, which holds a number, and
`Error(string)`, which holds a text. A payload begins with the selector of its kind, and its
arguments follow in words of 32 bytes.

Reading is lenient. What follows a panic's word does not count, the offset of a string may be any,
and neither padding nor trailing bytes are checked; only what lies past the end of the data fails.
Octets of the text that are no UTF-8 are replaced. Writing is canonical: offset 32, length,
content and zeros up to a full word.
-/

namespace TxForensics

namespace Payload

def selectorSize : Nat := 4

def panicSelector : Bytes := [0x4e, 0x48, 0x7b, 0x71]

def errorSelector : Bytes := [0x08, 0xc3, 0x79, 0xa0]

/-- The number in the word at a byte offset. -/
def wordAt? (data : Bytes) (offset : Nat) : Option Nat :=
  let word := (data.drop offset).take wordSize
  if word.length = wordSize then some (Word.numberOfBytes word) else none

def bytesAt? (data : Bytes) (offset size : Nat) : Option Bytes :=
  if offset + size ≤ data.length then some ((data.drop offset).take size) else none

def panicCode? (arguments : Bytes) : Option Nat := wordAt? arguments 0

def errorText? (arguments : Bytes) : Option String := do
  let offset ← wordAt? arguments 0
  let size ← wordAt? arguments offset
  let content ← bytesAt? arguments (offset + wordSize) size
  return .ofList (Text.Utf8.decodeLossy content)

/-- The payload of an error with a reason. -/
def ofErrorText (reason : String) : Bytes :=
  let content := Text.Utf8.encode reason.toList
  errorSelector ++ (Word.ofNat wordSize).bytes ++ (Word.ofNat content.length).bytes ++ content ++
    List.replicate ((wordSize - content.length % wordSize) % wordSize) 0

/-- The payload of an error in hex. -/
def ofErrorTextHex (reason : String) : String := Hex.prefixed (ofErrorText reason)

end Payload

end TxForensics
