import TxForensics.Decimal.Shortest
import TxForensics.Text.Quoted
import TxForensics.Toml.Document

/-!
# Values of settings before they are typed

What a configuration file or an environment variable gives for a setting. Only scalars keep their
content: no setting is a sequence or a map, so of those it only matters that they are there.
-/

namespace TxForensics

inductive SettingValue where
  | text (s : String)
  | bool (b : Bool)
  /-- A number that was written in a place for signed ones. -/
  | signed (n : Int)
  | unsigned (n : Nat)
  | float (b : Binary64)
  /-- Nothing was written. -/
  | unit
  | sequence
  | map
deriving DecidableEq, Repr

namespace SettingValue

/-- Floating-point numbers in messages: positional, whole numbers without a point, and the greater
digit for a tie. -/
def floatFormat : DecimalFormat := ⟨.upward, none, false⟩

def describe : SettingValue → String
  | text s => "string " ++ Text.Quoted.text s
  | bool b => "bool " ++ (if b then "true" else "false")
  | signed n => "signed int `" ++ Text.Numeral.signed n ++ "`"
  | unsigned n => "unsigned int `" ++ Text.Numeral.decimal n ++ "`"
  | float b => "float `" ++ floatFormat.text b ++ "`"
  | unit => "unit"
  | sequence => "sequence"
  | map => "map"

/-- What a value of a file gives for a setting; dates are maps. -/
def ofToml : TomlValue → SettingValue
  | .text s => .text s
  | .integer n => .signed n
  | .float b => .float b
  | .bool b => .bool b
  | .dateTime => .map
  | .array _ => .sequence
  | .table _ => .map

end SettingValue

end TxForensics
