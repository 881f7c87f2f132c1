import TxForensics.Configuration.Loose
import TxForensics.Settings
import TxForensics.Text.Split

/-!
# Settings from layers

Settings come from three layers: the defaults, a file, and the environment. For each setting the
last layer that gives it counts, and what an earlier layer gave for it is not looked at; nor is
anything that is given for no setting. Only a sequence in the environment does not take the place of
a sequence in the file, but goes into it (`chosen?`).

What is given must have the type of its setting. The settings are checked in the order of their
names, the first that has another type is reported with the place it comes from, and then none of
the layers above the defaults counts.

In the environment, a setting is a variable whose name is that of the setting behind a mark, in
capitals or not. Behind a point in its name a variable gives an item of a sequence, if a number
follows there, and a member of a map otherwise. There are no settings at all if a quoted text in one
of the variables would be cut within a character.
-/

namespace TxForensics

inductive SettingSource where
  | file
  | environment
deriving DecidableEq, Repr

/-- A value that has not the type of its setting. -/
structure SettingError where
  key : String
  source : SettingSource
  found : SettingValue
  expected : String
  /-- Whether the value is a number, but none of the type. -/
  isOutOfRange : Bool
deriving DecidableEq, Repr

inductive ConfigurationError where
  /-- The value of a variable cannot be read: a quoted text in it is cut within a character. -/
  | divided (d : Text.DividedCharacter)
  /-- The file does not follow its grammar. -/
  | malformedFile
  /-- A setting has a value of another type. -/
  | setting (e : SettingError)
deriving DecidableEq, Repr

namespace Configuration

def fileName : String := "postmortem.toml"

def variableMark : String := "POSTMORTEM_"

def capitals (s : String) : String := .ofList (s.toList.map Char.toUpper)

end Configuration

/-! ### Messages -/

namespace SettingError

/-- What is wrong with a setting, and where it comes from; `path` is that of the file. -/
def line (path : String) (e : SettingError) : String :=
  let problem :=
    if e.isOutOfRange then "invalid value " ++ e.found.describe ++ ", expected " ++ e.expected
    else "invalid type: found " ++ e.found.describe ++ ", expected " ++ e.expected
  let setting := " for setting `" ++ e.key ++ "`"
  match e.source with
  | .file =>
    Configuration.fileName ++ " error: " ++ problem ++ " for key " ++
      Text.Quoted.text ("default." ++ e.key) ++ " in " ++ path ++ " TOML file" ++ setting
  | .environment =>
    problem ++ " for key " ++ Text.Quoted.text (Configuration.capitals e.key) ++ " in `" ++
      Configuration.variableMark ++ "` environment variable(s)" ++ setting

def message (path : String) (e : SettingError) : String :=
  "failed to extract postmortem config:\n" ++ e.line path ++ "\n"

end SettingError

namespace Configuration

/-! ### The environment -/

/-- What follows the mark at the beginning of a name, whatever the case of its letters. -/
def unmarked? (name : List Char) : Option (List Char) :=
  let size := variableMark.length
  if (name.take size).map Char.toUpper = variableMark.toList then some (name.drop size) else none

/-- The keys that the name of a variable leads through, in small letters. -/
def variablePath? (name : String) : Option (List (List Char)) := do
  let rest ← unmarked? (Text.trim name.toList)
  let path := Text.splitOn '.' (Text.trim rest)
  guard (path.all fun key => !key.isEmpty)
  return path.map (·.map Char.toLower)

/-- Whether a key counts the items of a sequence: it is a number of eight bytes. -/
def isIndex (key : List Char) : Bool := (Text.Numeral.readBelow 10 (2 ^ 64) key).toOption.isSome

/-- What a variable gives, and for which key; `path` are the keys of its name. -/
def entryOf? (path : List (List Char)) (value : SettingValue) :
    Option (String × SettingValue) :=
  match path with
  | [] => none
  | [key] => some (.ofList key, value)
  | key :: part :: _ => some (.ofList key, if isIndex part then .sequence else .map)

/-- What the variables give, in their order. All of them are read, also those of no setting. -/
def variableEntries :
    List (String × String) → Except Text.DividedCharacter (List (String × SettingValue))
  | [] => .ok []
  | (name, value) :: rest =>
    match variablePath? name with
    | none => variableEntries rest
    | some path => do
      let value ← SettingValue.ofLoose (Text.trim value.toList)
      let entries ← variableEntries rest
      return (entryOf? path value).toList ++ entries

/-! ### Layers -/

/-- The layers above the defaults. -/
structure Layers where
  /-- The table of the file; empty if there is no file. -/
  file : List (String × TomlValue)
  /-- What the environment gives, in the order of its variables. -/
  environment : List (String × SettingValue)

/-- What the environment gives for a key: the last variable counts. -/
def Layers.fromEnvironment? (l : Layers) (key : String) : Option SettingValue :=
  l.environment.reverse.lookup key

/-- What the layers give for a key, and which of them. The environment comes before the file, but
its items go into a sequence that the file gives. -/
def Layers.chosen? (l : Layers) (key : String) : Option (SettingSource × SettingValue) :=
  match l.fromEnvironment? key, (l.file.lookup key).map SettingValue.ofToml with
  | some .sequence, some .sequence => some (.file, .sequence)
  | some v, _ => some (.environment, v)
  | none, v? => v?.map (.file, ·)

def Layers.read (l : Layers) (key : String) (default : α)
    (typed : SettingValue → Except (String × Bool) α) : Except SettingError α :=
  match l.chosen? key with
  | none => .ok default
  | some (source, found) =>
    match typed found with
    | .ok a => .ok a
    | .error (expected, isOutOfRange) => .error { key, source, found, expected, isOutOfRange }

def asNumber : SettingValue → Except (String × Bool) UInt64
  | .unsigned n => if n < 2 ^ 64 then .ok n.toUInt64 else .error ("usize", true)
  | .signed n => if 0 ≤ n ∧ n < 2 ^ 64 then .ok n.toNat.toUInt64 else .error ("usize", true)
  | _ => .error ("usize", false)

def asBool : SettingValue → Except (String × Bool) Bool
  | .bool b => .ok b
  | _ => .error ("a boolean", false)

def asText : SettingValue → Except (String × Bool) String
  | .text s => .ok s
  | _ => .error ("a string", false)

def Layers.settings (l : Layers) : Except SettingError Settings := do
  let default : Settings := {}
  -- in the order of the names: the first setting of another type is reported
  let withFunction ← l.read "function_context" default.withFunction asBool
  let genericReason ← l.read "generic_revert_message" default.genericReason asText
  let tolerance ← l.read "neighbor_tolerance" default.tolerance asNumber
  let lookback ← l.read "synthetic_lookback" default.lookback asNumber
  return { lookback, tolerance, withFunction, genericReason }

end Configuration

namespace Settings

/-- The settings of a file, if there is one, and an environment. The environment is read first. -/
def ofLayers (file : Option String) (environment : List (String × String)) :
    Except ConfigurationError Settings := do
  let entries ← (Configuration.variableEntries environment).mapError .divided
  match file.map Toml.parse with
  | some none => .error .malformedFile
  | some (some table) => (Configuration.Layers.settings ⟨table, entries⟩).mapError .setting
  | none => (Configuration.Layers.settings ⟨[], entries⟩).mapError .setting

/-- The settings of a file and an environment, or the default settings if there are none. -/
def ofLayersOrDefault (file : Option String) (environment : List (String × String)) : Settings :=
  match ofLayers file environment with
  | .ok settings => settings
  | .error _ => {}

end Settings

end TxForensics
