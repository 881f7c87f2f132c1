import TxForensics.Bytecode.Listing
import TxForensics.Keccak
import TxForensics.Settings
import TxForensics.Source.Function
import TxForensics.SourceMap

/-!
# From program counters to the source

A `PcMap` holds what is needed to follow the program counters of one code back to its source: the
instructions of the code, its source map and the source text. The way of a pc has three steps

    pc ──instructionIndex?──▶ index ──nearestEntry?, lastHandwritten?──▶ entry ──▶ position

* The pc must begin an instruction, whose index selects an entry of the map. Where the map has no
  entry for it, the nearest entry within the tolerance stands in, the earlier one first.
* An entry of generated code gives way to the last handwritten entry before it, if there is one
  within the lookback bound.
* The start of the entry is a position in the source text.

Both searches run over the distances up to their bound. Distances that can reach no entry are left
out, so the bounds may be as large as they like.
-/

namespace TxForensics

/-- A place in the source: a position and the function around it. -/
structure SourceSite where
  position : SourcePosition
  function : Option EnclosingFunction
deriving DecidableEq

structure PcMap where
  /-- The hash of the code. -/
  codeHash : Word
  /-- The pc of each instruction with its index. -/
  pcIndex : List (Nat × Nat)
  sourceMap : SourceMap
  source : SourceFile
  /-- How many instructions to walk back from generated code to handwritten code. -/
  lookback : UInt64
  /-- How far from an instruction without an entry to look for one that has one. -/
  tolerance : UInt64
  /-- Whether a place comes with the function around it. -/
  withFunction : Bool
deriving DecidableEq

namespace PcMap

def build (code : Bytes) (sourceMap source : String) (settings : Settings) : PcMap :=
  { codeHash := Keccak.hash code
    pcIndex := Bytecode.pcIndex code
    sourceMap := .parse sourceMap
    source := ⟨source⟩
    lookback := settings.lookback
    tolerance := settings.tolerance
    withFunction := settings.withFunction }

def instructionIndex? (m : PcMap) (pc : Nat) : Option Nat := m.pcIndex.lookup pc

def indexedEntry? (m : PcMap) (ic : Nat) : Option (Nat × SourceMap.Entry) :=
  (m.sourceMap.get? ic).map (ic, ·)

/-- The entry at a distance from `ic`, the earlier one of two. -/
def entryAtDistance? (m : PcMap) (ic distance : Nat) : Option (Nat × SourceMap.Entry) :=
  (if distance ≤ ic then m.indexedEntry? (ic - distance) else none) <|>
    m.indexedEntry? (ic + distance)

/-- The entry for `ic`, or the nearest one within the tolerance, with its index. -/
def nearestEntry? (m : PcMap) (ic : Nat) : Option (Nat × SourceMap.Entry) :=
  -- at a greater distance than `max ic size` both sides lie outside the map
  m.indexedEntry? ic <|>
    (List.range' 1 (min m.tolerance.toNat (max ic m.sourceMap.size))).findSome?
      (m.entryAtDistance? ic)

/-- The last handwritten entry before `ic` within the lookback bound. -/
def lastHandwritten? (m : PcMap) (ic : Nat) : Option SourceMap.Entry :=
  -- at a greater distance than `ic` there is no instruction
  (List.range' 1 (min m.lookback.toNat ic)).findSome? fun distance =>
    (m.sourceMap.get? (ic - distance)).filter (·.isHandwritten)

/-- The handwritten entry that `pc` is attributed to. -/
def attributedEntry? (m : PcMap) (pc : Nat) : Option SourceMap.Entry := do
  let ic ← m.instructionIndex? pc
  let (near, entry) ← m.nearestEntry? ic
  if entry.isHandwritten then some entry else m.lastHandwritten? near

def position? (m : PcMap) (pc : Nat) : Option SourcePosition := do
  let entry ← m.attributedEntry? pc
  m.source.position? entry.start.toNat

/-- The position of `pc`, with the function around it if the settings ask for that. -/
def site? (m : PcMap) (pc : Nat) : Option SourceSite := do
  let position ← m.position? pc
  let function := if m.withFunction then m.source.functionAt? position.line.toNat else none
  return { position, function }

end PcMap

end TxForensics
