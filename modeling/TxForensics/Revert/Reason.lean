import TxForensics.Revert.Payload
import TxForensics.Text.Blank

/-!
# Revert reasons

Why a transaction failed, as far as its payload tells. Classification never fails: a payload that
is neither a panic nor an error gives way to the plain reason of the node if there is one, then to
its own bytes, and where there is nothing to show, to a generic message.
-/

namespace TxForensics

inductive RevertCause where
  /-- A check inserted by the compiler. -/
  | panic (code : UInt8)
  /-- A reason in words. -/
  | stated (message : String)
  /-- A payload of another kind. -/
  | unknown (payload : Bytes)
deriving DecidableEq

def panicMeaning (code : UInt8) : String :=
  match code.toNat with
  | 0x00 => "Generic compiler panic"
  | 0x01 => "Assertion failed"
  | 0x11 => "Arithmetic overflow or underflow"
  | 0x12 => "Division or modulo by zero"
  | 0x21 => "Invalid enum value"
  | 0x22 => "Invalid storage byte array encoding"
  | 0x31 => "Pop on empty array"
  | 0x32 => "Array index out of bounds"
  | 0x41 => "Out of memory"
  | 0x51 => "Invalid internal function call"
  | _ => "Unknown panic"

namespace RevertCause

/-- The reason in words, or the payload in hex. -/
def message : RevertCause → String
  | panic code => panicMeaning code
  | stated message => message
  | unknown payload => Hex.prefixed payload

def isPanic : RevertCause → Bool
  | panic _ => true
  | _ => false

def text : RevertCause → String
  | panic code => "panic: " ++ panicMeaning code ++ " (" ++ Text.Numeral.hex 2 code.toNat ++ ")"
  | stated message => message
  | unknown payload => "custom error " ++ Hex.prefixed payload

/-- The plain reason without blank characters around it, if anything is left. -/
def plain? (plainReason : Option String) : Option String :=
  (plainReason.map Text.trimmed).filter (· ≠ "")

/-- The reason where the payload tells nothing. -/
def fallback (plainReason : Option String) (generic : String) : RevertCause :=
  .stated ((plain? plainReason).getD generic)

def ofPayload (payload : Bytes) (plainReason : Option String) (generic : String) : RevertCause :=
  let selector := payload.take Payload.selectorSize
  let arguments := payload.drop Payload.selectorSize
  if payload.length < Payload.selectorSize then fallback plainReason generic
  else if selector = Payload.panicSelector then
    match Payload.panicCode? arguments with
    | some code => if code < 256 then .panic code.toUInt8 else .unknown payload
    | none => fallback plainReason generic
  else if selector = Payload.errorSelector then
    match Payload.errorText? arguments with
    | some message => .stated message
    | none => fallback plainReason generic
  else
    match plain? plainReason with
    | some reason => .stated reason
    | none => .unknown payload

/-- Classifies a payload in hex; a text that is no hex is the empty payload. -/
def ofPayloadHex (payload : String) (plainReason : Option String) (generic : String) :
    RevertCause :=
  match Hex.decode (Text.trim payload.toList) with
  | .ok bytes => ofPayload bytes plainReason generic
  | .error _ => ofPayload [] plainReason generic

end RevertCause

/-- The reason of a transaction; none if it succeeded. -/
def RevertCause.ofOutcome? (success : Bool) (payload : Bytes) (plainReason : Option String)
    (generic : String) : Option RevertCause :=
  if success then none else some (.ofPayload payload plainReason generic)

end TxForensics
