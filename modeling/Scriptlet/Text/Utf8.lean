import Scriptlet.Text.Quoted

namespace Scriptlet.Text

/-- What is wrong with bytes that encode no character. -/
inductive Utf8Fault where
  | invalidStart
  | invalidContinuation
  | unexpectedEnd
  deriving DecidableEq

/-- The first bytes of a text that encode no character. They begin with the
byte `lead` at offset `start` and are as many as could still have begun one. -/
structure Utf8Error where
  start : Nat
  width : Nat
  lead : UInt8
  fault : Utf8Fault
  deriving DecidableEq

namespace Utf8Error

def reason (error : Utf8Error) : String :=
  match error.fault with
  | .invalidStart => "invalid start byte"
  | .invalidContinuation => "invalid continuation byte"
  | .unexpectedEnd => "unexpected end of data"

/-- A single byte is shown, several are named by the offsets of the first and
of the last. -/
def message (error : Utf8Error) : String :=
  let place :=
    if error.width = 1 then
      "byte 0x" ++ String.ofList (hexDigits 2 error.lead.toNat) ++
        " in position " ++ toString error.start
    else
      "bytes in position " ++ toString error.start ++ "-" ++
        toString (error.start + error.width - 1)
  "'utf-8' codec can't decode " ++ place ++ ": " ++ error.reason

end Utf8Error

/-- The bounds of the byte after a lead byte. They are narrower than those of
other continuation bytes where a longer form of a shorter code, a surrogate or
a code beyond the last one would begin. -/
def secondByte (lead : Nat) : Nat × Nat :=
  if lead = 0xE0 then (0xA0, 0xBF)
  else if lead = 0xED then (0x80, 0x9F)
  else if lead = 0xF0 then (0x90, 0xBF)
  else if lead = 0xF4 then (0x80, 0x8F)
  else (0x80, 0xBF)

/-- The payload of a lead byte and the bounds of the bytes that follow it.
Bytes that begin no character have none. -/
def leadByte (lead : Nat) : Option (Nat × List (Nat × Nat)) :=
  if lead < 0x80 then some (lead, [])
  else if lead < 0xC2 then none
  else if lead < 0xE0 then some (lead - 0xC0, [secondByte lead])
  else if lead < 0xF0 then some (lead - 0xE0, [secondByte lead, (0x80, 0xBF)])
  else if lead < 0xF5 then
    some (lead - 0xF0, [secondByte lead, (0x80, 0xBF), (0x80, 0xBF)])
  else none

/-- A character of which `width` bytes are read: where it begins and with which
byte, the payload so far and the bounds of the bytes to come. -/
structure Utf8Begun where
  start : Nat
  lead : UInt8
  width : Nat
  payload : Nat
  due : (Nat × Nat) × List (Nat × Nat)

/-- The error of a character that is not completed. -/
def Utf8Begun.broken (begun : Utf8Begun) (fault : Utf8Fault) : Utf8Error :=
  ⟨begun.start, begun.width, begun.lead, fault⟩

/-- Reads on at an offset, with the characters read so far in reverse and the
one that is begun, if any. -/
def decodeInto : List Char → Nat → Option Utf8Begun → List UInt8 → Except Utf8Error (List Char)
  | done, _, none, [] => .ok done.reverse
  | _, _, some begun, [] => .error (begun.broken .unexpectedEnd)
  | done, offset, none, byte :: rest =>
    match leadByte byte.toNat with
    | none => .error ⟨offset, 1, byte, .invalidStart⟩
    | some (payload, []) => decodeInto (Char.ofNat payload :: done) (offset + 1) none rest
    | some (payload, next :: later) =>
      decodeInto done (offset + 1) (some ⟨offset, byte, 1, payload, next, later⟩) rest
  | done, offset, some begun, byte :: rest =>
    if begun.due.1.1 ≤ byte.toNat ∧ byte.toNat ≤ begun.due.1.2 then
      let payload := begun.payload * 64 + byte.toNat % 64
      match begun.due.2 with
      | [] => decodeInto (Char.ofNat payload :: done) (offset + 1) none rest
      | next :: later =>
        decodeInto done (offset + 1)
          (some ⟨begun.start, begun.lead, begun.width + 1, payload, next, later⟩) rest
    else .error (begun.broken .invalidContinuation)

/-- The characters of a UTF-8 text. Every character has to be in its only form,
and a byte order mark is a character like any other. -/
def decodeUtf8 (bytes : List UInt8) : Except Utf8Error (List Char) :=
  decodeInto [] 0 none bytes

end Scriptlet.Text
