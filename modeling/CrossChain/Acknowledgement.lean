import CrossChain.Envelope

/-!
# Acknowledgements

The receiving chain answers a packet with `{"result": …}` or `{"error": …}`.  Reading one tells
which of the two it is and what it carries, and refuses everything else: a value that is no object,
both members or neither, or a null where the answer should be.
-/

namespace CrossChain

variable [Json.Limits]

/-- An acknowledgement as it was written: bytes, or a text. -/
inductive AckBody
  | bytes (b : List UInt8)
  | text (s : Text)
  deriving DecidableEq, Repr

/-- What an acknowledgement says: whether the call went well, and what came of it. -/
structure AckResult where
  ok : Bool
  payload : Json
  deriving Repr

namespace AckBody

/-- The text of an acknowledgement. -/
def toText : AckBody → Except Failure Text
  | bytes b => (Utf8.decode b).mapError fun f => .violation (.notUtf8 f)
  | text s => .ok s

/-- Reads the text of an acknowledgement as JSON.  An integer with too many digits and too many
containers inside each other are faults of their own and no violation. -/
def parse (s : Text) : Except Failure Json :=
  (Json.read s).mapError fun
    | .fault _ => .violation (.notJson s)
    | .tooLong digits => .value (.tooManyDigits digits)
    | .tooDeep container => .tooDeep container

/-- What the members of an acknowledgement say. -/
def ofMembers (s : Text) (members : Table Json) : Except Failure AckResult :=
  match Table.get? "result" members, Table.get? "error" members with
  | some .null, none => .error (.violation (.nullMember "result" s))
  | some v, none => .ok ⟨true, v⟩
  | none, some .null => .error (.violation (.nullMember "error" s))
  | none, some v => .ok ⟨false, v⟩
  | _, _ => .error (.violation (.notExactlyOne s))

/-- Reads an acknowledgement. -/
def decode (ack : AckBody) : Except Failure AckResult := do
  let s ← ack.toText
  match ← parse s with
  | .obj members => ofMembers s members
  | _ => throw (.violation (.notObject s))

/-- The value that a good acknowledgement carries in binary form. -/
def successValue (ack : AckBody) : Except Failure Json := do
  let result ← ack.decode
  if !result.ok then throw (.mismatch (.errorInAck result.payload))
  match result.payload with
  | .str s => BinaryBody.decode s
  | _ => throw .wrongKind

end AckBody

end CrossChain
