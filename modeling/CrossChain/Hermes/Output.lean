import CrossChain.Json.Display
import CrossChain.Link
import CrossChain.Relay.Info
import CrossChain.Text.Blank

/-!
# The output of hermes

A run of hermes prints one JSON object per line among its log lines, and the last one has the
result. A run that exits with another code than zero, prints no object, or reports an error has
failed.  The result of a relay is a tree of events, of which the outermost with a given name are of
interest.
-/

namespace CrossChain

variable [Json.Limits]

/-- How a process ended. -/
structure ProcessResult where
  code : Int := 0
  stdout : Text := []
  stderr : Text := []
  deriving DecidableEq, Repr

namespace ProcessResult

/-- The last line whose first code point after blanks opens an object. -/
def lastObjectLine? (p : ProcessResult) : Option Text :=
  ((Text.lines p.stdout).filter fun line => (Text.trim line).head? == some 123).getLast?

/-- The members of the object on the last such line, unless the line is no JSON. -/
def finalObject? (p : ProcessResult) : Except Failure (Option (Table Json)) :=
  match p.lastObjectLine? with
  | none => .ok none
  | some line =>
    match Json.parse line with
    | .ok (.obj members) => .ok (some members)
    | .ok _ => .ok none
    | .error (.value (.json _)) => .ok none
    | .error e => .error e

/-- The result that an object has, null if it has none. -/
def resultOf (members : Table Json) : Json := (Table.get? "result" members).getD .null

/-- What a failed run printed, its error output before its output. -/
def printed (p : ProcessResult) : Text :=
  Text.trim (if p.stderr.isEmpty then p.stdout else p.stderr)

/-- What is said of a failed run: its result unless that is empty, else what it printed, else its
exit code. -/
def failureText (p : ProcessResult) (final : Option (Table Json)) : Text :=
  let detail := resultOf (final.getD [])
  let message := if detail.isEmpty then p.printed else detail.display
  if message.isEmpty then "hermes exited with " ++ Text.ofInt p.code else message

/-- Whether an object reports an error. -/
def reportsError (members : Table Json) : Bool :=
  ((Table.get? "status" members).getD .null).isText "error"

/-- The result of a run. -/
def result (p : ProcessResult) : Except Failure Json := do
  match ← p.finalObject? with
  | some members =>
    if p.code != 0 || reportsError members then
      throw (.relay (.ofMessage (p.failureText (some members))))
    return resultOf members
  | none => throw (.relay (.ofMessage (p.failureText none)))

end ProcessResult

namespace Hermes

/-! ### Connections and channels -/

/-- The member `key` of a side in a result. -/
def ofSide (side key : Text) (result : Json) : Except Failure Json := do
  Json.member key (← Json.member side result)

/-- The member `key` of both sides in a result; the failure of a result without them tells what it
was about. -/
def ofSides (key about : Text) (result : Json) : Except Failure (Json × Json) :=
  match (do return (← ofSide "a_side" key result, ← ofSide "b_side" key result) :
      Except Failure (Json × Json)) with
  | .ok pair => .ok pair
  | .error e =>
    if e.isShape then
      .error (.relay (.ofMessage ("Unexpected " ++ about ++ ": " ++ result.quoted)))
    else .error e

/-! ### Events -/

mutual

/-- The outermost objects that are members of the given name, in the order of the document. -/
def findEvents (name : Text) : Json → List (List (Text × Json))
  | .obj members => findInMembers name members
  | .arr items => findInItems name items
  | _ => []

/-- The outermost events among the items of a list. -/
def findInItems (name : Text) : List Json → List (List (Text × Json))
  | [] => []
  | item :: rest => findEvents name item ++ findInItems name rest

/-- The outermost events among the members of an object. -/
def findInMembers (name : Text) : List (Text × Json) → List (List (Text × Json))
  | [] => []
  | (key, value) :: rest =>
    (match value with
      | .obj event => if key = name then [event] else findInMembers name event
      | .arr items => findInItems name items
      | _ => []) ++ findInMembers name rest

end

/-! ### Acknowledgements -/

/-- The byte that an item of a list stands for. -/
def byteOf (item : Json) : Except Failure UInt8 :=
  match item.asInt? with
  | none => .error .wrongKind
  | some n => if 0 ≤ n ∧ n < 256 then .ok (UInt8.ofNat n.toNat) else .error (.value .notByte)

/-- Reads pairs of hexadecimal digits with ASCII blanks between pairs. -/
def hexBytes? : Text → Option (List UInt8)
  | [] => some []
  | c :: rest =>
    if c.isAsciiBlank then hexBytes? rest
    else match rest with
      | [] => none
      | d :: rest =>
        match c.hexValue?, d.hexValue? with
        | some high, some low => (hexBytes? rest).map (UInt8.ofNat (16 * high + low) :: ·)
        | _, _ => none

/-- The bytes of an acknowledgement, which comes as a list of byte values, as hexadecimal text, or
as any other text for its UTF-8 bytes. -/
def ackBytes : Json → Except Failure (List UInt8)
  | .arr items => items.mapM byteOf
  | .str s =>
    match hexBytes? s with
    | some bytes => .ok bytes
    | none => s.toBytes
  | v => .error (.relay (.ofMessage ("Unrecognised acknowledgement encoding: " ++ v.quoted)))

/-- The acknowledgement of an event; where its packet says nothing, the ends of the channel do. -/
def ackOf (src dest : ChannelEnd) (event : Table Json) : Except Failure Ack := do
  let bytes ← ackBytes ((Table.get? "ack" event).getD (.arr []))
  match (Table.get? "packet" event).getD (.obj []) with
  | .obj packet =>
    return {
      body := .bytes bytes
      srcChannel := (Table.get? "source_channel" packet).getD src.channel
      destChannel := (Table.get? "destination_channel" packet).getD dest.channel
      sequence := ← ((Table.get? "sequence" packet).getD (.int 0)).toInt }
  | _ => throw .noParts

/-- The acknowledgements that a delivery wrote. -/
def acksOf (src dest : ChannelEnd) (result : Json) : Except Failure (List Ack) :=
  (findEvents "WriteAcknowledgement" result).mapM (ackOf src dest)

/-- How many packets a delivery delivered: those reported, or as many as were acknowledged. -/
def receivedCount (result : Json) (acks : List Ack) : Nat :=
  match (findEvents "ReceivePacket" result).length with
  | 0 => acks.length
  | n => n

end Hermes

end CrossChain
