import CrossChain.Binary.Base64
import CrossChain.Coin
import CrossChain.Json.Reader
import CrossChain.Text.Utf8

/-!
# Failures

Everything that can go wrong, by cause, with one function for the wording.  A failure is a value:
the operations of this library return it, catch it by its family, and put it into another one.
-/

namespace CrossChain

variable [Json.Limits]

/-! ### Acknowledgements -/

/-- Why an acknowledgement is none of the two forms. -/
inductive Violation
  | notUtf8 (fault : Utf8Fault)
  | notJson (ack : Text)
  | notObject (ack : Text)
  | notExactlyOne (ack : Text)
  | nullMember (name ack : Text)
  deriving DecidableEq, Repr

/-- The wording of a violation. -/
def Violation.message : Violation → Text
  | notUtf8 fault => "Acknowledgement is not UTF-8: " ++ fault.message
  | notJson ack => "Acknowledgement is not JSON: " ++ ack.quoted
  | notObject ack => "Acknowledgement is not an object: " ++ ack.quoted
  | notExactlyOne ack =>
    "Acknowledgement must carry exactly one of result/error: " ++ ack.quoted
  | nullMember name ack => "Acknowledgement " ++ name ++ " is null: " ++ ack.quoted

/-! ### Values -/

/-- Why a value is not one of those allowed. -/
inductive ValueFault
  | unknownChain (name : Text) (supported : List Text)
  | unknownSide (name : Text)
  | unknownOrder (name : Text)
  | unknownReply (name : Text)
  | notInteger (s : Text)
  | notNumber (s : Text)
  | tooManyDigits (digits : Nat)
  | unwritable
  | notANumberToInteger
  | notByte
  | notAscii
  | nullInPath
  | kernelNotInSet
  | notAPair (position size : Nat)
  | noClient (chainId : Text)
  | json (fault : Json.ReadFault)
  | base64 (fault : Base64.Fault)
  | utf8 (fault : Utf8Fault)
  | surrogates (start : Nat) (run : Text)
  | reported (message : Text)
  deriving DecidableEq, Repr

/-- The wording for a name that is none of a closed list. -/
def notValid (name : Text) (choice : Text) : Text := name.quoted ++ " is not a valid " ++ choice

/-- The wording of a value fault. -/
def ValueFault.message : ValueFault → Text
  | unknownChain name supported =>
    "Unknown chain: " ++ name ++ ". Supported: " ++ Json.quotedNames supported
  | unknownSide name => notValid name "Side"
  | unknownOrder name => notValid name "Order"
  | unknownReply name => notValid name "ReplyOn"
  | notInteger s => "invalid literal for int() with base 10: " ++ s.quoted.take 200
  | notNumber s => "could not convert string to float: " ++ s.quoted
  | tooManyDigits n =>
    "Exceeds the limit (4300 digits) for integer string conversion: value has " ++ Text.ofNat n ++
      " digits; use sys.set_int_max_str_digits() to increase the limit"
  | unwritable =>
    "Exceeds the limit (4300 digits) for integer string conversion; " ++
      "use sys.set_int_max_str_digits() to increase the limit"
  | notANumberToInteger => "cannot convert float NaN to integer"
  | notByte => "bytes must be in range(0, 256)"
  | notAscii => "string argument should contain only ASCII characters"
  | nullInPath => "embedded null byte"
  | kernelNotInSet => "Contract set must include the kernel"
  | notAPair position size =>
    "dictionary update sequence element #" ++ Text.ofNat position ++ " has length " ++
      Text.ofNat size ++ "; 2 is required"
  | noClient chainId => "no client for " ++ chainId
  | json fault => fault.message
  | base64 fault => fault.message
  | utf8 fault => fault.message
  | surrogates start run =>
    match run with
    | [c] =>
      "'utf-8' codec can't encode character '\\u" ++ Text.hexOfWidth 4 c.val ++ "' in position " ++
        Text.ofNat start ++ ": surrogates not allowed"
    | run =>
      "'utf-8' codec can't encode characters in position " ++ Text.ofNat start ++ "-" ++
        Text.ofNat (start + run.length - 1) ++ ": surrogates not allowed"
  | reported message => message

/-! ### Files and requests -/

/-- Why the file system refuses. -/
inductive FileFault
  | notFound (path : Text)
  | isDirectory (path : Text)
  | notDirectory (path : Text)
  | alreadyExists (path : Text)
  | nameTooLong (path : Text)
  | noWasmFile (name directory : Text)
  | missing (message : Text)
  | reported (message : Text)
  deriving DecidableEq, Repr

/-- The wording of a file fault. -/
def FileFault.message : FileFault → Text
  | notFound path => "[Errno 2] No such file or directory: " ++ path.quoted
  | isDirectory path => "[Errno 21] Is a directory: " ++ path.quoted
  | notDirectory path => "[Errno 20] Not a directory: " ++ path.quoted
  | alreadyExists path => "[Errno 17] File exists: " ++ path.quoted
  | nameTooLong path => "[Errno 36] File name too long: " ++ path.quoted
  | noWasmFile name directory => "No wasm file for " ++ name ++ " in " ++ directory
  | missing message => message
  | reported message => message

/-- Why a request over HTTP brings no answer to look at. -/
inductive RequestFault
  | status (code : Int) (reason url : Text)
  | connection (message : Text)
  | timeout (message : Text)
  deriving DecidableEq, Repr

/-- The wording of a request fault: a status is the client's fault below 500. -/
def RequestFault.message : RequestFault → Text
  | status code reason url =>
    Text.ofInt code ++ (if code < 500 then text " Client Error: " else text " Server Error: ") ++
      reason ++ " for url: " ++ url
  | connection message => message
  | timeout message => message

/-! ### The relayer -/

/-- The kinds of the relayer's failures. -/
inductive RelayKind
  | accountSequence
  | heightOrdering
  | other
  deriving DecidableEq, Repr

namespace RelayKind

/-- The text that tells a kind, in a message of the relayer. -/
def mark : RelayKind → Text
  | accountSequence => "incorrect account sequence"
  | heightOrdering => "can't be greater than max height"
  | other => "other"

/-- The kind of a message. -/
def classify (message : Text) : RelayKind :=
  if Text.has accountSequence.mark message then accountSequence
  else if Text.has heightOrdering.mark message then heightOrdering
  else other

/-- Whether a failure of this kind passes by itself. -/
def isTransient : RelayKind → Bool
  | other => false
  | _ => true

end RelayKind

/-- Why the relayer fails: a message, and a kind that need not be the one that the message tells. -/
structure RelayFault where
  kind : RelayKind
  message : Text
  deriving DecidableEq, Repr

/-- A fault of the kind that its message tells. -/
def RelayFault.ofMessage (message : Text) : RelayFault := ⟨.classify message, message⟩

/-! ### Outcomes -/

/-- What differs from what was expected. -/
inductive Mismatch
  | packets (expected got : Int)
  | acks (expected : Int) (got : Nat)
  | errorInAck (payload : Json)
  | resultInAck (payload : Json)
  | balance (chain : Text) (address : Json) (held expected : Text) (denom : Json)
  | recoveryCount (address : Json) (found : Nat)
  | recoveryAmount (found : Text)
  | recoveryDenom (found : Json)
  | recoveriesLeft (address : Json) (left : List Coin)
  | ics20Channel (chain : Text) (found : Json)
  | directChannel (chain : Text) (found : Json)
  | keyAddress (chain name : Text) (registered expected : Json)
  | contractSets (a b : List Text)
  | codeIds (name : Text) (a b : Json)
  | sendWithoutHash
  | recoverWithoutHash

/-- The wording of a mismatch. -/
def Mismatch.message : Mismatch → Text
  | packets expected got =>
    "Expected " ++ Text.ofInt expected ++ " packets, got " ++ Text.ofInt got
  | acks expected got => "Expected " ++ Text.ofInt expected ++ " acks, got " ++ Text.ofNat got
  | errorInAck payload => "Unexpected error in ack: " ++ payload.display
  | resultInAck payload => "Ack result unexpectedly set: " ++ payload.display
  | balance chain address held expected denom =>
    "Balance is incorrect on " ++ chain ++ ": " ++ address.display ++ " holds " ++ held ++
      denom.display ++ ", expected " ++ expected ++ denom.display
  | recoveryCount address found =>
    "Expected 1 recovery for " ++ address.display ++ ", found " ++ Text.ofNat found
  | recoveryAmount found => "Incorrect amount: " ++ found
  | recoveryDenom found => "Incorrect denom: " ++ found.display
  | recoveriesLeft address left =>
    "Recoveries left for " ++ address.display ++ " after recover: " ++ Coin.displayAll left
  | ics20Channel chain found => "ICS-20 channel on " ++ chain ++ " is " ++ found.display
  | directChannel chain found => "Direct channel on " ++ chain ++ " is " ++ found.display
  | keyAddress chain name registered expected =>
    chain ++ ": kernel maps " ++ name ++ " to " ++ registered.display ++ ", expected " ++
      expected.display
  | contractSets a b =>
    "OS contract sets differ: " ++ Json.quotedNames a ++ " vs " ++ Json.quotedNames b
  | codeIds name a b =>
    "Code id for " ++ name ++ " differs: " ++ a.display ++ " vs " ++ b.display
  | sendWithoutHash => "Kernel send returned no transaction hash"
  | recoverWithoutHash => "Recover returned no transaction hash"

/-- Whether the wording of a mismatch can be written: every integer that it shows has few enough
digits.  What an acknowledgement carries was read, so its integers do. -/
def Mismatch.isWritable : Mismatch → Bool
  | packets expected got => decide (Json.Short expected) && decide (Json.Short got)
  | acks expected _ => decide (Json.Short expected)
  | errorInAck _ | resultInAck _ => true
  | balance _ address _ _ denom => address.isWritable && denom.isWritable
  | recoveryCount address _ => address.isWritable
  | recoveryDenom found => found.isWritable
  | recoveriesLeft address left => address.isWritable && left.all fun c => c.denom.isWritable
  | ics20Channel _ found | directChannel _ found => found.isWritable
  | keyAddress _ _ registered expected => registered.isWritable && expected.isWritable
  | codeIds _ a b => a.isWritable && b.isWritable
  | recoveryAmount _ | contractSets .. | sendWithoutHash | recoverWithoutHash => true

/-! ### Failures -/

/-- What two chains failed to open between them. -/
inductive Handshake
  | connection (a b : Text)
  | channel (portA portB : Text)
  deriving DecidableEq, Repr

/-- A failure, by cause.  Those whose wording shows a number are made by the functions of like names
further below, for a failure whose wording cannot be written is not raised. -/
inductive Failure
  /-- A value of the wrong kind was met. -/
  | wrongKind
  /-- Something other than a contract message was to be sent. -/
  | notAMessage (kind : Text)
  /-- A part was taken of a value that has no parts. -/
  | noParts
  /-- A name was looked up that is not there. -/
  | missingKey (key : Json)
  /-- A contract was needed that is not deployed. -/
  | notDeployed (contract chain : Text)
  /-- A value is not one of those allowed. -/
  | value (fault : ValueFault)
  /-- An infinite number was to be an integer. -/
  | infinite
  /-- Two things differ that should agree. -/
  | differs (m : Mismatch)
  /-- An acknowledgement is malformed. -/
  | violation (v : Violation)
  /-- The relayer failed. -/
  | relay (fault : RelayFault)
  /-- A handshake failed on every attempt; the last failure, if there was any attempt. -/
  | gaveUp (h : Handshake) (attempts : Int) (last : Option Text)
  /-- A chain produced no block in time. -/
  | noBlock (rpcUrl : Text) (attempts : Int)
  /-- The relayer was not healthy in time. -/
  | notHealthy (attempts : Int)
  /-- A chain refused a contract operation. -/
  | contract (target : Json) (detail : Text)
  /-- A bootstrap was abandoned. -/
  | bootstrap (chainId : Text) (cause : Failure)
  /-- The file system refused. -/
  | file (fault : FileFault)
  /-- A request over HTTP failed. -/
  | request (fault : RequestFault)
  /-- A text is no account address. -/
  | badAddress
  /-- Something other than a text was to be an account address. -/
  | addressNotText
  /-- Something other than a text was to be read as JSON. -/
  | jsonNotText (kind : Text)
  /-- An account address was to be made of too few or too many bytes. -/
  | badAddressLength
  /-- Too many containers stand inside each other. -/
  | tooDeep (container : Json.Container)
  /-- Something outside broke. -/
  | broken (message : Text)

namespace Failure

/-- The wording of a failure. -/
def message : Failure → Text
  | wrongKind => ""
  | notAMessage kind => "Not a contract message: " ++ kind
  | noParts => ""
  | missingKey key => key.quoted
  | notDeployed name chain =>
    Text.quoted (name ++ " not deployed on " ++ chain)
  | value fault => fault.message
  | infinite => "cannot convert float infinity to integer"
  | differs m => m.message
  | violation v => v.message
  | relay fault => fault.message
  | gaveUp h attempts last =>
    (match h with
      | .connection a b => "Connection " ++ a ++ " <-> " ++ b
      | .channel a b => "Channel " ++ a ++ " <-> " ++ b) ++
      " failed after " ++ Text.ofInt attempts ++ " attempts: " ++ last.getD "None"
  | noBlock url attempts =>
    "Chain at " ++ url ++ " not ready after " ++ Text.ofInt attempts ++ " attempts"
  | notHealthy attempts => "Relayer not ready after " ++ Text.ofInt attempts ++ " attempts"
  | contract target detail => target.display ++ ": " ++ detail
  | bootstrap chainId cause => "Bootstrap failed on " ++ chainId ++ ": " ++ cause.message
  | file fault => fault.message
  | request fault => fault.message
  | badAddress => "Unable to parse address"
  | addressNotText => "Unexpected type of `value` parameter"
  | jsonNotText kind => "the JSON object must be str, bytes or bytearray, not " ++ kind
  | badAddressLength => "Incorrect address length"
  | tooDeep container =>
    "maximum recursion depth exceeded while decoding a JSON " ++ container.name ++
      " from a unicode string"
  | broken message => message

/-! ### Failures that show a number -/

/-- The failure if its wording can be written, and else that this is not so. -/
def ifWritable (can : Bool) (e : Failure) : Failure := if can then e else .value .unwritable

/-- Two things differ that should agree. -/
def mismatch (m : Mismatch) : Failure := ifWritable m.isWritable (.differs m)

/-- A handshake failed on every attempt; the last failure, if there was any attempt. -/
def handshake (h : Handshake) (attempts : Int) (last : Option Text) : Failure :=
  ifWritable (Json.int attempts).isWritable (.gaveUp h attempts last)

/-- A chain produced no block in time. -/
def chainNotReady (rpcUrl : Text) (attempts : Int) : Failure :=
  ifWritable (Json.int attempts).isWritable (.noBlock rpcUrl attempts)

/-- The relayer was not healthy in time. -/
def relayerNotReady (attempts : Int) : Failure :=
  ifWritable (Json.int attempts).isWritable (.notHealthy attempts)

/-- A chain refused a contract operation. -/
def refused (target : Json) (detail : Text) : Failure :=
  ifWritable target.isWritable (.contract target detail)

/-! ### Families -/

/-- The relayer's own failures. -/
def isRelay : Failure → Bool
  | relay _ => true
  | _ => false

/-- The failures that this library defines for its own domain. -/
def isDomain : Failure → Bool
  | violation _ | relay _ | gaveUp .. | noBlock .. | notHealthy _ | contract .. | bootstrap .. =>
    true
  | _ => false

/-- The failures of values that are not allowed. -/
def isValue : Failure → Bool
  | value _ => true
  | _ => false

/-- The failures of looking something up. -/
def isLookup : Failure → Bool
  | missingKey _ | notDeployed .. => true
  | _ => false

/-- The failures of requests. -/
def isRequest : Failure → Bool
  | request _ => true
  | _ => false

/-- The failures of the system: files, processes and requests. -/
def isSystem : Failure → Bool
  | file _ | request _ => true
  | _ => false

/-- The failures to find a file. -/
def isFileMissing : Failure → Bool
  | file (.notFound _) | file (.noWasmFile ..) | file (.missing _) => true
  | _ => false

/-- The failures of taking a value apart: a member missing, or a value without members. -/
def isShape : Failure → Bool
  | missingKey _ | notDeployed .. | wrongKind | notAMessage _ => true
  | _ => false

end Failure

/-! ### Writers that fail -/

/-- The text of a value, as a message shows it. -/
def Json.shown (v : Json) : Except Failure Text :=
  if v.isWritable then .ok v.display else .error (.value .unwritable)

/-! ### Readers that fail -/

/-- Reads a JSON text. -/
def Json.parse (s : Text) : Except Failure Json :=
  (Json.read s).mapError fun
    | .fault f => .value (.json f)
    | .tooLong digits => .value (.tooManyDigits digits)
    | .tooDeep container => .tooDeep container

/-- The value that a text spells. -/
def Json.spelled : Json → Except Failure Json
  | .str s => parse s
  | v => .error (.jsonNotText v.kindName)

/-- The UTF-8 bytes of a text. -/
def Text.toBytes (s : Text) : Except Failure (List UInt8) :=
  (Utf8.encode s).mapError fun run => .value (.surrogates run.1 run.2)

/-- The text of UTF-8 bytes. -/
def Text.ofUtf8 (bytes : List UInt8) : Except Failure Text :=
  (Utf8.decode bytes).mapError fun f => .value (.utf8 f)

/-- Reads an integer numeral. -/
def Text.toInt (s : Text) : Except Failure Int :=
  (Numeral.readInt s).mapError fun
    | .malformed => .value (.notInteger s)
    | .tooLong digits => .value (.tooManyDigits digits)

/-- Reads a decimal numeral. -/
def Text.toFloat (s : Text) : Except Failure Binary64 :=
  match Numeral.readFloat? s with
  | some x => .ok x
  | none => .error (.value (.notNumber s))

/-- The integer that a value stands for: a numeral is read, a number loses its fraction. -/
def Json.toInt : Json → Except Failure Int
  | .bool b => .ok (if b then 1 else 0)
  | .int n => .ok n
  | .float .nan => .error (.value .notANumberToInteger)
  | .float (.infinite _) => .error .infinite
  | .float x => .ok (x.truncate?.getD 0)
  | .str s => s.toInt
  | _ => .error .wrongKind

/-- The member of a value at a name, where a value without members is of the wrong kind. -/
def Json.member (key : Text) : Json → Except Failure Json
  | .obj ms =>
    match Table.get? key ms with
    | some v => .ok v
    | none => .error (.missingKey key)
  | _ => .error .wrongKind

end CrossChain
