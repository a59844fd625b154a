import CrossChain.Http
import CrossChain.Text.Wide

/-!
# Scripted replies

A reply of a rehearsal has a status and a body of bytes.  A body that should be JSON starts with two
ASCII characters, so where the zeros stand among its first four bytes tells a wide encoding.  A body
without such zeros, or one that cannot be read as they tell, is taken for UTF-8.
-/

namespace CrossChain

variable [Json.Limits]

/-- A reply to a request. -/
structure ScriptedReply where
  status : Int := 200
  reason : Text := "OK"
  body : List UInt8 := []
  deriving DecidableEq, Repr

namespace ScriptedReply

/-- The wide encoding that the first bytes of a body tell. -/
def wideEncoding? : List UInt8 → Option WideEncoding
  | a :: b :: c :: d :: _ =>
    match a == 0, b == 0, c == 0, d == 0 with
    | true, false, true, false => some (.utf16 .highFirst)
    | false, true, false, true => some (.utf16 .lowFirst)
    | true, true, true, false => some (.utf32 .highFirst)
    | false, true, true, true => some (.utf32 .lowFirst)
    | _, _, _, _ => none
  | _ => none

/-- The text of the body. -/
def text (r : ScriptedReply) : Except Failure Text :=
  match (wideEncoding? r.body).bind (·.decode? r.body) with
  | some s => .ok s
  | none => Text.ofUtf8 (Utf8.withoutMark r.body)

/-- The reply as the answer to a request for a URL. -/
def answer (r : ScriptedReply) (url : Text) : HttpAnswer where
  checked :=
    if 400 ≤ r.status ∧ r.status < 600 then .error (.request (.status r.status r.reason url))
    else .ok ()
  json := r.text >>= Json.parse

end ScriptedReply

end CrossChain
