import CrossChain.Failure

/-!
# Answers over HTTP

What a client library makes of the answer to a request: whether the status tells of a fault, and
what the body is as JSON.  How it finds out is a matter of the library.
-/

namespace CrossChain

/-- What comes of checking the status of an answer, and of reading its body as JSON. -/
structure HttpAnswer where
  checked : Except Failure Unit
  json : Except Failure Json

/-- The JSON of an answer whose status passes the check. -/
def HttpAnswer.read (a : HttpAnswer) : Except Failure Json := do
  a.checked
  a.json

end CrossChain
