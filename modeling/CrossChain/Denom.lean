import CrossChain.Binary.Sha256
import CrossChain.Failure

/-!
# Denominations of moved tokens

A token that crossed channels is known by the path it took: `port/channel` for each hop, the last
hop first, and then its own name.  On the receiving chain its denomination is `ibc/` and the SHA-256
of that path in upper-case hexadecimal.
-/

namespace CrossChain

namespace Denom

/-- The path of a token that took the given hops, the last hop first. -/
def trace (hops : List Text) (base : Text) : Text :=
  Text.join "/" (hops.map (Text.strip (· == 47)) ++ [base])

/-- The denomination of the token with the given path. -/
def ofTrace (trace : Text) : Except Failure Text := do
  let bytes ← trace.toBytes
  return "ibc/" ++ (Text.ofBytes (Sha256.digest bytes)).map CodePoint.toAsciiUpper

/-- The denomination of a token after one hop. -/
def afterHop (port channel base : Text) : Except Failure Text :=
  ofTrace (port ++ "/" ++ channel ++ "/" ++ base)

end Denom

end CrossChain
