import CrossChain.Binary.Bech32
import CrossChain.Failure

/-!
# Account addresses of rehearsals

Rehearsals write account addresses in Bech32, and take only these for addresses.
-/

namespace CrossChain

namespace Bech32

/-- The account address that a value is. -/
def read : Json → Except Failure Text
  | .str s => if isAddress s then .ok s else .error .badAddress
  | _ => .error .addressNotText

/-- The account address of bytes under a prefix. -/
def write (addressPrefix : Text) (bytes : List UInt8) : Except Failure Text :=
  match encode? addressPrefix bytes with
  | some address => .ok address
  | none => .error .badAddressLength

end Bech32

end CrossChain
