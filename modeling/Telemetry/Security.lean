import Telemetry.Signature
import Telemetry.Network
import Telemetry.Cipher.Blocks

/-!
# Protection of requests

A server may require that payloads are signed, that they are encrypted, and that
they come from a trusted network.  Each protection is off when it is not
configured.
-/

namespace Telemetry

/-- The protections of a server. -/
structure Security where
  signer : Option SigningKey
  opener : Option BlockOpener
  subnet : Option Subnet

/-- Why the protections cannot be set up. -/
inductive SecurityError where
  | privateKey (path : String)
  | subnet (text : String)
  deriving DecidableEq, Repr

def SecurityError.message : SecurityError → String
  | .privateKey path => s!"load private key {path}"
  | .subnet text => s!"trusted subnet {Text.quote text} is not a CIDR"

/-- The trusted network that is configured, blanks around it aside. -/
def trustedSubnet (text : Option String) :
    Except SecurityError (Option Subnet) :=
  match text with
  | none => .ok none
  | some text =>
    match Subnet.ofText? (Text.trim text) with
    | some net => .ok (some net)
    | none => .error (.subnet text)

namespace Security

/-- No protection. -/
def none : Security := ⟨.none, .none, .none⟩

/-- The private key of a file that was read, if it could be. -/
def openerOf (path : String) (pem : Option Bytes) :
    Except SecurityError BlockOpener :=
  match pem.map Rsa.PrivateKey.ofPem with
  | some (.ok key) => .ok key.opener
  | _ => .error (.privateKey path)

/-- The protections by their settings: the secret for signatures, the path and
the contents of the file with the private key, and the trusted network. -/
def ofSettings (secret : Option String)
    (privateKey : Option (String × Option Bytes)) (subnet : Option String) :
    Except SecurityError Security := do
  let opener ← match privateKey with
    | some (path, pem) => some <$> openerOf path pem
    | .none => pure .none
  let net ← trustedSubnet subnet
  return ⟨secret.bind fun s => SigningKey.ofBytes? (Utf8.encode s), opener, net⟩

/-- Whether a request from an address is let through; the address
is given as text. -/
def isTrusted (s : Security) (ip : Option String) : Bool :=
  match s.subnet with
  | .none => true
  | some net =>
    match ip.bind fun text => Address.ofText? (Text.trim text) with
    | some address => net.contains address
    | .none => false

/-- The complaint about an address that is not trusted. -/
def untrusted (ip : Option String) : String :=
  let shown := ip.getD "-"
  s!"address {shown} is not trusted"

end Security

end Telemetry
