import HintServer.Uri.Host

/-! The authority of an address: who asks, the host and the port.
The port is dropped when it is the default one of the scheme.
-/

namespace HintServer.Uri.Authority

def defaultPort? (scheme : List Char) : Option Nat :=
  match String.ofList scheme with
  | "http" => some 80
  | "ws" => some 80
  | "https" => some 443
  | "wss" => some 443
  | "ftp" => some 21
  | _ => none

/-- User name and password before the host: the password follows the first colon, and an
empty part leaves no trace.
-/
def renderUserinfo (userinfo : List Char) : List Char :=
  let (name, password) := Text.cutFirst (· == ':') userinfo
  let name := Percent.encode Percent.inUserinfo name
  let password := Percent.encode Percent.inUserinfo (password.getD [])
  let password := if password.isEmpty then [] else ':' :: password
  if name.isEmpty ∧ password.isEmpty then [] else name ++ password ++ ['@']

/-- The host and the port of an authority; a colon inside brackets belongs to the host. -/
def splitPort (chars : List Char) : List Char × Option (List Char) :=
  if chars.head? = some '[' then
    let (inner, rest) := Text.cutFirst (· == ']') chars
    match rest with
    | none => (inner, none)
    | some rest =>
        let (tail, port) := Text.cutFirst (· == ':') rest
        (inner ++ ']' :: tail, port)
  else Text.cutFirst (· == ':') chars

/-- The port as it is written after the host: nothing for no port or the default one. -/
def renderPort? (scheme : List Char) : Option (List Char) → Option (List Char)
  | none => some []
  | some [] => some []
  | some digits =>
      match Host.number? 10 digits with
      | none => none
      | some port =>
          if 65535 < port then none
          else if defaultPort? scheme = some port then some []
          else some (':' :: (toString port).toList)

/-- The normal form of an authority. A special scheme needs a host; another scheme needs one
when a user or a port is given.
-/
def normalize? (special : Bool) (scheme chars : List Char) : Option (List Char) :=
  let (userinfo, server) := Text.cutLast (· == '@') chars
  let (host, port) := splitPort server
  if host.isEmpty ∧ (special ∨ userinfo.isSome ∨ port.isSome) then none
  else do
    let host ← if special then Host.special? host else Host.plain? host
    let port ← renderPort? scheme port
    some (renderUserinfo (userinfo.getD []) ++ host ++ port)

end HintServer.Uri.Authority
