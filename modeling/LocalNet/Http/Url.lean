import LocalNet.Http.Host

/-!
Addresses of what can be asked for, as they are written and as a request may name them.
-/

namespace LocalNet.Http

structure Authority where
  /-- In the form in which it is written, without the sign behind it. -/
  userinfo : Option String := none
  host : Host
  /-- Absent where the usual one is meant. -/
  port : Option Nat := none
  deriving DecidableEq, Repr

inductive UrlPath where
  /-- A slash stands before each of them. -/
  | segments (names : List String)
  /-- A text that no reference can be seen from. -/
  | whole (text : String)
  deriving DecidableEq, Repr

structure Url where
  scheme : String
  authority : Option Authority
  path : UrlPath
  query : Option String := none
  /-- What is meant for the reader of an answer only. -/
  fragment : Option String := none
  deriving DecidableEq, Repr

def usualPort? (scheme : String) : Option Nat :=
  if scheme = "http" || scheme = "ws" then some 80
  else if scheme = "https" || scheme = "wss" then some 443
  else if scheme = "ftp" then some 21
  else none

def isPlaced (scheme : String) : Bool :=
  (usualPort? scheme).isSome || scheme = "file"

def Authority.text (authority : Authority) : String :=
  (authority.userinfo.map (· ++ "@")).getD "" ++ authority.host.text ++
    (authority.port.map fun port => ":" ++ toString port).getD ""

def UrlPath.text : UrlPath → String
  | .segments names => String.join (names.map ("/" ++ ·))
  | .whole text => text

namespace Url

def target (url : Url) : String :=
  url.path.text ++ (url.query.map ("?" ++ ·)).getD ""

/-- A path that starts with two slashes is kept apart from an authority. -/
def text (url : Url) : String :=
  let place :=
    match url.authority with
    | some authority => "//" ++ authority.text
    | none => if "//".toList.isPrefixOf url.path.text.toList then "/." else ""
  url.scheme ++ ":" ++ place ++ url.target ++ (url.fragment.map ("#" ++ ·)).getD ""

def port? (url : Url) : Option Nat :=
  (url.authority.bind Authority.port).or (usualPort? url.scheme)

structure AuthorityCheck where
  /-- The colons since the userinfo, or since a bracket was closed. -/
  colons : Nat := 0
  isOpen : Bool := false
  isClosed : Bool := false
  /-- Whether a percent sign stands in what may not have one. -/
  isEscaped : Bool := false
  /-- Whether only the userinfo has been read. -/
  isBare : Bool := true

def AuthorityCheck.next? (check : AuthorityCheck) (char : Char) : Option AuthorityCheck :=
  let read := { check with isBare := false }
  if char = ':' then
    if check.colons < 8 then some { read with colons := check.colons + 1 } else none
  else if char = '[' then
    if check.isEscaped || check.isOpen then none else some { read with isOpen := true }
  else if char = ']' then
    if check.isOpen && !check.isClosed then
      some { read with isClosed := true, colons := 0, isEscaped := false }
    else none
  else if char = '@' then some { check with isBare := true, colons := 0, isEscaped := false }
  else if char = '%' then some { read with isEscaped := true }
  else if char.isAlphanum || Percent.oneOf "!$&'()*+,-.;=_~" char then some read
  else none

def isAuthority (text : String) : Bool :=
  match text.toList.foldlM AuthorityCheck.next? {} with
  | none => false
  | some check =>
    check.isOpen = check.isClosed && check.colons ≤ 1 && !check.isBare && !check.isEscaped

def schemeLimit : Nat := 64

def lengthLimit : Nat := 65534

/-- Whether a request can name an address: a place in a scheme, or what looks like a place alone. -/
def isRequestable (url : Url) : Bool :=
  url.text.utf8ByteSize ≤ lengthLimit &&
    match url.authority with
    | some authority => url.scheme.length ≤ schemeLimit && isAuthority authority.text
    | none => isAuthority url.text

/-- An address as a request names it: without a fragment, and with a path. -/
def requested (url : Url) : Url :=
  let path :=
    if url.authority.isSome && url.path = .segments [] then .segments [""] else url.path
  { url with path := path, fragment := none }

end Url

end LocalNet.Http
