import LocalNet.Http.Url

/-!
References to addresses, as they are seen from another address. A reference is read leniently:
blanks around it and line breaks in it mean nothing, and what may not stand in an address as it is,
is written there with percent signs.
-/

namespace LocalNet.Http.Reference

/-- Blanks and control characters around a reference mean nothing, line breaks and tabs nowhere. -/
def cleaned (text : String) : List Char :=
  let isOuter : Char → Bool := fun char => char.toNat ≤ 0x20
  let inner := ((text.toList.dropWhile isOuter).reverse.dropWhile isOuter).reverse
  inner.filter fun char => char ≠ '\t' && char ≠ '\n' && char ≠ '\r'

def isSchemeChar (char : Char) : Bool :=
  char.isAlphanum || char = '+' || char = '-' || char = '.'

def splitScheme (chars : List Char) : Option (String × List Char) :=
  let name := chars.takeWhile isSchemeChar
  match chars.drop name.length with
  | ':' :: rest =>
    if (name.head?.map Char.isAlpha).getD false then
      some (String.ofList (name.map Char.toLower), rest)
    else none
  | _ => none

/-- Some take backward slashes for slashes. -/
def isSlash (char : Char) : Bool :=
  char = '/' || char = '\\'

def separates (scheme : String) (char : Char) : Bool :=
  char = '/' || (isPlaced scheme && char = '\\')

def endsPath (char : Char) : Bool :=
  char = '?' || char = '#'

/-! ### Paths -/

/-- A name of a path that means its own directory, or the one above. -/
def dots (name : List Char) : Option Nat :=
  match (String.ofList (name.map Char.toLower)).replace "%2e" "." with
  | "." => some 1
  | ".." => some 2
  | _ => none

/-- Names like those of drives are never left. -/
def isDrive (name : List Char) : Bool :=
  match name with
  | [letter, mark] => letter.isAlpha && (mark = ':' || mark = '|')
  | _ => false

def above (names : List (List Char)) : List (List Char) :=
  if (names.getLast?.map isDrive).getD false then names else names.dropLast

def enter (names : List (List Char)) (name : List Char) : List (List Char) :=
  match dots name with
  | some 1 => names
  | some _ => above names
  | none => names ++ [name]

/-- Walks a path, from where it starts. A path that ends in dots means a directory. -/
def walk (start : List (List Char)) (names : List (List Char)) : List (List Char) :=
  let last := names.getLast?.getD []
  let reached := names.foldl enter start
  if (dots last).isSome then reached ++ [[]] else reached

def pathOf (scheme : String) (start : List String) (chars : List Char) : UrlPath :=
  let names := chars.splitOnP (separates scheme)
  let reached := walk (start.map String.toList) (names.map fun name =>
    (Percent.encode Percent.path name).toList)
  .segments (reached.map String.ofList)

/-! ### Queries and fragments -/

def encodeQuery (scheme : String) (chars : List Char) : String :=
  Percent.encode (fun char => Percent.query char || (isPlaced scheme && char.toNat = 0x27)) chars

def withTail (url : Url) (chars : List Char) : Url :=
  let query := chars.takeWhile (· ≠ '#')
  let fragment := chars.drop query.length
  { url with
    query := query.head?.map fun _ => encodeQuery url.scheme (query.drop 1)
    fragment := fragment.head?.map fun _ => Percent.encode Percent.fragment (fragment.drop 1) }

def withPath (url : Url) (start : List String) (chars : List Char) : Url :=
  let path := chars.takeWhile (!endsPath ·)
  withTail { url with path := pathOf url.scheme start path } (chars.drop path.length)

/-! ### Authorities -/

def encodeUserinfo (name password : List Char) : Option String :=
  let encode := Percent.encode Percent.userinfo
  if name.isEmpty && password.isEmpty then none
  else if password.isEmpty then some (encode name)
  else some (encode name ++ ":" ++ encode password)

def splitUserinfo (chars : List Char) : Option (List Char) × List Char :=
  let host := (chars.reverse.takeWhile (· ≠ '@')).reverse
  if host.length = chars.length then (none, chars)
  else (some (chars.take (chars.length - host.length - 1)), host)

/-- The part of a place before its port: a colon in brackets does not end it. -/
def hostPart : (inBrackets : Bool) → List Char → List Char
  | _, [] => []
  | inBrackets, char :: rest =>
    if char = ':' && !inBrackets then []
    else char :: hostPart (char = '[' || (inBrackets && char ≠ ']')) rest

def port? (scheme : String) (digits : List Char) : Option (Option Nat) :=
  if digits.isEmpty then some none
  else
    match Ipv4.numeral? 10 digits with
    | none => none
    | some port =>
      if 65535 < port then none
      else some (if usualPort? scheme = some port then none else some port)

def host? (scheme : String) (chars : List Char) : Option Host :=
  if isPlaced scheme then (if chars.isEmpty then none else Host.ofText? chars)
  else Host.ofFreeText? chars

/-- Only where hosts are free may there be none, and then nothing else either. -/
def authority? (scheme : String) (chars : List Char) : Option Authority :=
  let (user, place) := splitUserinfo chars
  let user := user.getD []
  let name := user.takeWhile (· ≠ ':')
  let userinfo := encodeUserinfo name (user.drop (name.length + 1))
  let hostText := hostPart false place
  let port := place.drop hostText.length
  match host? scheme hostText, port? scheme (port.drop 1) with
  | some host, some number =>
    if hostText.isEmpty && !(userinfo.isNone && port.isEmpty) then none
    else some { userinfo := userinfo, host := host, port := number }
  | _, _ => none

def ofAuthority? (scheme : String) (chars : List Char) : Option Url :=
  let place := chars.takeWhile fun char => !separates scheme char && !endsPath char
  let rest := chars.drop place.length
  (authority? scheme place).map fun authority =>
    let url : Url := { scheme := scheme, authority := some authority, path := .segments [] }
    match rest with
    | [] => if isPlaced scheme then { url with path := .segments [""] } else url
    | first :: after =>
      if separates scheme first then withPath url [] after
      else if isPlaced scheme then withPath url [] rest
      else withTail url rest

/-! ### Files -/

/-- Whether the walk of a path enters a drive at its root; a drive has no host. -/
def entersDrive (names : List (List Char)) : Bool :=
  (List.range names.length).any fun count =>
    (names.take count).foldl enter [] = [] && isDrive (names.getD count [])

/-- Files of a host. There are none to ask for where a host is not said, or is this one. -/
def ofFile? (chars : List Char) : Option Url :=
  match chars with
  | first :: second :: rest =>
    let hostText := rest.takeWhile fun char => !isSlash char && !endsPath char
    let after := rest.drop hostText.length
    let path := (after.takeWhile (!endsPath ·)).drop 1
    if !isSlash first || !isSlash second || hostText.isEmpty || isDrive hostText
        || entersDrive (path.splitOnP isSlash) then none
    else
      match Host.ofText? hostText with
      | none => none
      | some (.name "localhost") => none
      | some host =>
        let url : Url :=
          { scheme := "file", authority := some { host := host }, path := .segments [] }
        let found := withPath url [] (if (after.head?.map isSlash).getD false then after.drop 1
          else after)
        match found.path with
        | .segments names =>
          let kept := names.dropWhile (· = "")
          some { found with path := .segments (if kept.isEmpty then [""] else kept) }
        | .whole _ => none
  | _ => none

/-! ### Joining -/

/-- An address of a scheme that is not known: with a place, with a path, or with neither. -/
def ofOther? (scheme : String) (chars : List Char) : Option Url :=
  let url : Url := { scheme := scheme, authority := none, path := .segments [] }
  match chars with
  | '/' :: '/' :: rest => ofAuthority? scheme rest
  | '/' :: rest => some (withPath url [] rest)
  | _ =>
    let path := chars.takeWhile (!endsPath ·)
    some (withTail { url with path := .whole (Percent.encode Percent.controls path) }
      (chars.drop path.length))

/-- A reference without a scheme: what it does not say is taken from where it is seen. -/
def relative? (base : Url) (chars : List Char) : Option Url :=
  match base.path, chars with
  | .whole _, '#' :: _ =>
    some { base with fragment := (withTail base chars).fragment }
  | .whole _, _ => none
  | .segments _, [] => some { base with fragment := none }
  | .segments names, first :: rest =>
    if first = '#' then some { base with fragment := (withTail base chars).fragment }
    else if first = '?' then some (withTail base chars)
    else if isSlash first then
      let slashes := chars.takeWhile isSlash
      if slashes.length < 2 then some (withPath base [] rest)
      else if "//".toList.isPrefixOf chars then ofAuthority? base.scheme (chars.drop 2)
      else ofAuthority? base.scheme (chars.drop slashes.length)
    else some (withPath base names.dropLast chars)

/-- The address that stands behind a scheme, however many slashes are in front of its place. -/
def absolute? (scheme : String) (chars : List Char) : Option Url :=
  if scheme = "file" then ofFile? chars
  else if isPlaced scheme then ofAuthority? scheme (chars.dropWhile isSlash)
  else ofOther? scheme chars

def read? (text : String) : Option Url :=
  (splitScheme (cleaned text)).bind fun (scheme, rest) => absolute? scheme rest

/-- Whether no more than a scheme is said twice, with no place behind it. -/
def repeatsScheme (base : Url) (scheme : String) (chars : List Char) : Bool :=
  scheme = base.scheme && (usualPort? scheme).isSome && (chars.takeWhile isSlash).length < 2

def resolve? (base : Url) (text : String) : Option Url :=
  match splitScheme (cleaned text) with
  | none => relative? base (cleaned text)
  | some (scheme, rest) =>
    if repeatsScheme base scheme rest then relative? base rest else absolute? scheme rest

def follow? (base : Url) (text : String) : Option Url :=
  ((resolve? base text).filter Url.isRequestable).map Url.requested

end LocalNet.Http.Reference
