/-
  `net/url` and what goes with it in `path` and `strings`, on bytes, as in Go 1.16.

  `parse` is the common part of `Parse` and `ParseRequestURI`; the second one (`viaRequest`) takes
  only what has a scheme or begins with a slash, has no authority without a scheme, and does not
  look for a fragment. `resolveReference` is RFC 3986, with the query of the base for an empty
  reference. Errors carry no text.

  `path` is decoded. `rawPath` is how it was written, if that is not what `escape` writes;
  `escapedPath` takes it as long as it still says the same path.
-/
import Kubeapps.Lib.Percent

namespace Kubeapps.Lib.Net

/-! ## `strings` -/

/-- Cut at the first `c`. -/
def cut (c : UInt8) : Bytes → Option (Bytes × Bytes)
  | [] => none
  | b :: bs => if b = c then some ([], bs) else (cut c bs).map fun (x, y) => (b :: x, y)

/-- Cut at the last `c`. -/
def cutLast (c : UInt8) (bs : Bytes) : Option (Bytes × Bytes) :=
  (cut c bs.reverse).map fun (x, y) => (y.reverse, x.reverse)

/-- The characters that `unicode.IsSpace` takes, in UTF-8. -/
def spaces : List Bytes :=
  ([0x09, 0x0a, 0x0b, 0x0c, 0x0d, 0x20, 0x85, 0xa0, 0x1680, 0x2000, 0x2001, 0x2002, 0x2003, 0x2004,
    0x2005, 0x2006, 0x2007, 0x2008, 0x2009, 0x200a, 0x2028, 0x2029, 0x202f, 0x205f, 0x3000].map
      Char.ofNat).map String.utf8EncodeChar

/-- Drop the marks that come first, at most `n` of them. -/
def trimMarks (marks : List Bytes) : Nat → Bytes → Bytes
  | 0, bs => bs
  | n + 1, bs =>
      match marks.find? fun mark => mark.isPrefixOf bs with
      | some mark => trimMarks marks n (bs.drop mark.length)
      | none => bs

/-- `strings.TrimSpace`. -/
def trimSpace (bs : Bytes) : Bytes :=
  let front := trimMarks spaces bs.length bs
  (trimMarks (spaces.map List.reverse) front.length front.reverse).reverse

/-- `strings.TrimSuffix` for a slash. -/
def trimSlash (bs : Bytes) : Bytes :=
  if bs.getLast? = some (ascii '/') then bs.dropLast else bs

/-! ## `path` -/

/-- The elements that `path.Clean` keeps, last one first. -/
def cleanElems (rooted : Bool) : List Bytes → List Bytes → List Bytes
  | kept, [] => kept
  | kept, e :: es =>
      if e = [] ∨ e = [ascii '.'] then cleanElems rooted kept es
      else if e = [ascii '.', ascii '.'] then
        match kept with
        | [] => cleanElems rooted (if rooted then [] else [e]) es
        | k :: ks =>
            if k = [ascii '.', ascii '.'] then cleanElems rooted (e :: k :: ks) es
            else cleanElems rooted ks es
      else cleanElems rooted (e :: kept) es

/-- Elements with slashes between them. -/
def joinSlash (es : List Bytes) : Bytes := [ascii '/'].intercalate es

/-- `path.Clean`. -/
def pathClean (p : Bytes) : Bytes :=
  let rooted : Bool := p.head? = some (ascii '/')
  let out := joinSlash (cleanElems rooted [] (p.splitOn (ascii '/'))).reverse
  if rooted then ascii '/' :: out
  else if out = [] then [ascii '.'] else out

/-- `path.Join` of two elements. -/
def pathJoin (x y : Bytes) : Bytes :=
  match [x, y].dropWhile (· = []) with
  | [] => []
  | es => pathClean (joinSlash es)

/-! ## URLs -/

structure Userinfo where
  username : Bytes
  password : Option Bytes
  deriving DecidableEq, Repr

/-- `url.URL`. `opaquePart` is `Opaque`. -/
structure Url where
  scheme : Bytes
  opaquePart : Bytes
  user : Option Userinfo
  host : Bytes
  path : Bytes
  rawPath : Bytes
  forceQuery : Bool
  rawQuery : Bytes
  fragment : Bytes
  rawFragment : Bytes
  deriving DecidableEq, Repr

def isAlpha (c : UInt8) : Bool :=
  (ascii 'a' ≤ c && c ≤ ascii 'z') || (ascii 'A' ≤ c && c ≤ ascii 'Z')

def isDigit (c : UInt8) : Bool := ascii '0' ≤ c && c ≤ ascii '9'

/-- A byte that may stand in a scheme. -/
def schemeByte (c : UInt8) : Bool :=
  isAlpha c || isDigit c || c == ascii '+' || c == ascii '-' || c == ascii '.'

def toLower (c : UInt8) : UInt8 :=
  if ascii 'A' ≤ c && c ≤ ascii 'Z' then c + 32 else c

/-- `getScheme`: the scheme, if there is one, and the rest. -/
def getScheme (raw : Bytes) : Option (Bytes × Bytes) :=
  let scheme := raw.takeWhile schemeByte
  match raw.dropWhile schemeByte with
  | [] => some ([], raw)
  | c :: rest =>
      if c = ascii ':' then
        match scheme with
        | [] => none
        | b :: _ => if isAlpha b then some (scheme, rest) else some ([], raw)
      else some ([], raw)

/-- A control character: `stringContainsCTLByte`. -/
def isCTL (c : UInt8) : Bool := c < 0x20 || c == 0x7f

/-- The query of what comes after the scheme: the rest, `ForceQuery` and `RawQuery`. -/
def splitQuery (rest : Bytes) : Bytes × Bool × Bytes :=
  match cut (ascii '?') rest with
  | none => (rest, false, [])
  | some (rest, []) => (rest, true, [])
  | some (rest, query) => (rest, false, query)

/-- `validOptionalPort`. -/
def validOptionalPort : Bytes → Bool
  | [] => true
  | c :: port => c == ascii ':' && port.all isDigit

/-- Cut in front of the first `%25`. -/
def cutZone : Bytes → Option (Bytes × Bytes)
  | [] => none
  | c :: rest =>
      if [ascii '%', ascii '2', ascii '5'].isPrefixOf (c :: rest) then some ([], c :: rest)
      else (cutZone rest).map fun (x, y) => (c :: x, y)

/-- `parseHost`. -/
def parseHost (host : Bytes) : Option Bytes :=
  if host.head? = some (ascii '[') then
    match cutLast (ascii ']') host with
    | none => none
    | some (literal, colonPort) =>
        if validOptionalPort colonPort then
          match cutZone literal with
          | some (literal, zone) => do
              let host1 ← unescape .host literal
              let host2 ← unescape .zone zone
              let host3 ← unescape .host (ascii ']' :: colonPort)
              return host1 ++ host2 ++ host3
          | none => unescape .host host
        else none
  else
    match cutLast (ascii ':') host with
    | some (_, port) => if port.all isDigit then unescape .host host else none
    | none => unescape .host host

/-- `validUserinfo`. -/
def validUserinfo (s : Bytes) : Bool :=
  s.all fun c => isAlnum c ||
    c ∈ ['-', '.', '_', ':', '~', '!', '$', '&', '\'', '(', ')', '*', '+', ',', ';', '=', '%',
      '@'].map ascii

def parseUserinfo (userinfo : Bytes) : Option Userinfo :=
  if validUserinfo userinfo then
    match cut (ascii ':') userinfo with
    | none => (unescape .userPassword userinfo).map fun username => ⟨username, none⟩
    | some (username, password) => do
        let username ← unescape .userPassword username
        let password ← unescape .userPassword password
        return ⟨username, some password⟩
  else none

/-- `parseAuthority`. The host is parsed first, which no result shows. -/
def parseAuthority (authority : Bytes) : Option (Option Userinfo × Bytes) :=
  match cutLast (ascii '@') authority with
  | none => (parseHost authority).map fun host => (none, host)
  | some (userinfo, host) => do
      let host ← parseHost host
      let user ← parseUserinfo userinfo
      return (some user, host)

/-- `setPath`, `setFragment`: the decoded part, and how it is written if that is unusual. -/
def setEncoded (mode : Mode) (p : Bytes) : Option (Bytes × Bytes) :=
  (unescape mode p).map fun decoded => (decoded, if escape mode decoded = p then [] else p)

/-- Whether the first segment of a path has a colon. -/
def colonFirst (rest : Bytes) : Bool :=
  ascii ':' ∈ rest.takeWhile (· ≠ ascii '/')

/-- Whether what comes after the scheme begins with an authority. -/
def hasAuthority (viaRequest : Bool) (scheme rest : Bytes) : Bool :=
  [ascii '/', ascii '/'].isPrefixOf rest &&
    (scheme != [] || (!viaRequest && !([ascii '/', ascii '/', ascii '/'].isPrefixOf rest)))

/-- The user, the host and the path as it is written. -/
def splitAuthority (viaRequest : Bool) (scheme rest : Bytes) :
    Option ((Option Userinfo × Bytes) × Bytes) :=
  if hasAuthority viaRequest scheme rest then
    let authority := (rest.drop 2).takeWhile (· ≠ ascii '/')
    (parseAuthority authority).map fun a => (a, (rest.drop 2).dropWhile (· ≠ ascii '/'))
  else some ((none, []), rest)

/-- The URL of a scheme, a query and nothing else. -/
def Url.ofScheme (scheme : Bytes) (forceQuery : Bool) (rawQuery : Bytes) : Url :=
  ⟨scheme, [], none, [], [], [], forceQuery, rawQuery, [], []⟩

/-- `parse` after the scheme and the query. -/
def parseRest (viaRequest : Bool) (u : Url) (rest : Bytes) : Option Url :=
  if rest.head? ≠ some (ascii '/') ∧ u.scheme ≠ [] then some { u with opaquePart := rest }
  else if rest.head? ≠ some (ascii '/') ∧ (viaRequest = true ∨ colonFirst rest = true) then none
  else do
    let ((user, host), path) ← splitAuthority viaRequest u.scheme rest
    let (path, rawPath) ← setEncoded .path path
    return { u with user := user, host := host, path := path, rawPath := rawPath }

/-- `parse`. -/
def parse (viaRequest : Bool) (raw : Bytes) : Option Url :=
  if raw.any isCTL then none
  else if raw = [] ∧ viaRequest = true then none
  else if raw = [ascii '*'] then some { Url.ofScheme [] false [] with path := [ascii '*'] }
  else do
    let (scheme, rest) ← getScheme raw
    let (rest, forceQuery, rawQuery) := splitQuery rest
    parseRest viaRequest (.ofScheme (scheme.map toLower) forceQuery rawQuery) rest

/-- `ParseRequestURI`. -/
def parseRequestURI (raw : Bytes) : Option Url := parse true raw

/-- `Parse`. -/
def parseURL (raw : Bytes) : Option Url :=
  match cut (ascii '#') raw with
  | none => parse false raw
  | some (raw, []) => parse false raw
  | some (raw, fragment) => do
      let u ← parse false raw
      let (fragment, rawFragment) ← setEncoded .fragment fragment
      return { u with fragment := fragment, rawFragment := rawFragment }

/-- `validEncoded`. -/
def validEncoded (mode : Mode) (s : Bytes) : Bool :=
  s.all fun c => c ∈ ['!', '$', '&', '\'', '(', ')', '*', '+', ',', ';', '=', ':', '@', '[', ']',
    '%'].map ascii || !shouldEscape c mode

/-- `EscapedPath`, `EscapedFragment`: as it was written, if that is valid and says the same. -/
def escaped (mode : Mode) (decoded raw : Bytes) : Bytes :=
  if raw ≠ [] ∧ validEncoded mode raw = true ∧ unescape mode raw = some decoded then raw
  else escape mode decoded

/-- `EscapedPath`. -/
def Url.escapedPath (u : Url) : Bytes :=
  if u.path = [ascii '*'] then
    if u.rawPath ≠ [] ∧ validEncoded .path u.rawPath = true ∧
        unescape .path u.rawPath = some u.path then u.rawPath
    else [ascii '*']
  else escaped .path u.path u.rawPath

/-- `Userinfo.String`. -/
def Userinfo.string (user : Userinfo) : Bytes :=
  match user.password with
  | none => escape .userPassword user.username
  | some password =>
      escape .userPassword user.username ++ ascii ':' :: escape .userPassword password

/-- The user and the host. -/
def Url.authority (u : Url) : Bytes :=
  (match u.user with
    | none => []
    | some user => user.string ++ [ascii '@']) ++ escape .host u.host

/-- The scheme, the authority and the path. -/
def Url.hierarchy (u : Url) : Bytes :=
  let scheme := if u.scheme ≠ [] then u.scheme ++ [ascii ':'] else []
  if u.opaquePart ≠ [] then scheme ++ u.opaquePart
  else
    let authority :=
      if u.scheme ≠ [] ∨ u.host ≠ [] ∨ u.user ≠ none then
        (if u.host ≠ [] ∨ u.path ≠ [] ∨ u.user ≠ none then [ascii '/', ascii '/'] else []) ++
          u.authority
      else []
    let path := u.escapedPath
    let slash :=
      if path ≠ [] ∧ path.head? ≠ some (ascii '/') ∧ u.host ≠ [] then [ascii '/'] else []
    let front := scheme ++ authority ++ slash
    let dot := if front = [] ∧ colonFirst path = true then [ascii '.', ascii '/'] else []
    front ++ dot ++ path

/-- The query as it is printed. -/
def Url.query (u : Url) : Bytes :=
  if u.forceQuery = true ∨ u.rawQuery ≠ [] then ascii '?' :: u.rawQuery else []

/-- `String`. -/
def Url.string (u : Url) : Bytes :=
  u.hierarchy ++ u.query ++
    if u.fragment ≠ [] then ascii '#' :: escaped .fragment u.fragment u.rawFragment else []

/-! ## References -/

/-- One element of `resolvePath`: what is built, and whether an element comes first. -/
def resolveElem (st : Bytes × Bool) (elem : Bytes) : Bytes × Bool :=
  let (dst, first) := st
  if elem = [ascii '.'] then (dst, false)
  else if elem = [ascii '.', ascii '.'] then
    match cutLast (ascii '/') dst with
    | none => ([], true)
    | some (dst, _) => (dst, first)
  else if first then (dst ++ elem, false)
  else (dst ++ ascii '/' :: elem, false)

/-- `resolvePath`. -/
def resolvePath (base ref : Bytes) : Bytes :=
  let full :=
    if ref = [] then base
    else if ref.head? = some (ascii '/') then ref
    else
      match cutLast (ascii '/') base with
      | some (dir, _) => dir ++ ascii '/' :: ref
      | none => ref
  if full = [] then []
  else
    let elems := full.splitOn (ascii '/')
    let (dst, _) := elems.foldl resolveElem ([], true)
    let last := elems.getLast?
    let dst :=
      if last = some [ascii '.'] ∨ last = some [ascii '.', ascii '.'] then dst ++ [ascii '/'] else dst
    match dst with
    | [] => [ascii '/']
    | c :: rest => if c = ascii '/' then ascii '/' :: rest else ascii '/' :: c :: rest

/-- `setPath` where the error is ignored. -/
def Url.setPath (u : Url) (p : Bytes) : Url :=
  match setEncoded .path p with
  | some (path, rawPath) => { u with path := path, rawPath := rawPath }
  | none => u

/-- `ResolveReference`. -/
def Url.resolveReference (u ref : Url) : Url :=
  let url := { ref with scheme := if ref.scheme = [] then u.scheme else ref.scheme }
  if ref.scheme ≠ [] ∨ ref.host ≠ [] ∨ ref.user ≠ none then
    url.setPath (resolvePath ref.escapedPath [])
  else if ref.opaquePart ≠ [] then { url with user := none, host := [], path := [] }
  else
    let url :=
      if ref.path = [] ∧ ref.rawQuery = [] then
        let url := { url with rawQuery := u.rawQuery }
        if ref.fragment = [] then
          { url with fragment := u.fragment, rawFragment := u.rawFragment }
        else url
      else url
    { url with host := u.host, user := u.user }.setPath
      (resolvePath u.escapedPath ref.escapedPath)

end Kubeapps.Lib.Net
