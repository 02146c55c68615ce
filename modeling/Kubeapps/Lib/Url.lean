/-
  `net/url`, as a parameter.

  `NetUrl` is a URL parser and printer. `Parse` accepts relative references, `ParseRequestURI`
  only an absolute URL or a rooted path. Nothing is assumed of them here.

  `NetUrl.plain` is one for URLs that are a scheme, a host and a path: no user, query, fragment
  or escape. It agrees with `net/url` on these.
-/
import Kubeapps.Lib.Text

namespace Kubeapps.Lib

/-- A URL library. `withPath` is the assignment `u.Path = …`. -/
structure NetUrl where
  Url : Type
  parse : String → Except String Url
  parseRequestURI : String → Except String Url
  string : Url → String
  scheme : Url → String
  host : Url → String
  path : Url → String
  withPath : Url → String → Url

/-- A URL without user, query or fragment. -/
structure PlainUrl where
  scheme : String
  host : String
  path : String
  deriving DecidableEq, Repr

namespace PlainUrl

/-- Split at the first `://`. -/
def splitScheme : List Char → List Char → Option (List Char × List Char)
  | _, [] => none
  | acc, ':' :: '/' :: '/' :: rest => some (acc.reverse, rest)
  | acc, c :: rest => splitScheme (c :: acc) rest

def absolute (s : String) : Option PlainUrl :=
  match splitScheme [] s.toList with
  | some (scheme, rest) =>
      if scheme ≠ [] ∧ scheme.all Char.isAlphanum then
        some ⟨String.ofList scheme, String.ofList (rest.takeWhile (· ≠ '/')),
          String.ofList (rest.dropWhile (· ≠ '/'))⟩
      else none
  | none => none

def parseRequestURI (s : String) : Except String PlainUrl :=
  match absolute s with
  | some u => .ok u
  | none =>
      match s.toList with
      | '/' :: _ => .ok ⟨"", "", s⟩
      | _ => .error "invalid URI for request"

def parse (s : String) : Except String PlainUrl :=
  match absolute s with
  | some u => .ok u
  | none => .ok ⟨"", "", s⟩

/-- The printed form. A path after a host gets its slash back. -/
def string (u : PlainUrl) : String :=
  let path :=
    match u.path.toList with
    | [] => ""
    | '/' :: _ => u.path
    | _ => if u.host = "" then u.path else "/" ++ u.path
  if u.scheme = "" then u.host ++ path else u.scheme ++ "://" ++ u.host ++ path

end PlainUrl

def NetUrl.plain : NetUrl where
  Url := PlainUrl
  parse := PlainUrl.parse
  parseRequestURI := PlainUrl.parseRequestURI
  string := PlainUrl.string
  scheme := PlainUrl.scheme
  host := PlainUrl.host
  path := PlainUrl.path
  withPath u p := { u with path := p }

end Kubeapps.Lib
