import NullReturns.Endpoint.Host

/-! # URLs

Web addresses are taken apart and can be written again in their one normal form. Of other URLs only the
scheme is kept, once the rest has been found in order.
-/

namespace NullReturns.Endpoint

/-- User name and password, encoded. -/
structure Credentials where
  user : List Char
  password : Option (List Char)
deriving DecidableEq, Repr

/-- A URL of the web. All parts are encoded; the path starts with a slash. -/
structure WebUrl where
  scheme : List Char
  credentials : Option Credentials
  host : List Char
  /-- Absent when it is the one that goes with the scheme. -/
  port : Option Nat
  path : List Char
  query : Option (List Char)
  fragment : Option (List Char)
deriving DecidableEq, Repr

inductive Url where
  | web (url : WebUrl)
  | other (scheme : List Char)
deriving DecidableEq, Repr

def WebUrl.toText (url : WebUrl) : List Char :=
  let credentials := url.credentials.elim [] fun credentials =>
    credentials.user ++ credentials.password.elim [] (':' :: ·) ++ ['@']
  url.scheme ++ "://".toList ++ credentials ++ url.host ++
    url.port.elim [] (fun port => ':' :: Nat.toDigits 10 port) ++ url.path ++
    url.query.elim [] ('?' :: ·) ++ url.fragment.elim [] ('#' :: ·)

namespace Url

/-- Schemes with a host, and the ports that go with them. -/
def specialPorts : List (String × Nat) :=
  [("http", 80), ("https", 443), ("ws", 80), ("wss", 443), ("ftp", 21)]

/-- Drops blanks and control characters around a text, and tabs and line breaks anywhere. -/
def trimmed (text : List Char) : List Char :=
  let isOuter (c : Char) : Bool := c.val ≤ 0x20
  let inner := ((text.dropWhile isOuter).reverse.dropWhile isOuter).reverse
  inner.filter fun c => c != '\t' && c != '\n' && c != '\r'

def isSchemeChar (c : Char) : Bool := c.isAlphanum || c = '+' || c = '-' || c = '.'

/-- The scheme in lower case and what follows its colon. -/
def scheme? (text : List Char) : Option (List Char × List Char) :=
  match text.head?, text.dropWhile isSchemeChar with
  | some first, ':' :: rest =>
    if first.isAlpha then some ((text.takeWhile isSchemeChar).map Char.toLower, rest) else none
  | _, _ => none

/-- A character that ends the part of a URL that names the host. -/
def endsAuthority (isSpecial : Bool) (c : Char) : Bool :=
  c = '/' || c = '?' || c = '#' || (isSpecial && c = '\\')

/-- The texts before and after the last `@`. -/
def cutCredentials? (authority : List Char) : Option (List Char × List Char) :=
  if authority.contains '@' then
    let host := (authority.reverse.takeWhile (· != '@')).reverse
    some (authority.take (authority.length - host.length - 1), host)
  else none

/-- Credentials that are not empty; an empty password counts as none. -/
def credentials? (text : List Char) : Option Credentials :=
  let user := percentEncode userReserved (text.takeWhile (· != ':'))
  let password := percentEncode userReserved ((text.dropWhile (· != ':')).drop 1)
  if password.isEmpty then (if user.isEmpty then none else some ⟨user, none⟩)
  else some ⟨user, some password⟩

/-- The host, up to a colon that is not in brackets, and the rest. -/
def cutHost (isBracketed : Bool) : List Char → List Char × List Char
  | [] => ([], [])
  | c :: rest =>
    if c = ':' && !isBracketed then ([], c :: rest)
    else
      let (host, after) := cutHost (c = '[' || (isBracketed && c != ']')) rest
      (c :: host, after)

/-- A port behind a colon, up to a backslash; none if nothing stands there. -/
def port? : List Char → Except UrlError (Option Nat)
  | ':' :: text =>
    let digits := text.takeWhile (· != '\\')
    if digits.isEmpty then .ok none
    else
      match if digits.all Char.isDigit then Host.number? 10 digits else none with
      | some port => if port ≤ 65535 then .ok (some port) else .error .badPort
      | none => .error .badPort
  | _ => .ok none

/-- What names the host: credentials, host and port. -/
structure Authority where
  credentials : Option Credentials
  host : List Char
  port : Option Nat
deriving DecidableEq, Repr

/-- Reads an authority. `parseHost` judges a host that is not empty; `rest` is what follows. -/
def authority (mayBeEmpty : Bool) (parseHost : List Char → Except UrlError (List Char))
    (text rest : List Char) : Except UrlError Authority := do
  let cut := cutCredentials? text
  if let some ([], []) := cut then
    if !rest.isEmpty then throw .emptyHost
  let credentials := cut.bind fun (before, _) => credentials? before
  let (host, behind) := cutHost false (cut.elim text (·.2))
  if host.isEmpty then
    if !mayBeEmpty || !behind.isEmpty || credentials.isSome then throw .emptyHost
    return ⟨none, [], none⟩
  return ⟨credentials, ← parseHost host, ← port? behind⟩

/-! ## Paths -/

/-- A path element with its dots decoded. -/
def undotted : List Char → List Char
  | '%' :: '2' :: 'e' :: rest => '.' :: undotted rest
  | '%' :: '2' :: 'E' :: rest => '.' :: undotted rest
  | c :: rest => c :: undotted rest
  | [] => []

/-- A letter with a colon or bar. Such an element is never taken back. -/
def isDrive : List Char → Bool
  | [letter, mark] => letter.isAlpha && (mark = ':' || mark = '|')
  | _ => false

/-- Takes back the last of the elements so far. -/
def goUp (elements : List (List Char)) : List (List Char) :=
  if elements.getLast?.any isDrive then elements else elements.dropLast

/-- Resolves elements that say to stay or to go up. `before` are the elements so far. -/
def resolve (before : List (List Char)) : List (List Char) → List (List Char)
  | [] => before
  | [last] =>
    match undotted last with
    | ['.'] => before ++ [[]]
    | ['.', '.'] => goUp before ++ [[]]
    | _ => before ++ [last]
  | element :: rest =>
    match undotted element with
    | ['.'] => resolve before rest
    | ['.', '.'] => resolve (goUp before) rest
    | _ => resolve (before ++ [element]) rest

/-- The normal form of a path; the slash in front may be missing. -/
def normalPath (text : List Char) : List Char :=
  let slashed := text.map fun c => if c = '\\' then '/' else c
  let inner := if slashed.head? = some '/' then slashed.tail else slashed
  let elements := (Text.split '/' inner).map (percentEncode pathReserved)
  (resolve [] elements).flatMap ('/' :: ·)

/-! ## Reading -/

/-- Path, query and fragment. -/
def tail (text : List Char) : List Char × Option (List Char) × Option (List Char) :=
  let head := text.takeWhile (· != '#')
  let fragment :=
    if text.contains '#' then some (percentEncode fragmentReserved (text.drop (head.length + 1)))
    else none
  let path := head.takeWhile (· != '?')
  let query :=
    if head.contains '?' then some (percentEncode queryReserved (head.drop (path.length + 1)))
    else none
  (normalPath path, query, fragment)

/-- The text of an authority and what follows. -/
def cutAuthority (isSpecial : Bool) (text : List Char) : List Char × List Char :=
  (text.takeWhile (!endsAuthority isSpecial ·), text.dropWhile (!endsAuthority isSpecial ·))

def isSlash (c : Char) : Bool := c = '/' || c = '\\'

/-- A URL of a scheme with a host; any number of slashes may stand in front. -/
def ofSpecial (scheme : List Char) (port : Nat) (text : List Char) : Except UrlError Url := do
  let (before, after) := cutAuthority true (text.dropWhile isSlash)
  let authority ← authority false Host.parse before after
  if scheme = "http".toList ∨ scheme = "https".toList then
    let (path, query, fragment) := tail after
    let { credentials, host, port := given } := authority
    return .web
      { scheme, credentials, host, port := given.filter (· != port), path, query, fragment }
  return .other scheme

/-- A file's URL has a host behind two slashes, unless that is a drive. -/
def ofFile (scheme : List Char) (text : List Char) : Except UrlError Url := do
  if (text.take 2).all isSlash && 2 ≤ text.length then
    let host := (cutAuthority true (text.drop 2)).1
    if !host.isEmpty && !isDrive host then
      let _ ← Host.parse host
  return .other scheme

/-- A URL of a scheme without rules of its own has a host behind two slashes. -/
def ofOther (scheme : List Char) (text : List Char) : Except UrlError Url := do
  if let '/' :: '/' :: rest := text then
    let (before, after) := cutAuthority false rest
    let _ ← authority true (fun host => (Host.checkOpaque host).map fun _ => host) before after
  return .other scheme

def parse (text : String) : Except UrlError Url :=
  match scheme? (trimmed text.toList) with
  | none => .error .noScheme
  | some (scheme, rest) =>
    if scheme = "file".toList then ofFile scheme rest
    else
      match specialPorts.lookup (String.ofList scheme) with
      | some port => ofSpecial scheme port rest
      | none => ofOther scheme rest

end Url

/-! ## Collector endpoints

A collector takes traces under a path of its own. The address given for a collector may be its base, or
the path for another signal.
-/

inductive EndpointError where
  | unparsable (text : String) (error : UrlError)
  | unsupportedScheme (scheme : String)
deriving DecidableEq, Repr

def EndpointError.message : EndpointError → String
  | .unparsable text error => "parse OTLP endpoint " ++ text ++ ": " ++ error.message
  | .unsupportedScheme scheme => "unsupported OTLP endpoint scheme: " ++ scheme

def tracesPath : List Char := "/v1/traces".toList

/-- The paths of the other signals. -/
def siblingPaths : List (List Char) := ["/v1/logs".toList, "/v1/metrics".toList]

/-- The text without an ending that it has. -/
def withoutEnding? (ending text : List Char) : Option (List Char) :=
  if ending.isSuffixOf text then some (text.take (text.length - ending.length)) else none

/-- The path for traces beside a path; any other path is left alone. -/
def tracesBeside (path : List Char) : List Char :=
  let bare := (path.reverse.dropWhile (· == '/')).reverse
  match siblingPaths.findSome? fun sibling => withoutEnding? sibling bare with
  | some base => base ++ tracesPath
  | none => if bare.isEmpty then tracesPath else path

/-- The URL to which traces are sent. -/
def traces (endpoint : String) : Except EndpointError String :=
  match Url.parse endpoint with
  | .error error => .error (.unparsable endpoint error)
  | .ok (.other scheme) => .error (.unsupportedScheme (String.ofList scheme))
  | .ok (.web url) => .ok (String.ofList { url with path := tracesBeside url.path }.toText)

end NullReturns.Endpoint
