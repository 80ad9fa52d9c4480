import Privana.HexText

/-! Redirect URIs: `normalize_redirect_uri` over the parts of `urlsplit`. Lower-casing and
the checks of the authority that rest on Unicode tables are fields of `UrlLibrary`. -/

namespace Privana

structure UrlLibrary where
  lower : Text → Text
  /-- The bracket and NFKC checks of `urlsplit`. -/
  validNetloc : Text → Bool

/-- `str.partition`: the text before the first `c`, and after it when there is one. -/
def partition (c : Char) (s : Text) : Text × Option Text :=
  match s.dropWhile (· ≠ c) with
  | [] => (s, none)
  | _ :: rest => (s.takeWhile (· ≠ c), some rest)

/-- `str.rpartition`: the text before the last `c` when there is one, and after it. -/
def rpartition (c : Char) (s : Text) : Option Text × Text :=
  match partition c s.reverse with
  | (tail, none) => (none, tail.reverse)
  | (tail, some front) => (some front.reverse, tail.reverse)

structure SplitResult where
  scheme : Text
  netloc : Text
  path : Text
  query : Text
  fragment : Text
  deriving DecidableEq

def isSchemeChar (c : Char) : Bool := c.isAlphanum || c = '+' || c = '-' || c = '.'

/-- Control characters and spaces in front, and line breaks and tabs anywhere. -/
def stripUnsafe (url : Text) : Text :=
  (url.dropWhile fun c => c.toNat ≤ 32).filter fun c => c ≠ '\t' && c ≠ '\r' && c ≠ '\n'

def splitScheme (url : Text) : Text × Text :=
  match partition ':' url with
  | (scheme, some rest) =>
    if (scheme.head?.any Char.isAlpha) && scheme.all isSchemeChar then
      (scheme.map Char.toLower, rest)
    else ([], url)
  | _ => ([], url)

def splitNetloc : Text → Text × Text
  | '/' :: '/' :: rest =>
    rest.span fun c => c ≠ '/' && c ≠ '?' && c ≠ '#'
  | url => ([], url)

def urlsplit (lib : UrlLibrary) (url : Text) : Option SplitResult :=
  let (scheme, rest) := splitScheme (stripUnsafe url)
  let (netloc, rest) := splitNetloc rest
  let (rest, fragment) := partition '#' rest
  let (path, query) := partition '?' rest
  if lib.validNetloc netloc then
    some ⟨scheme, netloc, path, query.getD [], fragment.getD []⟩
  else none

namespace SplitResult

variable (lib : UrlLibrary) (r : SplitResult)

/-- The host and the port as they are written; an empty port is none. -/
def hostinfo : Text × Option Text :=
  let hostinfo := (rpartition '@' r.netloc).2
  let (hostname, port) := match partition '[' hostinfo with
    | (_, some bracketed) =>
      let (hostname, rest) := partition ']' bracketed
      (hostname, (partition ':' (rest.getD [])).2)
    | (_, none) => partition ':' hostinfo
  (hostname, port.filter (· ≠ []))

/-- The zone of an address keeps its case. -/
def hostname : Option Text :=
  match r.hostinfo.1 with
  | [] => none
  | host =>
    let (name, zone) := partition '%' host
    some (lib.lower name ++ (zone.map ('%' :: ·)).getD [])

def username : Option Text :=
  (rpartition '@' r.netloc).1.map fun userinfo => (partition ':' userinfo).1

def password : Option Text :=
  (rpartition '@' r.netloc).1.bind fun userinfo => (partition ':' userinfo).2

/-- `none` for the `ValueError`, `some none` without a port. -/
def port : Option (Option ℕ) :=
  match r.hostinfo.2 with
  | none => some none
  | some digits =>
    if digits.all Char.isDigit then
      let port := digits.foldl (fun n c => 10 * n + (c.toNat - '0'.toNat)) 0
      if port ≤ 65535 then some (some port) else none
    else none

end SplitResult

def isLoopbackHost (host : Text) : Bool :=
  host = text "localhost" || host = text "127.0.0.1" || host = text "::1"

def defaultPort (scheme : Text) : Option ℕ :=
  if scheme = text "http" then some 80 else if scheme = text "https" then some 443 else none

def canonicalNetloc (lib : UrlLibrary) (scheme host : Text) (port : Option ℕ) : Text :=
  let host := lib.lower host
  let host := if ':' ∈ host ∧ host.head? ≠ some '[' then '[' :: host ++ [']'] else host
  match port with
  | none => host
  | some n => if some n = defaultPort scheme then host else host ++ ':' :: (Nat.repr n).toList

/-- Neither missing nor empty. -/
def isPresent (part : Option Text) : Bool := part.any (· ≠ [])

/-- `none` for the `ValueError`. -/
def normalizeRedirectUri (lib : UrlLibrary) (redirectUri : Text) : Option Text := do
  let parsed ← urlsplit lib redirectUri
  let hostname ← parsed.hostname lib
  if parsed.scheme ≠ text "http" ∧ parsed.scheme ≠ text "https" then none
  else if isPresent parsed.username || isPresent parsed.password || parsed.fragment ≠ [] then none
  else if parsed.scheme = text "http" ∧ !isLoopbackHost (lib.lower hostname) then none
  else do
    let port ← parsed.port
    let netloc := canonicalNetloc lib parsed.scheme hostname port
    let path := if parsed.path = [] then ['/'] else parsed.path
    let query := if parsed.query = [] then [] else '?' :: parsed.query
    some (parsed.scheme ++ text "://" ++ netloc ++ path ++ query)

/-- The origin of a URI that is already normalised. -/
def redirectOrigin (lib : UrlLibrary) (redirectUri : Text) : Option Text := do
  let normalized ← normalizeRedirectUri lib redirectUri
  let parsed ← urlsplit lib normalized
  some (parsed.scheme ++ text "://" ++ parsed.netloc)

end Privana
