import SpokenList.Text.CodeUnit
import SpokenList.Text.Numeral

/-! # Addresses

A request names what it asks for by an address: perhaps a scheme and an
authority, and then a path, a query and a fragment.  Only the path counts
(`path`).  It is read segment by segment (`withoutDots`): a single dot stays
where it is and two dots go one segment up.  Characters may be written by a
percent sign and two hexadecimal digits, which is undone twice.

An address is complete with a scheme and a host.  The path of any other is put
under the root of the service (`rootedPath`), without the slashes it has in
front.  If the address has a scheme or an authority all the same, the dots of
its path are gone by then, so that slashes behind them count as in front.
-/
namespace SpokenList.Service.Address

/-- An ASCII letter. -/
def isLetter (c : Char) : Bool := ('a' ≤ c && c ≤ 'z') || ('A' ≤ c && c ≤ 'Z')

/-- A character that a scheme may have after its first one. -/
def isSchemePart (c : Char) : Bool :=
  isLetter c || Text.isAsciiDigit c || c == '+' || c == '-' || c == '.'

/-- The scheme before a colon, which may be empty, and the text after the colon. -/
def splitScheme (t : Text) : Text × Text :=
  match t.span isSchemePart with
  | ([], ':' :: rest) => ([], rest)
  | (c :: scheme, ':' :: rest) => if isLetter c then (c :: scheme, rest) else ([], t)
  | _ => ([], t)

/-- The authority after two slashes, and the text from the next slash on. -/
def splitAuthority (t : Text) : Text × Text :=
  match t with
  | '/' :: '/' :: rest => rest.span (· != '/')
  | _ => ([], t)

/-- Whether an authority has a host: behind its last at sign, and in front of a
colon. -/
def hasHost (authority : Text) : Bool :=
  match (authority.reverse.takeWhile (· != '@')).reverse with
  | [] => false
  | c :: _ => c != ':'

/-- Whether an authority has neither a user nor a host nor a port. -/
def isBare (authority : Text) : Bool :=
  [[], [':'], ['@'], ['@', ':']].contains authority

/-- Puts a segment behind others, which come in reverse. -/
def addSegment (before : List Text) (segment : Text) : List Text :=
  if segment = ['.'] then before
  else if segment = ['.', '.'] then (if before = [[]] then before else before.drop 1)
  else segment :: before

/-- The path without dots for segments. -/
def withoutDots (path : Text) : Text :=
  Text.join ['/'] ((path.splitOnP (· == '/')).foldl addSegment []).reverse

/-- A path under the root, however many slashes it has in front. -/
def rootedPath (path : Text) : Text := '/' :: path.dropWhile (· == '/')

/-- The path of an address, under the root unless the address is complete. -/
def writtenPath (address : Text) : Text :=
  let (scheme, rest) := splitScheme (address.takeWhile fun c => c != '?' && c != '#')
  let (authority, path) := splitAuthority rest
  if !scheme.isEmpty && hasHost authority then path
  else if scheme.isEmpty && isBare authority then rootedPath path
  else rootedPath (withoutDots path)

/-- The character that two hexadecimal digits stand for after a percent sign.  One
beyond ASCII would take several of them, and no path here has one. -/
def percentChar? (high low : Char) : Option Char := do
  let high ← Text.hexDigit? high
  let low ← Text.hexDigit? low
  return if high < 8 then Char.ofNat (high * 16 + low) else Text.replacement

/-- Undoes percent signs. -/
def unescape : Text → Text
  | '%' :: high :: low :: rest =>
    match percentChar? high low with
    | some c => c :: unescape rest
    | none => '%' :: unescape (high :: low :: rest)
  | c :: rest => c :: unescape rest
  | [] => []

/-- The path that an address names. -/
def path (address : Text) : Text := unescape (unescape (withoutDots (writtenPath address)))

end SpokenList.Service.Address
