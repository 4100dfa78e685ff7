import Correlator.Url.Percent

/-!
# URLs

* `Url`: a URL by its parts, each in the form in which it is written.
* `Host`: a name, or the number of an IPv4 or IPv6 address.
* `Url.text`: the written form.
* `Url.portOrDefault?`: the port, be it written or the usual one of the scheme.
* `UrlError`: the reasons for which a text is no URL.
-/

namespace Correlator

/-- The reasons for which a text is no URL. -/
inductive UrlError
  | noScheme
  | emptyHost
  | invalidPort
  | invalidIpv4
  | invalidIpv6
  | invalidDomain
  | forbiddenDomainCharacter
  deriving DecidableEq, Repr

/-- The text of the reason. -/
def UrlError.message : UrlError → String
  | .noScheme => "relative URL without a base"
  | .emptyHost => "empty host"
  | .invalidPort => "invalid port number"
  | .invalidIpv4 => "invalid IPv4 address"
  | .invalidIpv6 => "invalid IPv6 address"
  | .invalidDomain => "invalid international domain name"
  | .forbiddenDomainCharacter => "invalid domain character"

/-- Where a URL points to. -/
inductive Host
  | name (cs : List Char)
  | ipv4 (address : Nat)
  /-- The eight pieces of sixteen bits, first piece first. -/
  | ipv6 (pieces : List Nat)
  deriving DecidableEq, Repr

namespace Host

/-- No host at all, as in `file:///x`. -/
def isEmpty : Host → Bool
  | .name [] => true
  | _ => false

/-- Four decimal numbers. -/
def ipv4Text (n : Nat) : List Char :=
  List.intercalate ['.']
    ([n / Nat.pow 2 24 % 256, n / Nat.pow 2 16 % 256, n / Nat.pow 2 8 % 256, n % 256].map
      (Nat.toDigits 10))

/-- The number of zeros that a list begins with. -/
def zeroRun (ps : List Nat) : Nat := (ps.takeWhile (· == 0)).length

/-- The place and length of the longest run of two or more zeros, the first of equally long. -/
def longestZeros (place : Nat) (best : Nat × Nat) : List Nat → Nat × Nat
  | [] => best
  | p :: ps =>
    let run := zeroRun (p :: ps)
    longestZeros (place + 1) (if best.2 < run then (place, run) else best) ps

/-- Pieces in hexadecimal digits, with a colon between them. -/
def hexPieces (ps : List Nat) : List Char := List.intercalate [':'] (ps.map (Nat.toDigits 16))

/-- Eight pieces, the longest run of zeros left out. -/
def ipv6Text (ps : List Nat) : List Char :=
  let (place, run) := longestZeros 0 (0, 1) ps
  if run < 2 then hexPieces ps
  else hexPieces (ps.take place) ++ ':' :: ':' :: hexPieces (ps.drop (place + run))

/-- The written form of a host. -/
def text : Host → List Char
  | .name cs => cs
  | .ipv4 n => ipv4Text n
  | .ipv6 ps => '[' :: (ipv6Text ps ++ [']'])

end Host

/-- The path of a URL: steps from the root, or a text of its own as in `mailto:x`. -/
inductive UrlPath
  | steps (segments : List (List Char))
  | opaqueText (cs : List Char)
  deriving DecidableEq, Repr

namespace UrlPath

/-- The written form of a path: each step after a slash. -/
def text : UrlPath → List Char
  | .steps segments => segments.flatMap ('/' :: ·)
  | .opaqueText cs => cs

end UrlPath

/-- A URL by its parts. -/
structure Url where
  scheme : List Char
  username : List Char
  password : List Char
  /-- The host, if there is an authority. -/
  host? : Option Host
  /-- The port, if it is written. -/
  port? : Option Nat
  path : UrlPath
  query? : Option (List Char)
  fragment? : Option (List Char)
  deriving DecidableEq, Repr

namespace Url

/-- The usual port of a scheme. -/
def defaultPort? (scheme : List Char) : Option Nat :=
  if scheme = ['h', 't', 't', 'p'] ∨ scheme = ['w', 's'] then some 80
  else if scheme = ['h', 't', 't', 'p', 's'] ∨ scheme = ['w', 's', 's'] then some 443
  else if scheme = ['f', 't', 'p'] then some 21
  else none

/-- The schemes of local files. -/
def isFile (scheme : List Char) : Bool := scheme = ['f', 'i', 'l', 'e']

/-- The schemes whose URLs always have a host, and in which a backslash is a slash. -/
def isSpecial (scheme : List Char) : Bool := isFile scheme || (defaultPort? scheme).isSome

/-- User name and password before the host. -/
def credentials (u : Url) : List Char :=
  if u.username.isEmpty && u.password.isEmpty then []
  else if u.password.isEmpty then u.username ++ ['@']
  else u.username ++ ':' :: u.password ++ ['@']

/-- What stands between the scheme and the path. Where there is no authority, a path that begins
with two slashes is set off from it by a dot. -/
def authority (u : Url) : List Char :=
  match u.host? with
  | some h =>
    ['/', '/'] ++ u.credentials ++ h.text ++
      match u.port? with
      | some port => ':' :: Nat.toDigits 10 port
      | none => []
  | none =>
    match u.path with
    | .steps ([] :: _ :: _) => ['/', '.']
    | _ => []

/-- The written form of a URL. -/
def chars (u : Url) : List Char :=
  u.scheme ++ ':' :: u.authority ++ u.path.text ++
    (match u.query? with
      | some q => '?' :: q
      | none => []) ++
    (match u.fragment? with
      | some f => '#' :: f
      | none => [])

/-- The written form of a URL. -/
def text (u : Url) : String := String.ofList u.chars

/-- The scheme. -/
def schemeText (u : Url) : String := String.ofList u.scheme

/-- The host, empty if there is none. -/
def hostText (u : Url) : String :=
  match u.host? with
  | some h => String.ofList h.text
  | none => ""

/-- The path. -/
def pathText (u : Url) : String := String.ofList u.path.text

/-- The port that is written, or else the usual one of the scheme. -/
def portOrDefault? (u : Url) : Option Nat :=
  match u.port? with
  | some port => some port
  | none => defaultPort? u.scheme

end Url

end Correlator
