import Correlator.Text.Utf8
import Correlator.Url.Basic
import Correlator.Url.Folding
import Correlator.Url.Percent

/-!
# Reading hosts

* `Host.readIpv4`: up to four numbers, decimal, octal or hexadecimal, of which the last fills
  what is left of the address.
* `Host.readIpv6`: eight pieces, of which a run of zeros may be left out and the last two may be
  written as an IPv4 address.
* `Host.read`: the host of a URL with a special scheme: a name is decoded and resolved, and is an
  address if its last label is a number.
* `Host.readOpaque`: the host of any other URL, which is kept as it is written.
-/

namespace Correlator.Host

open Text

/-! ## IPv4 -/

/-- The number that digits stand for in a base, if all of them are digits of it. -/
def number? (base : Nat) (cs : List Char) : Option Nat :=
  cs.foldl (fun n? c =>
    match n?, Octets.hexValue? c with
    | some n, some d => if d < base then some (base * n + d) else none
    | _, _ => none) (some 0)

/-- A part of an IPv4 address: decimal, octal after a zero, or hexadecimal after `0x`. -/
def ipv4Part? (cs : List Char) : Option Nat :=
  match cs with
  | [] => none
  | '0' :: 'x' :: rest => number? 16 rest
  | '0' :: 'X' :: rest => number? 16 rest
  | '0' :: c :: rest => number? 8 (c :: rest)
  | cs => number? 10 cs

/-- Whether the last label of a name, be it followed by a dot or not, is a number. -/
def endsInNumber (cs : List Char) : Bool :=
  let labels := (splitAt '.' cs).reverse
  let last? := match labels with
    | [] :: rest => rest.head?
    | labels => labels.head?
  match last? with
  | none => false
  | some last => (!last.isEmpty && last.all Char.isDigit) || (ipv4Part? last).isSome

/-- The address of numbers, of which all but the last fill one byte each. -/
def ipv4Address (numbers : List Nat) : Except UrlError Nat :=
  match numbers.reverse with
  | [] => .error .invalidIpv4
  | last :: before =>
    if Nat.pow 256 (4 - before.length) ≤ last ∨ before.any (255 < ·) then .error .invalidIpv4
    else
      .ok (last + (before.reverse.zipIdx.map fun (n, i) => n * Nat.pow 256 (3 - i)).foldl (· + ·) 0)

/-- An IPv4 address. -/
def readIpv4 (cs : List Char) : Except UrlError Nat :=
  let labels := splitAt '.' cs
  let labels := if labels.getLast? = some [] then labels.dropLast else labels
  if 4 < labels.length then .error .invalidIpv4
  else
    match labels.mapM ipv4Part? with
    | some numbers => ipv4Address numbers
    | none => .error .invalidIpv4

/-! ## IPv6 -/

/-- Up to four hexadecimal digits. -/
def readPiece (value : Nat) : Nat → List Char → Nat × List Char
  | 0, cs => (value, cs)
  | _ + 1, [] => (value, [])
  | n + 1, c :: cs =>
    match Octets.hexValue? c with
    | some d => readPiece (16 * value + d) n cs
    | none => (value, c :: cs)

/-- Up to `n` more bytes of an IPv4 address in plain decimal notation, the dots before them
included. -/
def readDecimalBytes (bytes : List Nat) : Nat → List Char → Option (List Nat)
  | n, [] => if n = 0 then some bytes.reverse else none
  | 0, _ => none
  | n + 1, cs =>
    let cs? := if bytes.isEmpty then some cs else dropLead? ['.'] cs
    match cs? with
    | none => none
    | some cs =>
      let ds := cs.takeWhile Char.isDigit
      let value := ds.foldl (fun n c => 10 * n + (c.toNat - 48)) 0
      if ds.isEmpty ∨ 255 < value ∨ (ds.head? = some '0' ∧ 1 < ds.length) then none
      else readDecimalBytes (value :: bytes) n (cs.dropWhile Char.isDigit)

/-- The pieces of an address after `done`, last piece first, and the place of the run that was
left out. -/
def readPieces (read : List Nat) (gap? : Option Nat) :
    Nat → List Char → Option (List Nat × Option Nat)
  | 0, _ => none
  | _ + 1, [] => some (read, gap?)
  | fuel + 1, c :: cs =>
    if read.length = 8 then none
    else if c = ':' then
      if gap?.isSome then none else readPieces read (some read.length) fuel cs
    else
      let (value, rest) := readPiece 0 4 (c :: cs)
      match rest with
      | '.' :: _ =>
        if rest.length = cs.length + 1 ∨ 6 < read.length then none
        else
          match readDecimalBytes [] 4 (c :: cs) with
          | some [a, b, c, d] => some ((256 * c + d) :: (256 * a + b) :: read, gap?)
          | _ => none
      | ':' :: rest =>
        if rest.isEmpty then none else readPieces (value :: read) gap? fuel rest
      | [] => readPieces (value :: read) gap? fuel []
      | _ => none

/-- An IPv6 address, without its brackets. -/
def readIpv6 (cs : List Char) : Except UrlError (List Nat) :=
  let start : Option (Option Nat × List Char) := match cs with
    | ':' :: ':' :: rest => some (some 0, rest)
    | ':' :: _ => none
    | cs => some (none, cs)
  match start with
  | none => .error .invalidIpv6
  | some (gap?, rest) =>
    match readPieces [] gap? (rest.length + 1) rest with
    | none => .error .invalidIpv6
    | some (read, gap?) =>
      let pieces := read.reverse
      match gap? with
      | none => if pieces.length = 8 then .ok pieces else .error .invalidIpv6
      | some place =>
        if pieces.length = 8 then .error .invalidIpv6
        else
          .ok (pieces.take place ++ List.replicate (8 - pieces.length) 0 ++ pieces.drop place)

/-! ## Names -/

/-- A character that no name may hold. -/
def isForbidden (c : Char) : Bool :=
  c.toNat ≤ 0x20 || 0x7E < c.toNat ||
    c ∈ ['%', '#', '/', ':', '<', '>', '?', '@', '[', '\\', ']', '^', '|']

/-- A character that the host of a URL with any other scheme may not hold. -/
def isForbiddenOpaque (c : Char) : Bool :=
  c ∈ ['\x00', '\t', '\n', '\r', ' ', '#', '/', ':', '<', '>', '?', '@', '[', '\\', ']', '^', '|']

/-- An address in brackets, if the text begins with one. -/
def bracketed? (cs : List Char) : Option (Except UrlError Host) :=
  match cs with
  | '[' :: rest =>
    match rest.reverse with
    | ']' :: inner => some ((readIpv6 inner.reverse).map .ipv6)
    | _ => some (.error .invalidIpv6)
  | _ => none

/-- The host of a URL with a special scheme. -/
def read (cs : List Char) : Except UrlError Host :=
  match bracketed? cs with
  | some result => result
  | none =>
    match Utf8.text? (Percent.decode cs) with
    | none => .error .invalidDomain
    | some decoded =>
      match Folding.resolve? decoded.toList with
      | none => .error .invalidDomain
      | some domain =>
        if domain.any isForbidden then .error .invalidDomain
        else if domain.isEmpty then .error .emptyHost
        else if endsInNumber domain then (readIpv4 domain).map .ipv4
        else .ok (.name domain)

/-- The host of a URL with any other scheme. -/
def readOpaque (cs : List Char) : Except UrlError Host :=
  match bracketed? cs with
  | some result => result
  | none =>
    if cs.any isForbiddenOpaque then .error .forbiddenDomainCharacter
    else .ok (.name (Percent.encode Percent.control cs))

end Correlator.Host
