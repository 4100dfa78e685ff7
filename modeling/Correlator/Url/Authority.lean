/-!
# Authorities

The host and port that a request names as its goal, as in `example.com:8080` or `[::1]`. A name and
password before the host are allowed and passed over.

* `Authority.read?`: the authority that a text stands for.
* `Authority.isAllowed`: the characters of an authority.
-/

namespace Correlator

/-- A host, and a port if it is written. -/
structure Authority where
  host : List Char
  port? : Option Nat
  deriving DecidableEq, Repr

namespace Authority

/-- A character that stands for itself in an authority. -/
def isPlain (c : Char) : Bool :=
  c.isAlphanum || c ∈ ['!', '$', '&', '\'', '(', ')', '*', '+', ',', '-', '.', ';', '=', '_', '~']

/-- A character of an authority. -/
def isAllowed (c : Char) : Bool := isPlain c || c ∈ [':', '[', ']', '@', '%']

/-- What has been seen of an authority. -/
structure Scan where
  /-- The number of colons that may come before a port. -/
  colons : Nat
  opened : Bool
  closed : Bool
  /-- Whether there is a percent sign, which only a name and password may have. -/
  percent : Bool

/-- The greatest number of colons in a row of an address. -/
def maxColons : Nat := 8

/-- One more character. A closing bracket ends an address, and an at sign the name and password;
what came before them does not count any more. -/
def Scan.step (s : Scan) (c : Char) : Option Scan :=
  match c with
  | ':' => if maxColons ≤ s.colons then none else some { s with colons := s.colons + 1 }
  | '[' => if s.percent || s.opened then none else some { s with opened := true }
  | ']' =>
    if !s.opened || s.closed then none
    else some { s with closed := true, colons := 0, percent := false }
  | '@' => some { s with colons := 0, percent := false }
  | '%' => some { s with percent := true }
  | c => if isPlain c then some s else none

/-- Whether the text has the form of an authority. -/
def isWellFormed (cs : List Char) : Bool :=
  match cs.foldlM Scan.step ⟨0, false, false, false⟩ with
  | some s =>
    !cs.isEmpty && s.opened == s.closed && s.colons ≤ 1 && cs.getLast? != some '@' && !s.percent
  | none => false

/-- The decimal number of a port, which may have a plus sign. -/
def portOf? (cs : List Char) : Option Nat :=
  let digits := match cs with
    | '+' :: rest => rest
    | cs => cs
  if digits.isEmpty || !digits.all Char.isDigit then none
  else
    let n := digits.foldl (fun n c => 10 * n + (c.toNat - 48)) 0
    if n < Nat.pow 2 16 then some n else none

/-- The text after the last of some characters, or all of it if there is none. -/
def afterLast (x : Char) (cs : List Char) : List Char :=
  (cs.reverse.takeWhile fun c => c ≠ x).reverse

/-- The host of a well-formed authority. -/
def hostOf (cs : List Char) : List Char :=
  match afterLast '@' cs with
  | '[' :: rest => '[' :: rest.takeWhile (fun c => c ≠ ']') ++ [']']
  | rest => rest.takeWhile fun c => c ≠ ':'

/-- The authority that a text stands for. -/
def read? (cs : List Char) : Option Authority :=
  if isWellFormed cs then
    some ⟨hostOf cs, if cs.contains ':' then portOf? (afterLast ':' cs) else none⟩
  else none

end Authority

end Correlator
