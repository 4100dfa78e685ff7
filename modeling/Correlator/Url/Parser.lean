import Correlator.Text.Blank
import Correlator.Url.Host

/-!
# Reading URLs

* `Url.parse`: the URL that a text stands for, or the reason why there is none. There is no base
  URL, so the text has to name its scheme.
* `Url.parsePath`: the steps of a path: `.` stays where it is, `..` goes one step back.

Control characters and blanks at the ends of the text are passed over, and tabs and line breaks
wherever they stand.
-/

namespace Correlator.Url

open Text

/-! ## Scheme -/

/-- A character of a scheme after its first. -/
def isSchemeChar (c : Char) : Bool := c.isAlphanum || c ∈ ['+', '-', '.']

/-- The scheme, in lower case, and the text after its colon. -/
def readScheme? (cs : List Char) : Option (List Char × List Char) :=
  match cs with
  | [] => none
  | c :: _ =>
    if !c.isAlpha then none
    else
      match cs.dropWhile isSchemeChar with
      | ':' :: rest => some ((cs.takeWhile isSchemeChar).map Char.toLower, rest)
      | _ => none

/-! ## Authority -/

/-- Whether a character ends the authority. -/
def endsAuthority (special : Bool) (c : Char) : Bool :=
  c ∈ ['/', '?', '#'] || (special && c = '\\')

/-- The part of a text up to the last at sign in it, and the part after it. -/
def cutLastAt? (cs : List Char) : Option (List Char × List Char) :=
  match cut? ['@'] cs.reverse with
  | some (after, before) => some (before.reverse, after.reverse)
  | none => none

/-- User name and password, of which the latter begins after the first colon. -/
def readCredentials (cs : List Char) : List Char × List Char :=
  match cut? [':'] cs with
  | some (name, word) =>
    (Percent.encode Percent.userinfo name, Percent.encode Percent.userinfo word)
  | none => (Percent.encode Percent.userinfo cs, [])

/-- The text of the host, which ends at a colon outside of brackets, and what follows it. -/
def cutHost (bracketed : Bool) : List Char → List Char × List Char
  | [] => ([], [])
  | c :: cs =>
    if c = ':' ∧ !bracketed then ([], c :: cs)
    else
      let bracketed := if c = '[' then true else if c = ']' then false else bracketed
      let (host, rest) := cutHost bracketed cs
      (c :: host, rest)

/-- The value of digits, as long as it is a port. -/
def portValue? (cs : List Char) : Option Nat :=
  cs.foldl (fun n? c =>
    match n? with
    | some n => let n := 10 * n + (c.toNat - 48); if 65535 < n then none else some n
    | none => none) (some 0)

/-- The port after the colon that sets it off, and what follows it. The usual port of the scheme
is not kept. -/
def readPort (scheme cs : List Char) : Except UrlError (Option Nat × List Char) :=
  let ds := cs.takeWhile Char.isDigit
  let rest := cs.dropWhile Char.isDigit
  match portValue? ds with
  | none => .error .invalidPort
  | some port =>
    let ended := match rest with
      | [] => true
      | c :: _ => c ∈ ['/', '\\', '?', '#']
    if !ended then .error .invalidPort
    else if ds.isEmpty ∨ defaultPort? scheme = some port then .ok (none, rest)
    else .ok (some port, rest)

/-- The authority that a text begins with. -/
structure Authority where
  username : List Char
  password : List Char
  host : Host
  port? : Option Nat

/-- The authority that a text begins with, and what follows it; `followed` tells that a query or
fragment comes after the text. -/
def readAuthority (scheme : List Char) (followed : Bool) (cs : List Char) :
    Except UrlError (Authority × List Char) :=
  let special := isSpecial scheme
  let inside := cs.takeWhile fun c => !endsAuthority special c
  let after := cs.dropWhile fun c => !endsAuthority special c
  let (userinfo?, hostPort) := match cutLastAt? inside with
    | some (userinfo, hostPort) => (some userinfo, hostPort)
    | none => (none, inside)
  if userinfo? = some [] ∧ hostPort.isEmpty then
    -- an at sign with nothing on either side of it
    if special ∨ followed ∨ !after.isEmpty then .error .emptyHost
    else .ok (⟨[], [], .name [], none⟩, after)
  else
    let (username, password) := readCredentials (userinfo?.getD [])
    let (hostText, rest) := cutHost false hostPort
    if special ∧ hostText.isEmpty then .error .emptyHost
    else
      match if special then Host.read hostText else Host.readOpaque hostText with
      | .error e => .error e
      | .ok host =>
        match rest with
        | ':' :: portText =>
          if host.isEmpty then .error .emptyHost
          else
            match readPort scheme (portText ++ after) with
            | .error e => .error e
            | .ok (port?, rest) => .ok (⟨username, password, host, port?⟩, rest)
        | _ =>
          if host.isEmpty ∧ !(username.isEmpty ∧ password.isEmpty) then .error .emptyHost
          else .ok (⟨username, password, host, none⟩, after)

/-! ## Path -/

/-- A step that stays where it is. -/
def isSingleDot (cs : List Char) : Bool :=
  String.ofList cs ∈ [".", "%2e", "%2E"]

/-- A step that goes back. -/
def isDoubleDot (cs : List Char) : Bool :=
  String.ofList (cs.map Char.toLower) ∈ ["..", ".%2e", "%2e.", "%2e%2e"]

/-- A letter and a colon, or the bar that is read as one. -/
def isDriveLetter (cs : List Char) : Bool :=
  match cs with
  | [c, d] => c.isAlpha && (d = ':' || d = '|')
  | _ => false

/-- A letter and a colon. -/
def isNormalDriveLetter (cs : List Char) : Bool :=
  match cs with
  | [c, d] => c.isAlpha && d = ':'
  | _ => false

/-- One step back; a drive letter at the root stays. -/
def stepBack (file : Bool) (back : List (List Char)) : List (List Char) :=
  match back with
  | [step] => if file && isNormalDriveLetter step then back else []
  | _ :: rest => rest
  | [] => []

/-- A step of the path taken, last step first; `last` tells that no slash follows it. -/
def takeStep (file last : Bool) (back : List (List Char)) (step : List Char) :
    List (List Char) :=
  if isDoubleDot step then
    let back := stepBack file back
    if last then [] :: back else back
  else if isSingleDot step then
    if last then [] :: back else back
  else if file && back.isEmpty && isDriveLetter step then
    (step.take 1 ++ [':']) :: back
  else step :: back

/-- The steps of a path that are left to take. -/
def takeSteps (file : Bool) (back : List (List Char)) : List (List Char) → List (List Char)
  | [] => back
  | [step] => takeStep file true back step
  | step :: rest => takeSteps file (takeStep file false back step) rest

/-- The steps that a text stands for, which are set off by slashes. -/
def parsePath (scheme cs : List Char) : List (List Char) :=
  let slashed := if isSpecial scheme then cs.map fun c => if c = '\\' then '/' else c else cs
  let steps := (splitAt '/' slashed).map (Percent.encode Percent.path)
  let taken := (takeSteps (isFile scheme) [] steps).reverse
  if isFile scheme then
    -- empty steps at the root of a local path are passed over
    match taken.dropWhile List.isEmpty with
    | [] => [[]]
    | taken => taken
  else taken

/-! ## The whole -/

/-- The part of a text before a mark, and the part after it if the mark is there. -/
def cutOff (mark : Char) (cs : List Char) : List Char × Option (List Char) :=
  match cut? [mark] cs with
  | some (before, after) => (before, some after)
  | none => (cs, none)

/-- A slash of either kind. -/
def isSlash (c : Char) : Bool := c = '/' || c = '\\'

/-- Host and path of a local file. -/
def readFile (scheme cs : List Char) : Except UrlError (Option Host × List (List Char)) :=
  match cs with
  | a :: b :: rest =>
    if isSlash a && isSlash b then
      let hostText := rest.takeWhile fun c => !isSlash c
      let pathText := rest.dropWhile fun c => !isSlash c
      if isDriveLetter hostText then .ok (some (.name []), parsePath scheme rest)
      else if hostText.isEmpty then .ok (some (.name []), parsePath scheme (pathText.drop 1))
      else
        match Host.read hostText with
        | .error e => .error e
        | .ok host =>
          let path := pathText.drop 1
          -- a path that begins with a drive letter is on this machine
          if host = .name "localhost".toList ∨
              isDriveLetter (path.takeWhile fun c => !isSlash c) then
            .ok (some (.name []), parsePath scheme path)
          else .ok (some host, parsePath scheme path)
    else if isSlash a then .ok (some (.name []), parsePath scheme (b :: rest))
    else .ok (some (.name []), parsePath scheme (a :: b :: rest))
  | [a] =>
    if isSlash a then .ok (some (.name []), [[]])
    else .ok (some (.name []), parsePath scheme [a])
  | [] => .ok (some (.name []), [[]])

/-- The parts of a URL up to its query; `followed` tells that a query or fragment comes next. -/
def readHierarchy (scheme : List Char) (followed : Bool) (cs : List Char) :
    Except UrlError Url :=
  let plain (host? : Option Host) (path : UrlPath) : Url :=
    ⟨scheme, [], [], host?, none, path, none, none⟩
  if isFile scheme then
    match readFile scheme cs with
    | .error e => .error e
    | .ok (host?, path) => .ok (plain host? (.steps path))
  else
    let special := isSpecial scheme
    let afterSlashes? :=
      if special then some (cs.dropWhile isSlash) else dropLead? ['/', '/'] cs
    match afterSlashes? with
    | some rest =>
      match readAuthority scheme followed rest with
      | .error e => .error e
      | .ok (a, rest) =>
        let steps :=
          match rest with
          | [] => if special then [[]] else []
          | c :: rest' =>
            if c = '/' ∨ (special ∧ c = '\\') then parsePath scheme rest'
            else parsePath scheme (c :: rest')
        .ok ⟨scheme, a.username, a.password, some a.host, a.port?, .steps steps, none, none⟩
    | none =>
      match cs with
      | '/' :: rest => .ok (plain none (.steps (parsePath scheme rest)))
      | _ => .ok (plain none (.opaqueText (Percent.encode Percent.control cs)))

/-- A character that is passed over at the ends of the text. -/
def isEdge (c : Char) : Bool := c.toNat ≤ 0x20

/-- A character that is passed over everywhere. -/
def isBreak (c : Char) : Bool := c = '\t' || c = '\n' || c = '\r'

/-- The URL that a text stands for. -/
def parse (s : String) : Except UrlError Url :=
  let cs := (strip isEdge s.toList).filter fun c => !isBreak c
  match readScheme? cs with
  | none => .error .noScheme
  | some (scheme, rest) =>
    let (rest, fragment?) := cutOff '#' rest
    let (rest, query?) := cutOff '?' rest
    match readHierarchy scheme (query?.isSome || fragment?.isSome) rest with
    | .error e => .error e
    | .ok u =>
      let querySet := if isSpecial scheme then Percent.specialQuery else Percent.query
      .ok { u with
        query? := query?.map (Percent.encode querySet)
        fragment? := fragment?.map (Percent.encode Percent.fragment) }

end Correlator.Url
