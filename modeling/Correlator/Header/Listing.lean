import Correlator.Fault
import Correlator.Text.Blank
import Correlator.Text.Cut

/-!
# Header listings

The configured form of a list of headers: `'name:value','name2:value2'`.

* `Header`: a name and a value.
* `Listing.unquote`: a listing without its outer quotes, of which each is optional.
* `Listing.entry?`: the header that an entry stands for; the name ends at the first colon.
* `Listing.read`: the headers of a listing. Blank entries are passed over, and the first entry
  that is neither blank nor a header is refused.
* `Listing.write`: the listing of headers.
-/

namespace Correlator

/-- A configured header. -/
structure Header where
  name : String
  value : String
  deriving DecidableEq, Repr, Inhabited

namespace Listing

open Text

/-- The quote at both ends of a listing. -/
def quote : Char := '\''

/-- What stands between two entries, after the first of its characters. -/
def separatorTail : List Char := [',', '\'']

/-- A listing without a quote at its beginning and one at its end. -/
def unquote (cs : List Char) : List Char :=
  let cs := match cs with
    | '\'' :: rest => rest
    | cs => cs
  match cs.reverse with
  | '\'' :: rest => rest.reverse
  | _ => cs

/-- The header that a trimmed entry stands for. -/
def entry? (cs : List Char) : Option Header :=
  match cut? [':'] cs with
  | none => none
  | some (name, value) =>
    if (trim name).isEmpty then none
    else some ⟨String.ofList (trim name), String.ofList (trim value)⟩

/-- The fault of an entry that is no header. -/
def malformed (cs : List Char) : Fault :=
  .configuration ("Invalid header format '" ++ String.ofList cs ++ "', expected 'name:value'")

/-- The headers of a list of entries. -/
def readEntries : List (List Char) → Except Fault (List Header)
  | [] => .ok []
  | piece :: rest =>
    let cs := trim piece
    if cs.isEmpty then readEntries rest
    else
      match entry? cs with
      | none => .error (malformed cs)
      | some header =>
        match readEntries rest with
        | .ok headers => .ok (header :: headers)
        | .error e => .error e

/-- The headers of a listing. -/
def read (raw : String) : Except Fault (List Header) :=
  let cs := trim raw.toList
  if cs.isEmpty then .ok []
  else readEntries (pieces quote separatorTail (unquote cs))

/-- An entry of a listing. -/
def writeEntry (h : Header) : List Char := h.name.toList ++ ':' :: h.value.toList

/-- The listing of headers; none are listed by the empty text. -/
def write (headers : List Header) : List Char :=
  match headers with
  | [] => []
  | _ => quote :: List.intercalate (quote :: separatorTail) (headers.map writeEntry) ++ [quote]

end Listing

end Correlator
