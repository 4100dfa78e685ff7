import Correlator.Header.Listing
import Correlator.Header.Mapping
import Correlator.Text.Utf8

/-!
# Header blocks

The headers that go with a message: names in lower case, and values that may be any bytes but
control characters.

* `HeaderField`: a header as it is sent.
* `HeaderName.normal?`: the lower-case form of a name, if it is one.
* `HeaderValue.Valid`, `HeaderValue.text?`: values, and those that are text.
* `Block.build`: the block of configured headers for a body. There is one content type, that of
  the first header of this name or else of the mapping, and one content length, that of the body.
* `Block.build?`: the same, if there is room for so many headers; `Block.make`: the same, or the
  fault of whoever breaks down over it.
-/

namespace Correlator

/-- A header as it is sent. -/
structure HeaderField where
  name : String
  value : Octets
  deriving DecidableEq, Repr, Inhabited

namespace HeaderName

/-- The characters of a token, of which methods and header names are made. -/
def isTokenChar (c : Char) : Bool :=
  c.isAlphanum ||
    c ∈ ['!', '#', '$', '%', '&', '\'', '*', '+', '-', '.', '^', '_', '\x60', '|', '~']

/-- The greatest number of characters in a name. -/
def maxLength : Nat := 65535

/-- The lower-case form of a name: a token that is neither empty nor too long. -/
def normal? (s : String) : Option String :=
  let cs := s.toList
  if cs.isEmpty || maxLength < cs.length || !cs.all isTokenChar then none
  else some (String.ofList (cs.map Char.toLower))

/-- Equality of names, whose letters may be of either case. -/
def sameText (s t : String) : Bool := s.toList.map Char.toLower == t.toList.map Char.toLower

end HeaderName

namespace HeaderValue

/-- A byte that a value may hold. -/
def isValidByte (b : UInt8) : Bool := (32 ≤ b && b != 127) || b == 9

/-- Whether the bytes are a value. -/
def Valid (bs : Octets) : Bool := bs.all isValidByte

/-- A byte of visible text. -/
def isTextByte (b : UInt8) : Bool := (32 ≤ b && b < 127) || b == 9

/-- The text of a value that is visible text throughout. -/
def text? (bs : Octets) : Option String :=
  if bs.all isTextByte then some (String.ofList (bs.map fun b => Char.ofNat b.toNat)) else none

/-- The value that a text stands for. -/
def ofText? (s : String) : Option Octets :=
  let bs := Octets.ofString s
  if Valid bs then some bs else none

end HeaderValue

namespace Block

/-- The name of the header with the kind of the body. -/
def contentTypeName := "content-type"

/-- The name of the header with the length of the body. -/
def contentLengthName := "content-length"

/-- The content type of a message: that of the first header of this name, whatever the case of
its letters, or else the one that goes with the mapping. -/
def contentType (mapping? : Option Mapping) (headers : List Header) : String :=
  match headers.find? fun h => HeaderName.sameText h.name contentTypeName with
  | some h => h.value
  | none => (mapping?.getD .text).contentType

/-- What is wrong with a header whose name is none. -/
def invalidName (h : Header) : Fault :=
  .invalidRequest ("header '" ++ h.name ++ "': invalid HTTP header name")

/-- What is wrong with a header whose value is none. -/
def invalidValue (h : Header) : Fault :=
  .invalidRequest ("header '" ++ h.name ++ "': failed to parse header value")

/-- What is wrong with a content type that is no header value. -/
def invalidContentType : Fault :=
  .invalidRequest "content-type: failed to parse header value"

/-- The configured headers as they are sent, without content type and content length. -/
def fieldsOf : List Header → Except Fault (List HeaderField)
  | [] => .ok []
  | h :: rest =>
    match HeaderName.normal? h.name with
    | none => .error (invalidName h)
    | some name =>
      if name = contentTypeName ∨ name = contentLengthName then fieldsOf rest
      else
        match HeaderValue.ofText? h.value with
        | none => .error (invalidValue h)
        | some value =>
          match fieldsOf rest with
          | .ok fields => .ok (⟨name, value⟩ :: fields)
          | .error e => .error e

/-- The decimal text of a length. -/
def lengthText (n : Nat) : Octets := Octets.ofString (String.ofList (Nat.toDigits 10 n))

/-- The block of configured headers for a body of `length` bytes. -/
def build (headers : List Header) (mapping? : Option Mapping) (length : Nat) :
    Except Fault (List HeaderField) :=
  match fieldsOf headers with
  | .error e => .error e
  | .ok fields =>
    match HeaderValue.ofText? (contentType mapping? headers) with
    | none => .error invalidContentType
    | some value =>
      .ok (fields ++ [⟨contentTypeName, value⟩, ⟨contentLengthName, lengthText length⟩])

/-- The greatest number of places in a block. -/
def maxPlaces : Nat := 32768

/-- The number of places for so many headers. A quarter of them stays free. -/
def placesFor (n : Nat) : Nat := n + n / 3

/-- The block of configured headers, made with places for all of them and for content type and
content length. There is none if these are too many: then whoever makes the block breaks down. -/
def build? (headers : List Header) (mapping? : Option Mapping) (length : Nat) :
    Option (Except Fault (List HeaderField)) :=
  if placesFor (headers.length + 2) ≤ maxPlaces then some (build headers mapping? length)
  else none

/-- The block of configured headers, as it is made for a message that is sent. -/
def make (headers : List Header) (mapping? : Option Mapping) (length : Nat) :
    Except Fault (List HeaderField) :=
  (build? headers mapping? length).getD (.error .overflow)

/-- The values of a name, in their order. -/
def values (fields : List HeaderField) (name : String) : List Octets :=
  (fields.filter fun f => f.name = name).map (·.value)

/-- A block in the order of its names; headers of one name keep their order. -/
def sorted (fields : List HeaderField) : List HeaderField :=
  fields.mergeSort fun f g => f.name ≤ g.name

end Block

end Correlator
