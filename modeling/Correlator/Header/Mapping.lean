/-!
# Payload mappings

* `Mapping`: the form that a payload is declared to have.
* `Mapping.contentType`: the content type of a payload in that form.
* `Mapping.name`, `Mapping.ofName?`: the name of a mapping in a configuration.
-/

namespace Correlator

/-- The form that a payload is declared to have. -/
inductive Mapping
  | text
  | xml
  | json
  | keyValue
  deriving DecidableEq, Repr

namespace Mapping

/-- The content type that goes with a mapping. -/
def contentType : Mapping → String
  | .text => "plain/text"
  | .xml => "application/xml"
  | .json => "application/json"
  | .keyValue => "application/x-www-form-urlencoded"

/-- The name of a mapping. -/
def name : Mapping → String
  | .text => "text"
  | .xml => "xml"
  | .json => "json"
  | .keyValue => "keyvalue"

/-- The mapping of a name; one of them has a second name. -/
def ofName? (s : String) : Option Mapping :=
  if s = "text" then some .text
  else if s = "xml" then some .xml
  else if s = "json" then some .json
  else if s = "keyvalue" ∨ s = "key-value" then some .keyValue
  else none

theorem ofName?_name (m : Mapping) : ofName? m.name = some m := by
  cases m <;> rfl

end Mapping

end Correlator
