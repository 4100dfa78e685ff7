import Correlator.Config.Schema
import Correlator.Config.Validation
import Correlator.Text.Utf8
import Correlator.Toml.Reader

/-!
# Configuration documents

* `ConfigError`: why a document yields no configuration.
* `Config.ofDocument`: the configuration of a text.
* `Config.ofBytes`: the configuration of the bytes of a file.
-/

namespace Correlator

/-- Why a document yields no configuration. -/
inductive ConfigError
  /-- The file cannot be read, or is no text. -/
  | unreadable
  /-- The text is no document of the expected form. -/
  | malformed
  /-- The document asks for something that cannot be. -/
  | invalid (problems : List Problem)
  deriving DecidableEq, Repr

/-- The text of an invalid document's error: the problems, in their order. -/
def ConfigError.invalidMessage (problems : List Problem) : String :=
  "Validation failed: " ++ ", ".intercalate (problems.map Problem.message)

namespace Config

/-- The configuration of a document. -/
def ofDocument (text : String) : Except ConfigError Config :=
  match (Toml.parse? text).bind (Schema.config? true) with
  | none => .error .malformed
  | some c => if c.problems.isEmpty then .ok c else .error (.invalid c.problems)

/-- The configuration of the bytes of a file. -/
def ofBytes (bs : Octets) : Except ConfigError Config :=
  match Utf8.text? bs with
  | none => .error .unreadable
  | some text => ofDocument text

end Config

end Correlator
