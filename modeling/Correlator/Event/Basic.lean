import Correlator.Event.Metadata

/-!
# Events

* `Event`: a payload with its metadata.
-/

namespace Correlator

/-- A payload with its metadata. -/
structure Event where
  payload : String
  metadata : Metadata
  deriving Inhabited

end Correlator
