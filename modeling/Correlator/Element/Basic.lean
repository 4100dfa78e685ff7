import Correlator.Config.Basic
import Correlator.Event.Consumer
import Correlator.Header.Listing
import Correlator.Header.Block
import Correlator.Message
import Correlator.Template
import Correlator.Text.Blank
import Correlator.Url.Parser

/-!
# Elements

The sinks and sources of a pipeline, set up from their configurations. What can be read once is
read here: a URL or a header listing without templates.

* `RequestSink.ofConfig`, `ResponseSink.ofConfig`: sinks, or the fault of their configuration.
* `checkRequestSource`, `checkResponseSource`: the fault of the configuration of a source.
* `Element`: a sink or source, which is active once its pipeline is running.
* `Element.ofConfig`: the element of a configuration.
-/

namespace Correlator

/-- A sink that sends events as requests. -/
structure RequestSink where
  config : RequestSinkConfig
  method : String
  /-- The URL, unless it depends on the event. -/
  url? : Option Url
  /-- The headers, unless they depend on the event. -/
  headers? : Option (List Header)
  /-- The consumer of the responses, unless they go to whoever is registered for them. -/
  consumer? : Option Consumer

/-- A sink that answers waiting requests. -/
structure ResponseSink where
  config : ResponseSinkConfig
  /-- The headers, unless they depend on the event. -/
  headers? : Option (List Header)

/-! ## Reading what is configured -/

/-- A URL with white space around it, or the fault of a text that is none. -/
def readUrl (raw : String) : Except Fault Url :=
  match Url.parse (Text.trimmed raw) with
  | .ok url => .ok url
  | .error e => .error (.invalidRequest ("url '" ++ raw ++ "': " ++ e.message))

/-- A method: a token in upper case. -/
def readMethod (raw : String) : Except Fault String :=
  let cs := (Text.trim raw.toList).map Char.toUpper
  if !cs.isEmpty && cs.all HeaderName.isTokenChar then .ok (String.ofList cs)
  else .error (.configuration ("invalid method '" ++ raw ++ "'"))

/-- What a text stands for, if there are no attributes in it. -/
def readStatic (read : String → Except Fault α) (template : String) : Except Fault (Option α) :=
  if Template.isDynamic template then .ok none else (read template).map some

/-- The fault of an element without an id. -/
def lacksId (element id : String) : Fault :=
  .configuration (element ++ " requires a " ++ id)

namespace RequestSink

/-- The method of a sink that configures none. -/
def defaultMethod := "POST"

/-- The fault of a sink that has no path to download to. -/
def lacksDownloadPath (sinkId : String) : Fault :=
  .configuration ("download_path is mandatory when download is enabled for sink '" ++ sinkId ++ "'")

/-- The fault of a sink whose URL is none. -/
def invalidUrl (sinkId : String) (e : Fault) : Fault :=
  .configuration ("sink '" ++ sinkId ++ "': " ++ e.message)

/-- The sink of a configuration. -/
def ofConfig (c : RequestSinkConfig) (consumer? : Option Consumer) : Except Fault RequestSink := do
  if Text.isBlank c.sinkId then throw (lacksId "http-request sink" "sink_id")
  if c.download && (c.downloadPath?.map Text.isBlank).getD true then
    throw (lacksDownloadPath c.sinkId)
  let method ← (c.method?.map readMethod).getD (.ok defaultMethod)
  let url? ← (readStatic readUrl c.url).mapError (invalidUrl c.sinkId)
  let headers? ← readStatic Listing.read c.headers
  return ⟨c, method, url?, headers?, consumer?⟩

end RequestSink

/-- The sink of a configuration. -/
def ResponseSink.ofConfig (c : ResponseSinkConfig) : Except Fault ResponseSink := do
  if Text.isBlank c.sourceId then throw (lacksId "http-response sink" "source_id")
  if !Status.isValid c.status then
    throw (.configuration ("invalid status code " ++ Key.statusText c.status))
  let headers? ← readStatic Listing.read c.headers
  return ⟨c, headers?⟩

/-- The fault of the configuration of a request source, if there is one. -/
def checkRequestSource (c : RequestSourceConfig) : Except Fault Unit := do
  if Text.isBlank c.sourceId then throw (lacksId "http-request source" "source_id")
  if c.path.toList.head? != some '/' then
    throw (.configuration
      ("path '" ++ c.path ++ "' of source '" ++ c.sourceId ++ "' must start with '/'"))

/-- The fault of the configuration of a response source, if there is one. -/
def checkResponseSource (c : ResponseSourceConfig) : Except Fault Unit := do
  if Text.isBlank c.sinkId then throw (lacksId "http-response source" "sink_id")

/-! ## Elements -/

/-- What an element is. -/
inductive Part
  | requestSink (s : RequestSink)
  | responseSink (s : ResponseSink)
  | requestSource (c : RequestSourceConfig) (consumer : Consumer)
  | responseSource (c : ResponseSourceConfig) (consumer : Consumer)

/-- A sink or source of a pipeline, which is active once the pipeline is running. -/
structure Element where
  part : Part
  active : Bool

namespace Element

/-- The configuration of an element. -/
def config (e : Element) : ElementConfig :=
  match e.part with
  | .requestSink s => .requestSink s.config
  | .responseSink s => .responseSink s.config
  | .requestSource c _ => .requestSource c
  | .responseSource c _ => .responseSource c

/-- The kind of an element. -/
def kind (e : Element) : ElementKind := e.config.kind

/-- The id that an element registers or publishes under. -/
def id (e : Element) : String := e.config.owner

/-- Whether an element takes events. -/
def isSink (e : Element) : Bool := e.kind.isSink

/-- The element of a configuration, not yet active. Its events go to the consumer; those of a
request sink do so only if `direct` holds. -/
def ofConfig (c : ElementConfig) (consumer : Consumer) (direct : Bool) : Except Fault Element :=
  match c with
  | .requestSink c =>
    (RequestSink.ofConfig c (if direct then some consumer else none)).map
      fun s => ⟨.requestSink s, false⟩
  | .responseSink c => (ResponseSink.ofConfig c).map fun s => ⟨.responseSink s, false⟩
  | .requestSource c =>
    (checkRequestSource c).map fun _ => ⟨.requestSource c consumer, false⟩
  | .responseSource c =>
    (checkResponseSource c).map fun _ => ⟨.responseSource c consumer, false⟩

end Element

end Correlator
