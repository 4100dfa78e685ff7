import Correlator.Config.Basic
import Correlator.Json.Value

/-!
# Reading a configuration from a value

A configuration as an object with a field for each section. Fields that nobody knows are passed
over, and absent ones take their defaults.

* `Schema.section?`: the values of the fields of a section. A section may also be an array of
  values, in the order of the fields.
* `Schema.config?`: the configuration that a value stands for.
* `Schema.ofConfig`: the value of a configuration, with all of its fields.

Two formats differ in one point, which is a parameter: whether an array that stands for a section
may be longer than the section has fields (`loose`). An element is read strictly in both.
-/

namespace Correlator.Schema

/-! ## Sections and fields -/

/-- The values of the named fields of a section. -/
def section? (loose : Bool) (names : List String) (j : Json) : Option (List (Option Json)) :=
  match j with
  | .obj fields => some (names.map fun name => fields.lookup name)
  | .arr items =>
    if loose || items.length ≤ names.length then
      some ((List.range names.length).map fun i => items[i]?)
    else none
  | _ => none

/-- A text. -/
def text? : Json → Option String
  | .str s => some s
  | _ => none

/-- A truth value. -/
def flag? : Json → Option Bool
  | .bool b => some b
  | _ => none

/-- A number of at most `bound`. -/
def number? (bound : Nat) : Json → Option Nat
  | .int n => if 0 ≤ n ∧ n ≤ bound then some n.toNat else none
  | _ => none

/-- A number of 64 bits. -/
def word? : Json → Option Nat := number? (Nat.pow 2 64 - 1)

/-- A number of 16 bits. -/
def status? : Json → Option Nat := number? (Nat.pow 2 16 - 1)

/-- A value that may be `null`. -/
def nullable? (read : Json → Option α) : Json → Option (Option α)
  | .null => some none
  | j => (read j).map some

/-- All items of an array. -/
def items? (read : Json → Option α) : Json → Option (List α)
  | .arr items => items.mapM read
  | _ => none

/-- A field that has to be there. -/
def needed (read : Json → Option α) : Option Json → Option α
  | some j => read j
  | none => none

/-- A field with a default. -/
def withDefault (read : Json → Option α) (default : α) : Option Json → Option α
  | some j => read j
  | none => some default

/-- A mapping: its name, or an object with nothing but an empty field of that name. -/
def mapping? : Json → Option Mapping
  | .str s => Mapping.ofName? s
  | .obj [(s, .null)] => Mapping.ofName? s
  | .obj [(s, .obj [])] => Mapping.ofName? s
  | _ => none

/-! ## Elements -/

/-- The field with the kind of an element. -/
def kindField := "type"

/-- The fields of a request sink. -/
def requestSink? (j : Json) : Option RequestSinkConfig :=
  match section? false ["sink_id", "publisher_url", "method", "headers", "map", "attributes",
    "download_enabled", "download_path"] j with
  | some [sinkId, url, method, headers, mapping, attributes, download, path] => do
    return {
      sinkId := ← needed text? sinkId
      url := ← needed text? url
      method? := ← withDefault (nullable? text?) none method
      headers := ← withDefault text? "" headers
      mapping? := ← withDefault (nullable? mapping?) none mapping
      attributes := ← withDefault (items? text?) [] attributes
      download := ← withDefault flag? false download
      downloadPath? := ← withDefault (nullable? text?) none path }
  | _ => none

/-- The message id template of a response sink that configures none. -/
def defaultMessageId := "\x7b\x7bmessage.id\x7d\x7d"

/-- The fields of a response sink. -/
def responseSink? (j : Json) : Option ResponseSinkConfig :=
  match section? false ["source_id", "message_id", "headers", "map", "status_code"] j with
  | some [sourceId, messageId, headers, mapping, status] => do
    return {
      sourceId := ← needed text? sourceId
      messageId := ← withDefault text? defaultMessageId messageId
      headers := ← withDefault text? "" headers
      mapping? := ← withDefault (nullable? mapping?) none mapping
      status := ← withDefault status? 200 status }
  | _ => none

/-- The fields of a request source. -/
def requestSource? (j : Json) : Option RequestSourceConfig :=
  match section? false ["source_id", "path", "attributes"] j with
  | some [sourceId, path, attributes] => do
    return {
      sourceId := ← needed text? sourceId
      path := ← needed text? path
      attributes := ← withDefault (items? text?) [] attributes }
  | _ => none

/-- The fields of a response source. -/
def responseSource? (j : Json) : Option ResponseSourceConfig :=
  match section? false ["sink_id", "http_status_code", "download_enabled"] j with
  | some [sinkId, status, download] => do
    return {
      sinkId := ← needed text? sinkId
      status? := ← withDefault (nullable? status?) none status
      download := ← withDefault flag? false download }
  | _ => none

/-- An element of a kind. -/
def elementOf? (kind : ElementKind) (j : Json) : Option ElementConfig :=
  match kind with
  | .requestSink => (requestSink? j).map .requestSink
  | .responseSink => (responseSink? j).map .responseSink
  | .requestSource => (requestSource? j).map .requestSource
  | .responseSource => (responseSource? j).map .responseSource

/-- An element: an object that names its kind in a field, or an array that begins with it. -/
def element? (j : Json) : Option ElementConfig :=
  match j with
  | .obj fields =>
    match fields.lookup kindField with
    | some (.str name) => (ElementKind.ofName? name).bind fun kind => elementOf? kind j
    | _ => none
  | .arr (.str name :: items) =>
    (ElementKind.ofName? name).bind fun kind => elementOf? kind (.arr items)
  | _ => none

/-! ## The whole -/

/-- A pipeline. -/
def pipeline? (loose : Bool) (j : Json) : Option PipelineConfig :=
  match section? loose ["name", "elements"] j with
  | some [name, elements] => do
    return {
      name := ← needed text? name
      elements := ← withDefault (items? element?) [] elements }
  | _ => none

/-- The section of the listener. -/
def listener? (loose : Bool) (j : Json) : Option ListenerConfig :=
  let d : ListenerConfig := {}
  match section? loose ["bind_address", "response_timeout_secs"] j with
  | some [address, timeout] => do
    return ⟨← withDefault text? d.bindAddress address,
      ← withDefault word? d.responseTimeout timeout⟩
  | _ => none

/-- The section of the worker pool. -/
def workers? (loose : Bool) (j : Json) : Option WorkerConfig :=
  let d : WorkerConfig := {}
  match section? loose ["pool_size", "max_payload_bytes"] j with
  | some [size, payload] => do
    return ⟨← withDefault word? d.poolSize size, ← withDefault word? d.maxPayload payload⟩
  | _ => none

/-- The section of the client. -/
def client? (loose : Bool) (j : Json) : Option ClientConfig :=
  let d : ClientConfig := {}
  match section? loose ["connect_timeout_secs", "request_timeout_secs", "pool_idle_timeout_secs",
    "pool_max_idle_per_host"] j with
  | some [connect, request, idle, maxIdle] => do
    return ⟨← withDefault word? d.connectTimeout connect,
      ← withDefault word? d.requestTimeout request, ← withDefault word? d.idleTimeout idle,
      ← withDefault word? d.maxIdlePerHost maxIdle⟩
  | _ => none

/-- The section of logging and metrics. -/
def observability? (loose : Bool) (j : Json) : Option ObservabilityConfig :=
  let d : ObservabilityConfig := {}
  match section? loose ["log_level", "metrics_enabled", "metrics_address"] j with
  | some [level, enabled, address] => do
    return ⟨← withDefault text? d.logLevel level, ← withDefault flag? d.metricsEnabled enabled,
      ← withDefault text? d.metricsAddress address⟩
  | _ => none

/-- The configuration that a value stands for. -/
def config? (loose : Bool) (j : Json) : Option Config :=
  match section? loose ["listener", "workers", "client", "observability", "pipelines"] j with
  | some [listener, workers, client, observability, pipelines] => do
    return {
      listener := ← withDefault (listener? loose) {} listener
      workers := ← withDefault (workers? loose) {} workers
      client := ← withDefault (client? loose) {} client
      observability := ← withDefault (observability? loose) {} observability
      pipelines := ← withDefault (items? (pipeline? loose)) [] pipelines }
  | _ => none

/-! ## The value of a configuration -/

/-- A value that may be absent. -/
def orNull (j? : Option Json) : Json := j?.getD .null

/-- A list of texts. -/
def texts (ss : List String) : Json := .arr (ss.map .str)

/-- The fields of an element. -/
def elementFields : ElementConfig → List (String × Json)
  | .requestSink c => [
      ("sink_id", .str c.sinkId), ("publisher_url", .str c.url),
      ("method", orNull (c.method?.map .str)), ("headers", .str c.headers),
      ("map", orNull (c.mapping?.map fun m => .str m.name)), ("attributes", texts c.attributes),
      ("download_enabled", .bool c.download),
      ("download_path", orNull (c.downloadPath?.map .str))]
  | .responseSink c => [
      ("source_id", .str c.sourceId), ("message_id", .str c.messageId),
      ("headers", .str c.headers), ("map", orNull (c.mapping?.map fun m => .str m.name)),
      ("status_code", .int c.status)]
  | .requestSource c => [
      ("source_id", .str c.sourceId), ("path", .str c.path), ("attributes", texts c.attributes)]
  | .responseSource c => [
      ("sink_id", .str c.sinkId),
      ("http_status_code", orNull (c.status?.map fun n => .int n)),
      ("download_enabled", .bool c.download)]

/-- The value of an element. -/
def ofElement (e : ElementConfig) : Json :=
  .ofPairs ((kindField, .str e.kind.name) :: elementFields e)

/-- The value of a pipeline. -/
def ofPipeline (p : PipelineConfig) : Json :=
  .ofPairs [("name", .str p.name), ("elements", .arr (p.elements.map ofElement))]

/-- The value of a configuration. -/
def ofConfig (c : Config) : Json :=
  .ofPairs [
    ("listener", .ofPairs [
      ("bind_address", .str c.listener.bindAddress),
      ("response_timeout_secs", .int c.listener.responseTimeout)]),
    ("workers", .ofPairs [
      ("pool_size", .int c.workers.poolSize),
      ("max_payload_bytes", .int c.workers.maxPayload)]),
    ("client", .ofPairs [
      ("connect_timeout_secs", .int c.client.connectTimeout),
      ("request_timeout_secs", .int c.client.requestTimeout),
      ("pool_idle_timeout_secs", .int c.client.idleTimeout),
      ("pool_max_idle_per_host", .int c.client.maxIdlePerHost)]),
    ("observability", .ofPairs [
      ("log_level", .str c.observability.logLevel),
      ("metrics_enabled", .bool c.observability.metricsEnabled),
      ("metrics_address", .str c.observability.metricsAddress)]),
    ("pipelines", .arr (c.pipelines.map ofPipeline))]

end Correlator.Schema
