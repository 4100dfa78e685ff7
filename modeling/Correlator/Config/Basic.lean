import Correlator.Header.Mapping

/-!
# Configuration

What is configured of a bridge and its pipelines.

* `Config`: the whole configuration.
* `ElementConfig`: a sink or source of one of four kinds, with `ElementConfig.owner`, the id that
  it registers or publishes under.

Every section has defaults, so that the empty configuration is one.
-/

namespace Correlator

/-- The inbound listener. -/
structure ListenerConfig where
  bindAddress : String := "0.0.0.0:8280"
  /-- How long a request waits for its reply, in seconds. -/
  responseTimeout : Nat := 60
  deriving DecidableEq, Repr, Inhabited

/-- The worker pool that all pipelines share. -/
structure WorkerConfig where
  poolSize : Nat := 5
  /-- The greatest number of bytes that are read of one payload. -/
  maxPayload : Nat := 2 * 1024 * 1024
  deriving DecidableEq, Repr, Inhabited

/-- The client for requests to other servers; times are in seconds. -/
structure ClientConfig where
  connectTimeout : Nat := 5
  /-- How long the whole exchange may take, the body of the response included. -/
  requestTimeout : Nat := 30
  idleTimeout : Nat := 90
  maxIdlePerHost : Nat := 32
  deriving DecidableEq, Repr, Inhabited

/-- Logging and metrics. -/
structure ObservabilityConfig where
  logLevel : String := "info"
  metricsEnabled : Bool := false
  metricsAddress : String := "0.0.0.0:9090"
  deriving DecidableEq, Repr, Inhabited

/-- A sink that sends events as requests. -/
structure RequestSinkConfig where
  sinkId : String
  /-- The template of the URL. -/
  url : String
  method? : Option String
  /-- The template of the header listing. -/
  headers : String
  mapping? : Option Mapping
  /-- The attributes that the events of responses carry on. -/
  attributes : List String
  /-- Whether bodies of responses are written to files. -/
  download : Bool
  /-- The template of the file's path. -/
  downloadPath? : Option String
  deriving DecidableEq, Repr, Inhabited

/-- A sink that answers waiting requests. -/
structure ResponseSinkConfig where
  sourceId : String
  /-- The template of the id of the request. -/
  messageId : String
  /-- The template of the header listing. -/
  headers : String
  mapping? : Option Mapping
  status : Nat
  deriving DecidableEq, Repr, Inhabited

/-- A source of requests that expect a reply. -/
structure RequestSourceConfig where
  sourceId : String
  path : String
  attributes : List String
  deriving DecidableEq, Repr, Inhabited

/-- A source of the responses of a request sink. -/
structure ResponseSourceConfig where
  sinkId : String
  /-- The status of the responses that it takes; all if there is none. -/
  status? : Option Nat
  download : Bool
  deriving DecidableEq, Repr, Inhabited

/-- A configured sink or source. -/
inductive ElementConfig
  | requestSink (c : RequestSinkConfig)
  | responseSink (c : ResponseSinkConfig)
  | requestSource (c : RequestSourceConfig)
  | responseSource (c : ResponseSourceConfig)
  deriving DecidableEq, Repr, Inhabited

/-- The four kinds of elements. -/
inductive ElementKind
  | requestSink
  | responseSink
  | requestSource
  | responseSource
  deriving DecidableEq, Repr

/-- The name of a kind of elements. -/
def ElementKind.name : ElementKind → String
  | .requestSink => "http-request-sink"
  | .responseSink => "http-response-sink"
  | .requestSource => "http-request-source"
  | .responseSource => "http-response-source"

/-- Whether elements of the kind take events. -/
def ElementKind.isSink : ElementKind → Bool
  | .requestSink => true
  | .responseSink => true
  | .requestSource => false
  | .responseSource => false

/-- The kind of a name. -/
def ElementKind.ofName? (s : String) : Option ElementKind :=
  [requestSink, responseSink, requestSource, responseSource].find? fun k => k.name = s

namespace ElementConfig

/-- The kind of an element. -/
def kind : ElementConfig → ElementKind
  | .requestSink _ => .requestSink
  | .responseSink _ => .responseSink
  | .requestSource _ => .requestSource
  | .responseSource _ => .responseSource

/-- The id that an element registers or publishes under. -/
def owner : ElementConfig → String
  | .requestSink c => c.sinkId
  | .responseSink c => c.sourceId
  | .requestSource c => c.sourceId
  | .responseSource c => c.sinkId

end ElementConfig

/-- A named pipeline and its elements. -/
structure PipelineConfig where
  name : String
  elements : List ElementConfig
  deriving DecidableEq, Repr, Inhabited

/-- The whole configuration. -/
structure Config where
  listener : ListenerConfig := {}
  workers : WorkerConfig := {}
  client : ClientConfig := {}
  observability : ObservabilityConfig := {}
  pipelines : List PipelineConfig := []
  deriving DecidableEq, Repr, Inhabited

end Correlator
