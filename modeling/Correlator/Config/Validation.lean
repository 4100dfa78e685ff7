import Correlator.Config.Basic
import Correlator.Text.Blank
import Correlator.Text.Cut
import Correlator.Url.Parser

/-!
# Validation

What a configuration may say beyond its form.

* `Problem`: what can be wrong, and `Problem.message`, its text.
* `Config.problems`: everything that is wrong, in the order of the document.

Ids of one kind, paths and names are compared over the whole document, and each repetition counts
once. An element without an id is only reported as such, and a path that does not begin with a
slash is compared with none.
-/

namespace Correlator

/-- Something that is wrong with a configuration. -/
inductive Problem
  | zeroPoolSize
  | emptyPipelineName
  | duplicatePipeline (name : String)
  | missingId (pipeline : String) (kind : ElementKind)
  | duplicateId (kind : ElementKind) (id : String)
  | invalidUrl (sinkId url : String)
  | missingDownloadPath (sinkId : String)
  | invalidPath (sourceId path : String)
  | duplicatePath (path : String)
  deriving DecidableEq, Repr

namespace Problem

/-- The text of a problem. -/
def message : Problem → String
  | .zeroPoolSize => "workers.pool_size must be greater than 0"
  | .emptyPipelineName => "pipeline name must not be empty"
  | .duplicatePipeline name => "duplicate pipeline name '" ++ name ++ "'"
  | .missingId pipeline kind =>
    kind.name ++ " in pipeline '" ++ pipeline ++ "' is missing its id"
  | .duplicateId kind id => kind.name ++ " id '" ++ id ++ "' is declared more than once"
  | .invalidUrl sinkId url => "sink '" ++ sinkId ++ "' has invalid publisher_url '" ++ url ++ "'"
  | .missingDownloadPath sinkId =>
    "sink '" ++ sinkId ++ "' enables downloading without a download_path"
  | .invalidPath sourceId path =>
    "source '" ++ sourceId ++ "' path '" ++ path ++ "' must start with '/'"
  | .duplicatePath path => "inbound path '" ++ path ++ "' is served by more than one source"

end Problem

namespace Config

/-- Whether a path begins with a slash. -/
def isRooted (path : String) : Bool := path.toList.head? == some '/'

/-- What an element registers under: its kind, its id, and the status that refines it. -/
abbrev Registration := ElementKind × String × Option Nat

/-- What has been seen of a document: names, registrations and paths, and the problems so far,
last problem first. -/
structure Survey where
  names : List String
  registrations : List Registration
  paths : List String
  found : List Problem

namespace Survey

/-- A problem more, if there is one. -/
def report (s : Survey) (wrong : Bool) (p : Problem) : Survey :=
  if wrong then { s with found := p :: s.found } else s

/-- A registration, which must be the first of its kind. -/
def register (s : Survey) (r : Registration) : Survey :=
  if s.registrations.contains r then s.report true (.duplicateId r.1 r.2.1)
  else { s with registrations := r :: s.registrations }

/-- A path, which must begin with a slash and be the first of its kind. -/
def path (s : Survey) (sourceId path : String) : Survey :=
  if !isRooted path then s.report true (.invalidPath sourceId path)
  else if s.paths.contains path then s.report true (.duplicatePath path)
  else { s with paths := path :: s.paths }

/-- The name of a pipeline, which must be there and be the first of its kind. -/
def name (s : Survey) (name : String) : Survey :=
  if Text.isBlank name then s.report true .emptyPipelineName
  else if s.names.contains name then s.report true (.duplicatePipeline name)
  else { s with names := name :: s.names }

/-- Whether the URL of a sink is neither a template nor a URL. -/
def isBadUrl (url : String) : Bool :=
  !Text.hasMark ['\x7b', '\x7b'] url.toList &&
    match Url.parse url with
    | .ok _ => false
    | .error _ => true

/-- Whether a sink has no path to download to. -/
def lacksPath (c : RequestSinkConfig) : Bool :=
  match c.downloadPath? with
  | some path => Text.isBlank path
  | none => true

/-- An element of a pipeline. -/
def element (pipeline : String) (s : Survey) (e : ElementConfig) : Survey :=
  if Text.isBlank e.owner then s.report true (.missingId pipeline e.kind)
  else
    match e with
    | .requestSink c =>
      ((s.report (isBadUrl c.url) (.invalidUrl c.sinkId c.url)).report
        (c.download && lacksPath c) (.missingDownloadPath c.sinkId)).register
        (.requestSink, c.sinkId, none)
    | .requestSource c =>
      (s.path c.sourceId c.path).register (.requestSource, c.sourceId, none)
    | .responseSource c => s.register (.responseSource, c.sinkId, c.status?)
    | .responseSink _ => s

/-- A pipeline and its elements. -/
def pipeline (s : Survey) (p : PipelineConfig) : Survey :=
  p.elements.foldl (element p.name) (s.name p.name)

end Survey

/-- Everything that is wrong with a configuration, in the order of the document. -/
def problems (c : Config) : List Problem :=
  let start : Survey := ⟨[], [], [], []⟩
  let start := start.report (c.workers.poolSize == 0) .zeroPoolSize
  (c.pipelines.foldl Survey.pipeline start).found.reverse

end Config

end Correlator
