import Correlator.Bridge.Step
import Correlator.Config.Document
import Correlator.Server

/-!
# The service

A bridge with all the pipelines of a configuration, from its start to its end.

* `Service.start`: the pipelines built and started one after another. If one of them cannot be,
  those before it are shut down again, last pipeline first.
* `Service.stop`: the pipelines shut down, last pipeline first, and then the pool closed.
* `Service.launch`: all that comes before the first request: the configuration is read, the
  address is looked at, and the pipelines are started.
-/

namespace Correlator

/-- Why a service comes to its end before it serves anybody. -/
inductive LaunchError
  | config (e : ConfigError)
  /-- There can be no pool of the size asked for. -/
  | poolSize
  /-- Nobody can listen at the address. -/
  | address
  | pipeline (fault : Fault)

/-- A bridge and its pipelines, last pipeline first. -/
structure Service where
  bridge : Bridge
  pipelines : List Pipeline

namespace Service

/-- Pipelines shut down one after another. -/
def shutdownAll (b : Bridge) (pipelines : List Pipeline) : Bridge :=
  pipelines.foldl (fun b p => (b.shutdown p).1) b

/-- The consumer of an element of a pipeline: one that never fails. -/
def consumer (c : PipelineConfig) (n : Nat) : Consumer :=
  .steady (c.name ++ "/" ++ ((c.elements[n]?).map ElementConfig.owner).getD "")

/-- A pipeline built and started. -/
def startPipeline (b : Bridge) (c : PipelineConfig) : Bridge × Except Fault Pipeline :=
  match Pipeline.ofConfig c (consumer c) fun _ => false with
  | .error fault => (b, .error fault)
  | .ok p =>
    let (b, p, result) := b.start p
    (b, result.map fun _ => p)

/-- Pipelines started after those that were started before. -/
def startFrom (b : Bridge) (started : List Pipeline) :
    List PipelineConfig → Bridge × Except Fault (List Pipeline)
  | [] => (b, .ok started)
  | c :: rest =>
    match startPipeline b c with
    | (b, .ok p) => startFrom b (p :: started) rest
    | (b, .error fault) => (shutdownAll b started, .error fault)

/-- All pipelines of a configuration started on a bridge. -/
def start (b : Bridge) (c : Config) : Bridge × Except Fault (List Pipeline) :=
  startFrom b [] c.pipelines

/-- The pipelines shut down and the pool closed. -/
def stop (s : Service) : Bridge := (shutdownAll s.bridge s.pipelines).closePool

/-- All that comes before the first request, given the bytes of the configuration and whether
anybody can listen at an address. -/
def launch (document? : Option Octets) (canListen : String → Bool) :
    Except LaunchError Service :=
  match document?.elim (.error .unreadable) Config.ofBytes with
  | .error e => .error (.config e)
  | .ok c =>
    match Bridge.new? c .empty with
    | none => .error .poolSize
    | some b =>
      if !canListen c.listener.bindAddress then .error .address
      else
        match start b c with
        | (_, .error fault) => .error (.pipeline fault)
        | (bridge, .ok pipelines) => .ok ⟨bridge, pipelines⟩

end Service

/-- The exit status of a service that ends before it serves anybody. -/
def LaunchError.exitStatus : LaunchError → Nat
  | .config _ => 1
  | .poolSize => 101
  | .address => 1
  | .pipeline _ => 1

/-- The text of a launch error. -/
def LaunchError.message : LaunchError → String
  | .config .unreadable => "the configuration cannot be read"
  | .config .malformed => "the configuration is malformed"
  | .config (.invalid problems) => ConfigError.invalidMessage problems
  | .poolSize => "a pool of this size is not possible"
  | .address => "nobody can listen at this address"
  | .pipeline fault => fault.message

end Correlator
