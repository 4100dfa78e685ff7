import Correlator.Config.Basic
import Correlator.Exchange
import Correlator.Registry
import Correlator.Routes

/-!
# The switchboard

The three tables that all elements share: who takes responses, which exchange belongs to a source,
and which exchange serves a path.

* `Forwarder`: the listener of a response source. It hands events on until it is closed.
* `Switchboard`: the tables, with every forwarder and exchange that there ever was.
* `Switchboard.plugForwarder`, `Switchboard.pullForwarder`: a response source comes and goes.
* `Switchboard.plugExchange`, `Switchboard.pullExchange`: a request source comes and goes.

A forwarder or an exchange is known by its number, which is never used again. So whoever has kept
one from before its source went finds it closed, even if another took its place.
-/

namespace Correlator

/-- The listener of a response source. -/
structure Forwarder where
  consumer : Consumer
  isOpen : Bool
  deriving Inhabited

/-- A forwarder that hands nothing on any more. -/
def Forwarder.close (f : Forwarder) : Forwarder := { f with isOpen := false }

/-- The tables that all elements share. -/
structure Switchboard where
  /-- The numbers of forwarders by key. -/
  responses : Registry Nat
  /-- The numbers of exchanges by key. -/
  exchanges : Registry Nat
  /-- The numbers of exchanges by path. -/
  routes : Routes Nat
  forwarderList : List Forwarder
  exchangeList : List Exchange

namespace Switchboard

/-- Nothing is registered. -/
def empty : Switchboard := ⟨.empty, .empty, .empty, [], []⟩

instance : Inhabited Switchboard := ⟨empty⟩

/-- The forwarder of a number. -/
def forwarder? (s : Switchboard) (n : Nat) : Option Forwarder := s.forwarderList[n]?

/-- The exchange of a number. -/
def exchange? (s : Switchboard) (n : Nat) : Option Exchange := s.exchangeList[n]?

/-- The switchboard with an exchange changed. -/
def alterExchange (s : Switchboard) (n : Nat) (f : Exchange → Exchange) : Switchboard :=
  { s with exchangeList := s.exchangeList.modify n f }

/-! ## Response sources -/

/-- The key that a response source registers under. -/
def responseKey (c : ResponseSourceConfig) : Key :=
  match c.status? with
  | some status => .forStatus c.sinkId status
  | none => .plain c.sinkId

/-- A forwarder for a response source, unless its key is taken. -/
def plugForwarder (s : Switchboard) (c : ResponseSourceConfig) (pipeline : String)
    (consumer : Consumer) : Except Fault Switchboard :=
  match s.responses.register ⟨responseKey c, pipeline, c.download, s.forwarderList.length⟩ with
  | .ok responses =>
    .ok { s with responses, forwarderList := s.forwarderList ++ [⟨consumer, true⟩] }
  | .error e => .error e

/-- The forwarder of a response source taken out and closed. -/
def pullForwarder (s : Switchboard) (c : ResponseSourceConfig) (pipeline : String) :
    Switchboard :=
  match s.responses.unregister? (responseKey c) pipeline with
  | some (l, responses) =>
    { s with responses, forwarderList := s.forwarderList.modify l.handler Forwarder.close }
  | none => s

/-! ## Request sources -/

/-- The exchange under a key taken out and disconnected. -/
def unregisterExchange (s : Switchboard) (key : Key) (pipeline : String) : Switchboard :=
  match s.exchanges.unregister? key pipeline with
  | some (l, exchanges) => { s with exchanges }.alterExchange l.handler Exchange.disconnect
  | none => s

/-- An exchange for a request source, which serves the source's path. If its id is taken nothing
is changed; if its path is bound the exchange is taken out again. -/
def plugExchange (s : Switchboard) (c : RequestSourceConfig) (pipeline : String)
    (consumer : Consumer) : Switchboard × Except Fault Unit :=
  let n := s.exchangeList.length
  match s.exchanges.register ⟨.plain c.sourceId, pipeline, false, n⟩ with
  | .error e => (s, .error e)
  | .ok exchanges =>
    let s :=
      { s with exchanges, exchangeList := s.exchangeList ++ [Exchange.new c.attributes consumer] }
    match s.routes.bind c.path pipeline n with
    | .error e => (s.unregisterExchange (.plain c.sourceId) pipeline, .error e)
    | .ok routes => ({ s with routes }, .ok ())

/-- A request source gives up its path, and then its exchange. -/
def pullExchange (s : Switchboard) (c : RequestSourceConfig) (pipeline : String) : Switchboard :=
  let routes := (s.routes.unbind? c.path pipeline).getD s.routes
  { s with routes }.unregisterExchange (.plain c.sourceId) pipeline

end Switchboard

end Correlator
