import Correlator.Bridge.Step
import Correlator.Url.Authority
import Correlator.Url.Host

/-!
# The server

How a request that comes in over the network finds its source.

* `Server.canListen`: whether a process can listen at an address.
* `Server.Head`: what a request says before its body.
* `Server.endpoint`: where a request came in: the host that it names, or else the address that it
  was sent to.
* `Bridge.serve`: a request given to the exchange that serves its path, or told at once that there
  is none.
-/

namespace Correlator

namespace Server

/-- The address that the server listens at. -/
structure Address where
  host : String
  port : Nat
  deriving DecidableEq, Repr

/-- Whether a host is the machine itself, by whatever name. -/
def isHere : Host → Bool
  | .name cs => cs == "localhost".toList
  | .ipv4 n => n == 0 || n / Nat.pow 2 24 == 127
  | .ipv6 pieces => pieces.all (· == 0) || pieces == [0, 0, 0, 0, 0, 0, 0, 1]

/-- Whether a process can listen at an address, as far as can be told without knowing more of the
machine: the address names the machine itself, and a port. -/
def canListen (address : String) : Bool :=
  let cs := address.toList
  let host := (cs.take (cs.length - (Authority.afterLast ':' cs).length)).dropLast
  (Authority.portOf? (Authority.afterLast ':' cs)).isSome &&
    match Host.read host with
    | .ok host => isHere host
    | .error _ => false

/-- What a request says before its body. -/
structure Head where
  method : String
  path : String
  /-- The authority of a target that is written in full. -/
  authority? : Option String
  headers : List HeaderField

/-- The name of the header with the host. -/
def hostName := "host"

/-- The protocol of every request that comes in. -/
def protocol := "http"

/-- The text of the authority that a request names: that of its first host header if it is text,
or else that of its target. -/
def authorityText? (h : Head) : Option String :=
  match ((Block.values h.headers hostName).head?).bind HeaderValue.text? with
  | some text => some text
  | none => h.authority?

/-- Where a request came in. -/
def endpoint (here : Address) (h : Head) : Endpoint :=
  let named? := (authorityText? h).bind fun text => Authority.read? text.toList
  let (host, port) := match named? with
    | some a => (String.ofList a.host, a.port?.getD here.port)
    | none => (here.host, here.port)
  ⟨h.method, host, port, protocol, h.path, none⟩

/-- The reply to a request that nobody serves. -/
def notFound : Reply := .plain 404 "No source bound to path"

end Server

/-- A request that came in at an address. If its path is served it is counted and goes to the
exchange, where it waits for its reply; if not, it is replied to at once. -/
def Bridge.serve (b : Bridge) (here : Server.Address) (h : Server.Head) (body : Body) :
    Bridge × Option Reply :=
  match b.switchboard.routes.get? h.path with
  | none => (b, some Server.notFound)
  | some exchange =>
    ((b.count (.inboundRequests h.path)).receive exchange
      ⟨Server.endpoint here h, h.headers, body⟩, none)

end Correlator
