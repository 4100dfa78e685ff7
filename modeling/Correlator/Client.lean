import Correlator.Clock
import Correlator.Config.Basic
import Correlator.Fault
import Correlator.Message
import Correlator.Url.Authority

/-!
# The client

How a request that goes out fares, given what happens on the wire. The time that is configured
bounds the whole exchange: a response has to begin before the deadline, and all of its body has to
come before it.

* `Client.check`: whether a request can be sent at all.
* `Client.deadline?`: the end of the time of an exchange.
* `Client.bounded`: the body of a response, cut off at the deadline.
* `Client.outcome`: the response to a request, or why there is none.

A body that breaks off, or does not end in time, ends in one fault that names the URL, so nobody
takes a part of a body for the whole.
-/

namespace Correlator

/-- What arrives of the body of a response. -/
inductive Arrival
  | chunk (bs : Octets)
  | failure (reason : String)
  | finish
  deriving DecidableEq, Repr

/-- What happens to a request on the wire. -/
inductive Wire
  /-- No connection can be made. -/
  | noConnection
  /-- The connection is closed before there is a response. -/
  | hangUp
  /-- There never is a response. -/
  | silence
  /-- A response begins at some time; its body arrives, each part of it with the time when it
  comes, and if there is no end to it then nothing more ever comes. -/
  | response (time status : Nat) (headers : List HeaderField) (arrivals : List (Nat × Arrival))

namespace Client

/-! ## Before the request is sent -/

/-- The only scheme that requests are sent under. -/
def scheme := "http"

/-- The greatest length of a URL. -/
def maxUrlLength : Nat := 65534

/-- The fault of a URL with another scheme. -/
def unsupported (url : Url) : Fault :=
  .invalidRequest ("unsupported scheme '" ++ url.schemeText ++ "' in " ++ url.text)

/-- Whether a request can be sent at all. -/
def check (r : Request) : Except Fault Unit :=
  if r.url.schemeText ≠ scheme then .error (unsupported r.url)
  else if maxUrlLength < r.url.chars.length then .error (.invalidRequest "uri too long")
  else if r.url.hostText.toList.all Authority.isAllowed then .ok ()
  else .error (.invalidRequest "invalid uri character")

/-- The end of the time of an exchange that begins now, if the clock can hold it. -/
def deadline? (c : ClientConfig) (now : Nat) : Option Nat := Clock.after? now c.requestTimeout

/-! ## The response -/

/-- A request whose response was not obtained. -/
def unavailable (r : Request) (reason : String) : Fault := .unavailable r.url.text reason

/-- So many seconds, as faults tell them. -/
def secondsText (n : Nat) : String := String.ofList (Nat.toDigits 10 n) ++ "s"

/-- There was no response in time. -/
def lateResponse (c : ClientConfig) (r : Request) : Fault :=
  unavailable r ("no response within " ++ secondsText c.requestTimeout)

/-- The body was not complete in time. -/
def lateBody (c : ClientConfig) (r : Request) : Fault :=
  unavailable r ("response body not complete within " ++ secondsText c.requestTimeout)

/-- The body broke off. -/
def brokenBody (r : Request) (reason : String) : Fault :=
  unavailable r ("response body failed: " ++ reason)

/-- The body of a response: what arrives before the deadline, up to its end or the first failure. -/
def bounded (c : ClientConfig) (r : Request) (deadline : Nat) : List (Nat × Arrival) → Body
  | [] => [.broken (.fault (lateBody c r))]
  | (time, arrival) :: rest =>
    if deadline ≤ time then [.broken (.fault (lateBody c r))]
    else
      match arrival with
      | .chunk bs => .chunk bs :: bounded c r deadline rest
      | .failure reason => [.broken (.fault (brokenBody r reason))]
      | .finish => []

/-- The response to a request, or why there is none. -/
def outcome (c : ClientConfig) (r : Request) (deadline : Nat) (w : Wire) : Except Fault Message :=
  match w with
  | .noConnection => .error (unavailable r "client error (Connect)")
  | .hangUp => .error (unavailable r "client error (SendRequest)")
  | .silence => .error (lateResponse c r)
  | .response time status headers arrivals =>
    if deadline ≤ time then .error (lateResponse c r)
    else .ok ⟨r.endpoint.withStatus status, headers, bounded c r deadline arrivals⟩

end Client

end Correlator
