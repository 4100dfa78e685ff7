import Correlator.Fault
import Correlator.FileTree
import Correlator.Gates
import Correlator.Text.Lines

/-!
# Bodies

A body arrives in pieces. It may break off with an error, and it may be held up at a gate.

* `Body`: the pieces that are to come; `BodyError`: why they break off.
* `Intake`: what takes a body in: it is collected up to a limit, or saved to a file.
* `Intake.take`: one chunk taken in.
* `Intake.run`: a body taken in up to a gate that holds the task up, its first error, or its end.
* `Body.payload`, `Body.download`: a whole body.

Only the bytes count, not the chunks that they come in: a chunk that goes beyond the limit ends
the reading at once, and so does the first error.
-/

namespace Correlator

/-- Why a body breaks off. -/
inductive BodyError
  /-- Some error, by its text. -/
  | other (text : String)
  /-- A fault of this library. -/
  | fault (f : Fault)
  /-- An error that wraps the one that it came of, by its own text. -/
  | wrapped (text : String) (cause : BodyError)
  deriving DecidableEq, Repr

namespace BodyError

/-- The text of an error, whatever it wraps. -/
def text : BodyError → String
  | .other text => text
  | .fault f => f.message
  | .wrapped text _ => text

/-- The URL and the reason of the lost connection that an error is, or that it came of. -/
def lost? : BodyError → Option (String × String)
  | .fault (.unavailable url reason) => some (url, reason)
  | .wrapped _ cause => cause.lost?
  | _ => none

/-- The fault that a reader of a broken body reports: a lost connection as it is, and anything
else as a payload that cannot be read. -/
def toFault (e : BodyError) : Fault :=
  match e.lost? with
  | some (url, reason) => .unavailable url reason
  | none => .payload e.text

end BodyError

/-- A piece of a body. -/
inductive Piece
  | chunk (bs : Octets)
  | broken (e : BodyError)
  /-- Nothing comes until the gate lets one task through. -/
  | gate (name : String)
  deriving DecidableEq, Repr

/-- The pieces of a body, in their order. -/
abbrev Body := List Piece

/-! ## Taking bodies in -/

/-- What takes a body in. -/
inductive Intake
  /-- Chunks collected, last chunk first, and the number of bytes that may still come. -/
  | collect (chunks : List Octets) (room : Nat)
  /-- A file, and the number of bytes written to it. -/
  | save (name : FileName) (written : Nat)
  deriving DecidableEq, Repr

/-- What a body that was taken in amounts to. -/
inductive Taken
  | text (payload : String)
  | saved (bytes : Nat)
  deriving DecidableEq, Repr

namespace Intake

/-- The fault of a body that is too long. -/
def tooLong : Fault := .payload "length limit exceeded"

/-- One chunk taken in. -/
def take (i : Intake) (files : FileTree) (bs : Octets) : Except Fault Intake × FileTree :=
  match i with
  | .collect chunks room =>
    if room < bs.length then (.error tooLong, files)
    else (.ok (.collect (bs :: chunks) (room - bs.length)), files)
  | .save name written =>
    (.ok (.save name (written + bs.length)), files.writeAt name written bs)

/-- What has been taken in, once the body has ended. -/
def finish : Intake → Taken
  | .collect chunks _ => .text (Text.payloadText chunks.reverse.flatten)
  | .save _ written => .saved written

/-- How far a body was taken in. -/
inductive Progress
  | ended (result : Except Fault Taken)
  /-- Held up at a gate, with what comes after it. -/
  | held (i : Intake) (rest : Body)

/-- A body taken in up to the first gate that holds the task up, its first error, or its end. -/
def run (i : Intake) (files : FileTree) (gates : Gates α) (task : α) :
    Body → Progress × FileTree × Gates α
  | [] => (.ended (.ok i.finish), files, gates)
  | .chunk bs :: rest =>
    match i.take files bs with
    | (.ok i, files) => run i files gates task rest
    | (.error e, files) => (.ended (.error e), files, gates)
  | .broken e :: _ => (.ended (.error e.toFault), files, gates)
  | .gate name :: rest =>
    match gates.arrive name task with
    | (gates, true) => run i files gates task rest
    | (gates, false) => (.held i rest, files, gates)

/-- A body taken in, with every gate open. -/
def runThrough (i : Intake) (files : FileTree) : Body → Except Fault Taken × FileTree
  | [] => (.ok i.finish, files)
  | .chunk bs :: rest =>
    match i.take files bs with
    | (.ok i, files) => runThrough i files rest
    | (.error e, files) => (.error e, files)
  | .broken e :: _ => (.error e.toFault, files)
  | .gate _ :: rest => runThrough i files rest

/-- Nothing collected yet. -/
def collecting (limit : Nat) : Intake := .collect [] limit

/-- The fault of a path that cannot be made. -/
def cannotCreate (path : String) (e : FileError) : Fault :=
  .payload ("create " ++ path ++ ": " ++ e.message)

/-- A file made to save a body in, and the directories on the way to it. -/
def saving (files : FileTree) (path : String) : Except Fault Intake × FileTree :=
  let (made, files) : Except Fault Unit × FileTree :=
    match FileTree.parent? path with
    | none => (.ok (), files)
    | some parent =>
      match files.makeDirs parent (parent.length + 1) with
      | (.ok (), files) => (.ok (), files)
      | (.error e, files) => (.error (cannotCreate parent e), files)
  match made with
  | .error e => (.error e, files)
  | .ok () =>
    match files.create path with
    | .ok (files, name) => (.ok (.save name 0), files)
    | .error e => (.error (cannotCreate path e), files)

end Intake

/-! ## Whole bodies -/

namespace Body

/-- The payload of a body of at most `limit` bytes. -/
def payload (body : Body) (limit : Nat) : Except Fault String :=
  match (Intake.runThrough (.collecting limit) .empty body).1 with
  | .ok (.text payload) => .ok payload
  | .ok (.saved _) => .ok ""
  | .error e => .error e

/-- A body saved in a file: the number of its bytes. -/
def download (body : Body) (files : FileTree) (path : String) : Except Fault Nat × FileTree :=
  match Intake.saving files path with
  | (.error e, files) => (.error e, files)
  | (.ok intake, files) =>
    match intake.runThrough files body with
    | (.ok (.saved bytes), files) => (.ok bytes, files)
    | (.ok (.text _), files) => (.ok 0, files)
    | (.error e, files) => (.error e, files)

end Body

end Correlator
