import Correlator.Text.Cut
import Correlator.Text.Octets

/-!
# File trees

The files and directories below one directory, which is the current one.

* `FileTree`: directories and files by their names from the current directory on.
* `FileTree.makeDirs`: a directory made, with those on the way to it.
* `FileTree.create`: a file made or emptied.
* `FileTree.writeAt`: bytes written to a file from a place on.
* `FileTree.listing`: everything in the tree, in the order of the paths.

Paths go through directories that are there; `.` and `..` are followed as they come. What lies
outside of the current directory is kept, but not listed.
-/

namespace Correlator

/-- Why something cannot be done in a file tree. -/
inductive FileError
  | notFound
  | exists
  | notDirectory
  | isDirectory
  | nameTooLong
  | nulByte
  deriving DecidableEq, Repr

/-- The text of a file error. -/
def FileError.message : FileError → String
  | .notFound => "No such file or directory (os error 2)"
  | .exists => "File exists (os error 17)"
  | .notDirectory => "Not a directory (os error 20)"
  | .isDirectory => "Is a directory (os error 21)"
  | .nameTooLong => "File name too long (os error 36)"
  | .nulByte => "file name contained an unexpected NUL byte"

/-- A file with its content, or a directory. -/
inductive FileEntry
  | file (content : Octets)
  | directory
  deriving DecidableEq, Repr

/-- The names from the current directory to a file or directory. A name that begins with `..` or
`/` lies outside of the current directory. -/
abbrev FileName := List String

/-- Whether a name lies below the current directory. -/
def FileName.isInside (name : FileName) : Bool :=
  name.head? != some ".." && name.head? != some "/"

/-- Files and directories by name. The current directory and those above it are always there. -/
structure FileTree where
  entries : List (FileName × FileEntry)
  deriving Repr

namespace FileTree

/-- An empty directory. -/
def empty : FileTree := ⟨[]⟩

instance : Inhabited FileTree := ⟨empty⟩

/-- What is there under a name. -/
def find? (t : FileTree) (name : FileName) : Option FileEntry :=
  if name.all fun part => part = ".." || part = "/" then some .directory else t.entries.lookup name

/-- The tree with something put under a name. -/
def put (t : FileTree) (name : FileName) (e : FileEntry) : FileTree :=
  ⟨(name, e) :: t.entries.filter fun (name', _) => name' != name⟩

/-! ## Paths -/

/-- The greatest number of bytes in one part of a path. -/
def maxNameBytes : Nat := 255

/-- The greatest number of bytes in a path. -/
def maxPathBytes : Nat := 4095

/-- The parts of a path that are not empty. -/
def parts (path : String) : List String :=
  ((Text.splitAt '/' path.toList).filter fun cs => !cs.isEmpty).map String.ofList

/-- Whether a path ends in a slash. -/
def endsInSlash (path : String) : Bool := path.toList.getLast? == some '/'

/-- The name that a path starts from: the current directory, or the root of all. -/
def startOf (path : String) : FileName :=
  if path.toList.head? == some '/' then ["/"] else []

/-- The name of the directory above. -/
def above (name : FileName) : FileName :=
  match name.getLast? with
  | none => [".."]
  | some ".." => name ++ [".."]
  | some "/" => name
  | some _ => name.dropLast

/-- The directory that a part of a path leads to. -/
def step (t : FileTree) (name : FileName) (part : String) : Except FileError FileName :=
  if part = "." then .ok name
  else if part = ".." then .ok (above name)
  else if maxNameBytes < part.utf8ByteSize then .error .nameTooLong
  else
    match t.find? (name ++ [part]) with
    | some .directory => .ok (name ++ [part])
    | some (.file _) => .error .notDirectory
    | none => .error .notFound

/-- The directory that parts of a path lead to, one after the other. -/
def walk (t : FileTree) (name : FileName) : List String → Except FileError FileName
  | [] => .ok name
  | part :: rest =>
    match t.step name part with
    | .ok name => walk t name rest
    | .error e => .error e

/-- What is wrong with a path before anything is looked up. -/
def pathError? (path : String) : Option FileError :=
  if path.toList.any (· == '\x00') then some .nulByte
  else if path.isEmpty then some .notFound
  else if maxPathBytes < path.utf8ByteSize then some .nameTooLong
  else none

/-- The name that a path stands for, if the directory is there that it would be in; none if its
last part is `.` or `..`, which are always there. -/
def locate (t : FileTree) (path : String) : Except FileError (Option FileName) :=
  match pathError? path with
  | some e => .error e
  | none =>
    match t.walk (startOf path) (parts path).dropLast with
    | .error e => .error e
    | .ok name =>
      match (parts path).getLast? with
      | none => .ok none
      | some last =>
        if last = "." ∨ last = ".." then .ok none
        else if maxNameBytes < last.utf8ByteSize then .error .nameTooLong
        else .ok (some (name ++ [last]))

/-! ## Directories -/

/-- Whether a path leads to a directory. -/
def isDirectory (t : FileTree) (path : String) : Bool :=
  match pathError? path with
  | some _ => false
  | none =>
    match t.walk (startOf path) (parts path) with
    | .ok _ => true
    | .error _ => false

/-- One directory made. -/
def makeDir (t : FileTree) (path : String) : Except FileError FileTree :=
  match t.locate path with
  | .error e => .error e
  | .ok none => .error .exists
  | .ok (some name) =>
    match t.find? name with
    | some _ => .error .exists
    | none => .ok (t.put name .directory)

/-- The part of a path before its last part that counts; blank parts and `.` do not, but for a `.`
at the beginning. -/
def parent? (path : String) : Option String :=
  let counts (i : Nat) (part : List Char) : Bool :=
    !part.isEmpty && (part != ['.'] || i == 0)
  let pieces := Text.splitAt '/' path.toList
  let indexed := pieces.zipIdx.reverse
  match indexed.dropWhile fun (part, i) => !counts i part with
  | [] => if path.isEmpty then none else some ""
  | _ :: rest =>
    let kept := (rest.dropWhile fun (part, i) => !counts i part).reverse
    if kept.isEmpty && path.toList.head? == some '/' then some "/"
    else some (String.ofList (List.intercalate ['/'] (kept.map (·.1))))

/-- A directory made, with the directories on the way to it, of which those that were made stay
even if the last one cannot be made. `fuel` bounds their number. -/
def makeDirs (t : FileTree) (path : String) : Nat → Except FileError Unit × FileTree
  | 0 => (.error .notFound, t)
  | fuel + 1 =>
    if path.isEmpty then (.ok (), t)
    else
      match t.makeDir path with
      | .ok t => (.ok (), t)
      | .error .notFound =>
        match parent? path with
        | none => (.error .notFound, t)
        | some parent =>
          match makeDirs t parent fuel with
          | (.error e, t) => (.error e, t)
          | (.ok (), t) =>
            match t.makeDir path with
            | .ok t => (.ok (), t)
            | .error e => (if t.isDirectory path then .ok () else .error e, t)
      | .error e => (if t.isDirectory path then .ok () else .error e, t)

/-! ## Files -/

/-- A file made, or emptied if it is there. -/
def create (t : FileTree) (path : String) : Except FileError (FileTree × FileName) :=
  match t.locate path with
  | .error e => .error e
  | .ok none => .error .isDirectory
  | .ok (some name) =>
    if endsInSlash path then .error .isDirectory
    else
      match t.find? name with
      | some .directory => .error .isDirectory
      | _ => .ok (t.put name (.file []), name)

/-- Content with bytes written from a place on; a gap before the place is filled with zeros. -/
def overwrite (content : Octets) (place : Nat) (bs : Octets) : Octets :=
  content.take place ++ List.replicate (place - content.length) 0 ++ bs ++
    content.drop (place + bs.length)

/-- Bytes written to a file from a place on. -/
def writeAt (t : FileTree) (name : FileName) (place : Nat) (bs : Octets) : FileTree :=
  match t.find? name with
  | some (.file content) => t.put name (.file (overwrite content place bs))
  | _ => t

/-- The content of the file that a path leads to. -/
def read? (t : FileTree) (path : String) : Option Octets :=
  match t.locate path with
  | .ok (some name) =>
    match t.find? name with
    | some (.file content) => if endsInSlash path then none else some content
    | _ => none
  | _ => none

/-- A directory or a file put at a path, with the directories on the way to it. -/
def place (t : FileTree) (path : String) (content? : Option Octets) : FileTree :=
  let makeAll (t : FileTree) (path : String) : FileTree := (t.makeDirs path (path.length + 1)).2
  match content? with
  | none => makeAll t path
  | some content =>
    let t := ((parent? path).map (makeAll t)).getD t
    match t.create path with
    | .ok (t, name) => t.writeAt name 0 content
    | .error _ => t

/-- Everything below the current directory, in the order of the paths; a directory is written with
a slash. -/
def listing (t : FileTree) : List (String × Option Octets) :=
  ((t.entries.filter fun (name, _) => name.isInside).map fun (name, e) =>
    match e with
    | .file content => ("/".intercalate name, some content)
    | .directory => ("/".intercalate name ++ "/", none)).mergeSort fun a b => a.1 ≤ b.1

end FileTree

end Correlator
