import Correlator.Text.Utf8

/-!
# Lines of a payload

A body is read as lines that are put together again with bare line feeds, so that neither the
kind of line ending nor a last one shows in the payload.

* `lines`: the lines of a text; a line ends at a line feed, with the carriage return right before
  it, and a carriage return elsewhere is part of its line.
* `payloadText`: the payload that a body stands for.
-/

namespace Correlator.Text

/-- The lines of a text, given what has been read of the current line, last character first,
and the lines before it, last line first. -/
def linesFrom (line : List Char) (done : List (List Char)) : List Char → List (List Char)
  | [] => (if line.isEmpty then done else line.reverse :: done).reverse
  | '\n' :: cs =>
    let ended := match line with
      | '\r' :: line => line
      | line => line
    linesFrom [] (ended.reverse :: done) cs
  | c :: cs => linesFrom (c :: line) done cs

/-- The lines of a text, without the line feeds that end them. -/
def lines (cs : List Char) : List (List Char) := linesFrom [] [] cs

/-- A text with its lines separated by single line feeds and none at its end. -/
def rejoin (cs : List Char) : List Char := List.intercalate ['\n'] (lines cs)

/-- The payload that a body stands for: its text, with its lines rejoined. -/
def payloadText (bs : Octets) : String := String.ofList (rejoin (Utf8.decode bs))

end Correlator.Text
