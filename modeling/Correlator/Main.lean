import Correlator.CommandLine
import Correlator.Service

/-!
# The program

The command line read, the pipelines of a configuration started, and stopped again once the
standard input ends.
-/

namespace Correlator

/-- The bytes of a file, if it can be read. -/
def readFile? (path : String) : IO (Option Octets) := do
  try
    return some (← IO.FS.readBinFile path).toList
  catch _ => return none

/-- Everything that comes in on a stream is passed over until it ends. -/
partial def awaitEnd (input : IO.FS.Stream) : IO Unit := do
  if (← input.getLine).isEmpty then return
  awaitEnd input

/-- The bridge run with the configuration at a path. -/
def runBridge (path : String) : IO UInt32 := do
  match Service.launch (← readFile? path) Server.canListen with
  | .error e =>
    IO.eprintln e.message
    return e.exitStatus.toUInt32
  | .ok p =>
    awaitEnd (← IO.getStdin)
    let b := p.stop
    for (series, value) in b.meter.readings do
      IO.println (series ++ " " ++ Key.statusText value)
    return 0

end Correlator

open Correlator in
/-- The program. -/
def main (args : List String) : IO UInt32 := do
  match Command.ofArguments args with
  | .help =>
    IO.print Command.helpText
    return 0
  | .version =>
    IO.print Command.versionText
    return 0
  | .misuse =>
    IO.eprint Command.helpText
    return 2
  | .run path => runBridge path
