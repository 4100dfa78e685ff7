/-!
# The command line

* `Command`: what is asked for.
* `Command.ofArguments`: the command that arguments stand for.
* `Command.help`, `Command.version`: what is printed when help or the version is asked for.

There is one option with a value, the path of the configuration. The value may stand in the next
argument or be joined to the option, and it may be given once. Help and the version are printed as
soon as they are asked for, unless something was wrong before.
-/

namespace Correlator

/-- What is asked for on a command line. -/
inductive Command
  | help
  | version
  /-- The bridge is to run with the configuration at a path. -/
  | run (path : String)
  | misuse
  deriving DecidableEq, Repr

namespace Command

/-- What is printed when help is asked for. -/
def helpText : String :=
  "HTTP request/response correlation bridge\n\nUsage: http-bridge [OPTIONS]\n\nOptions:\n" ++
  "  -c, --config <CONFIG>  Path to the TOML configuration file [default: http-bridge.toml]\n" ++
  "  -h, --help             Print help\n" ++
  "  -V, --version          Print version\n"

/-- What is printed when the version is asked for. -/
def versionText : String := "http-bridge 0.1.0\n"

/-- The path of the configuration if none is given. -/
def defaultPath := "http-bridge.toml"

/-- The path given by an option, which may be given once and may not be empty. -/
def setPath (path? : Option String) (value : List Char) : Option String :=
  if path?.isSome || value.isEmpty then none else some (String.ofList value)

/-- Whether an argument is an option, or the end of the options. -/
def isOption : List Char → Bool
  | '-' :: _ :: _ => true
  | _ => false

/-- What remains of a group of short options with the path as its value, without an equals sign
before it. -/
def joined : List Char → List Char
  | '=' :: value => value
  | value => value

/-- The command that the remaining arguments stand for, given the path so far. -/
def go (path? : Option String) : List (List Char) → Command
  | [] => .run (path?.getD defaultPath)
  | arg :: rest =>
    if arg = "--help".toList then .help
    else if arg = "--version".toList then .version
    else if arg = "--".toList then
      if rest.isEmpty then .run (path?.getD defaultPath) else .misuse
    else if arg = "--config".toList ∨ arg = "-c".toList then
      match rest with
      | [] => .misuse
      | value :: rest =>
        if isOption value then .misuse
        else
          match setPath path? value with
          | some path => go (some path) rest
          | none => .misuse
    else
      match arg with
      | '-' :: 'c' :: value =>
        match setPath path? (joined value) with
        | some path => go (some path) rest
        | none => .misuse
      | '-' :: 'h' :: _ => .help
      | '-' :: 'V' :: _ => .version
      | _ =>
        if "--config=".toList.isPrefixOf arg then
          match setPath path? (arg.drop 9) with
          | some path => go (some path) rest
          | none => .misuse
        else .misuse

/-- The command that arguments stand for. -/
def ofArguments (args : List String) : Command := go none (args.map String.toList)

end Command

end Correlator
