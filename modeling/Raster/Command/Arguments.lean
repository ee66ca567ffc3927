/-
# Arguments of the command line

| command | arguments |
| --- | --- |
| `copy` | input, output |
| `header` | one file or more |
| `formats`, `suffixes`, `gen-config` | |
| `find-load`, `find-save` | file name |
| `is-a`, `flags` | loader, file name |

| option | where |
| --- | --- |
| `--config FILE`, `--config=FILE` | before or behind the command's name |
| `-v`, `--verbose`; `--json` | before or behind the command's name |
| `-h`, `--help` | before or behind it |
| `-V`, `--version` | before it |

`help` and a command's name stand for that command with `--help`, `help` alone for
`--help`.

An option may be given once before and once behind the command's name; the later
one counts. Behind `--` every argument stands for itself. Arguments are read from
left to right, so a request for help or for the version is granted unless a fault
came before it. A value that is an argument of its own is looked at together with
the option that comes next; where a command's name comes next, a fault in the value
only keeps the command from running.
-/
import Raster.Command.Help
import Raster.Options

namespace Raster

/-- What the program is asked to do. -/
inductive Command where
  | copy (input output : String)
  | header (files : List String)
  | formats
  | suffixes
  | findLoad (filename : String)
  | findSave (filename : String)
  | isA (loader filename : String)
  | flags (loader filename : String)
  | genConfig
  deriving DecidableEq, Repr

namespace Command

/-- The options that go with a command. -/
structure Switches where
  config : Option String := none
  verbose : Bool := false
  json : Bool := false
  deriving DecidableEq, Repr

/-- Switches given behind the command's name on top of those before it. -/
def Switches.behind (inner outer : Switches) : Switches where
  config := inner.config.or outer.config
  verbose := inner.verbose || outer.verbose
  json := inner.json || outer.json

/-- What the arguments ask for. -/
inductive Request where
  | run (switches : Switches) (command : Command)
  | help (page : Help.Page)
  | version
  deriving DecidableEq, Repr

/-- What an argument in front of others means. -/
inductive Token where
  /-- A value or the name of a command. -/
  | word (s : String)
  /-- `--`. -/
  | separator
  /-- A switch that changes what was given so far, with the arguments behind it. -/
  | switches (s : Switches) (rest : List String)
  /-- A switch whose value, an argument of its own, is at fault; with the arguments behind it. -/
  | lateFault (rest : List String)
  /-- A request for help, spelled out or short. -/
  | help (full : Bool)
  | version
  | fault

/-- Sets the settings file, unless it is set already or the name is empty. -/
def setConfig (s : Switches) (file : String) : Option Switches :=
  if s.config.isSome ∨ file.isEmpty then none else some { s with config := some file }

/-- Turns verbose output on, unless it is on already. -/
def setVerbose (s : Switches) : Option Switches :=
  if s.verbose then none else some { s with verbose := true }

/-- Turns JSON output on, unless it is on already. -/
def setJson (s : Switches) : Option Switches :=
  if s.json then none else some { s with json := true }

/-- Whether an argument can be the value of an option. -/
def isValue (arg : String) : Bool := !Text.startsWith arg "-" || arg == "-"

/-- A run of short options; `top` tells whether the version may be asked for. -/
def shortOptions (top : Bool) (rest : List String) (s : Switches) : List Char → Token
  | [] => .switches s rest
  | 'v' :: more =>
    match setVerbose s with
    | some s => shortOptions top rest s more
    | none => .fault
  | 'h' :: _ => .help false
  | 'V' :: _ => if top then .version else .fault
  | _ => .fault

/-- What the first argument means, after some switches. -/
def token (top : Bool) (s : Switches) (arg : String) (rest : List String) : Token :=
  match arg.toList with
  | ['-', '-'] => .separator
  | '-' :: '-' :: name =>
    if name = "config".toList then
      match rest with
      | file :: rest =>
        if isValue file then
          match setConfig s file with
          | some s => .switches s rest
          | none => .lateFault rest
        else .fault
      | [] => .fault
    else if let some file := Text.afterStart "config=".toList name then
      match setConfig s (String.ofList file) with
      | some s => .switches s rest
      | none => .fault
    else if name = "verbose".toList then
      match setVerbose s with
      | some s => .switches s rest
      | none => .fault
    else if name = "json".toList then
      match setJson s with
      | some s => .switches s rest
      | none => .fault
    else if name = "help".toList then .help true
    else if name = "version".toList ∧ top then .version
    else .fault
  | '-' :: c :: more => shortOptions top rest s (c :: more)
  | _ => .word arg

/-- What stands behind a command's name. -/
inductive Tail where
  | values (switches : Switches) (values : List String)
  | help
  | fault

/-- A value in front of what follows it. -/
def Tail.push (value : String) : Tail → Tail
  | values s others => .values s (value :: others)
  | tail => tail

/-- What stands behind a command's name when `got` values stood there already; `fuel` bounds the
arguments. A value that the command has no room for is a fault. -/
def behindName (topic : Help.Topic) : (fuel got : Nat) → Switches → List String → Tail
  | 0, _, _, _ => .fault
  | _, _, s, [] => .values s []
  | fuel + 1, got, s, arg :: rest =>
    match token false s arg rest with
    | .word value =>
      if topic.hasRoom got then (behindName topic fuel (got + 1) s rest).push value else .fault
    | .separator => .values s rest
    | .switches s rest => behindName topic fuel got s rest
    | .help _ => .help
    | .version | .lateFault _ | .fault => .fault

/-- The command of a name with its values. -/
def ofName? (name : String) (values : List String) : Option Command :=
  match name, values with
  | "copy", [input, output] => some (.copy input output)
  | "header", file :: files => some (.header (file :: files))
  | "formats", [] => some .formats
  | "suffixes", [] => some .suffixes
  | "find-load", [filename] => some (.findLoad filename)
  | "find-save", [filename] => some (.findSave filename)
  | "is-a", [loader, filename] => some (.isA loader filename)
  | "flags", [loader, filename] => some (.flags loader filename)
  | "gen-config", [] => some .genConfig
  | _, _ => none

/-- What a command's name and the arguments behind it ask for. Where the switches before the name
are at fault, only help is given. -/
def parseNamed (outer : Option Switches) (name : String) (rest : List String) : Option Request :=
  if name = Help.helpTopic.name then (Help.Page.ofNames? rest).map .help
  else do
    let topic ← Help.Topic.find? name
    match behindName topic (rest.length + 1) 0 {} rest with
    | .values inner values => return .run (inner.behind (← outer)) (← ofName? name values)
    | .help => return .help (.command topic)
    | .fault => none

/-- What arguments behind some switches ask for; `fuel` bounds their number. -/
def parseFrom : (fuel : Nat) → Switches → List String → Option Request
  | 0, _, _ => none
  | _, _, [] => none
  | fuel + 1, s, arg :: rest =>
    match token true s arg rest with
    | .version => some .version
    | .help full => some (.help (.program full))
    | .separator | .fault => none
    | .switches s rest => parseFrom fuel s rest
    | .lateFault (name :: rest) => if isValue name then parseNamed none name rest else none
    | .lateFault [] => none
    | .word name => parseNamed (some s) name rest

/-- The paths that one argument may name: itself, what stands in front of its options, a settings
file and the profile among its options. -/
def pathsOf (arg : String) : List String :=
  let config := (Text.afterStart "--config=".toList arg.toList).map String.ofList
  let profile := (Options.ofName arg).toOption.bind fun options => options.value? "profile"
  [arg, (Options.splitName arg).1] ++ config.toList ++ profile.toList

/-- The paths that may matter to a run with these arguments. -/
def paths (arguments : List String) : List String :=
  Config.fileName :: arguments.flatMap pathsOf

/-- What the arguments ask for, if they make sense. -/
def parse (arguments : List String) : Option Request :=
  parseFrom (arguments.length + 1) {} arguments

end Command

end Raster
