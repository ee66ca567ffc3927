/-
# Running a command

A command starts from the files and a look-up of environment variables, and ends
with an exit code, what it printed and the files as it left them.

| code | when |
| ---: | --- |
| 0 | the command did what it was asked to |
| 1 | it failed; nothing is printed but the error |
| 2 | the arguments make no sense |
-/
import Raster.Builtin
import Raster.Codec.Simple
import Raster.Command.Arguments
import Raster.Config.Stock
import Raster.Config.Toml
import Raster.Report
import Raster.Session

namespace Raster

namespace Command

/-- The name and version of the program. -/
def versionText : String := "imgport 0.4.0"

/-- How a command ended. -/
structure Ending where
  code : UInt8 := 0
  output : String := ""
  /-- The error and the warnings. -/
  complaints : List String := []
  files : Files

/-- Lines with their ends. -/
def joinLines (lines : List String) : String := String.join (lines.map (· ++ "\n"))

/-- Loads the headers of files until one cannot be loaded. -/
def reports (session : Session) : List String → World →
    Except Error (List HeaderReport) × World
  | [], w => (.ok [], w)
  | file :: rest, w =>
    match session.loadFile file {} w with
    | (.error e, w) => (.error e, w)
    | (.ok image, w) =>
      match reports session rest w with
      | (.error e, w) => (.error e, w)
      | (.ok others, w) => (.ok (HeaderReport.ofImage file image :: others), w)

/-- Loads an image and saves it. -/
def runCopy (session : Session) (input output : String) (w : World) : Except Error String × World :=
  match session.loadFile input {} w with
  | (.error e, w) => (.error e, w)
  | (.ok image, w) =>
    match session.saveFile image output w with
    | (.error e, _, w) => (.error e, w)
    | (.ok _, _, w) => (.ok s!"{input} → {output}\n", w)

/-- What a command prints in a session. -/
def runIn (session : Session) (json : Bool) (command : Command) (w : World) :
    Except Error String × World :=
  let registry := session.registry
  match command with
  | .copy input output => runCopy session input output w
  | .header files =>
    match reports session files w with
    | (.error e, w) => (.error e, w)
    | (.ok found, w) =>
      (.ok (if json then (Json.array (found.map HeaderReport.toJson)).pretty ++ "\n"
        else joinLines (found.flatMap HeaderReport.lines)), w)
  | .formats =>
    (.ok (if json then registry.formatsJson.pretty ++ "\n" else joinLines registry.formatLines), w)
  | .suffixes =>
    (.ok (if json then (Json.array (registry.suffixes.map .text)).pretty ++ "\n"
      else joinLines registry.suffixLines), w)
  | .findLoad filename =>
    match registry.findLoad filename w with
    | (.error e, w) => (.error e, w)
    | (.ok entry, w) => (.ok (entry.descriptor.name ++ "\n"), w)
  | .findSave filename =>
    ((registry.findSave filename).map fun entry => entry.descriptor.name ++ "\n", w)
  | .isA loader filename =>
    match registry.recognisesFile loader filename w with
    | (.error e, w) => (.error e, w)
    | (.ok answer, w) => (.ok (toString answer ++ "\n"), w)
  | .flags loader filename =>
    match registry.flagsOf loader filename w with
    | (.error e, w) => (.error e, w)
    | (.ok found, w) => (.ok (found.text ++ "\n"), w)
  | .genConfig => (.ok Config.stockText, w)

/-- Runs a command that needs a session. -/
def runSession (switches : Switches) (command : Command) (files : Files)
    (environment : String → Option String) : Ending :=
  match ConfigLanguage.toml.ofFiles files (switches.config.getD Config.fileName) environment with
  | .error e => { code := 1, complaints := [e.message], files }
  | .ok config =>
    let session : Session := { registry := .builtin .simple, config }
    let (answer, w) := runIn session switches.json command (session.start { files })
    let warnings := w.host.warnings.reverse
    match answer with
    | .ok output => { output, complaints := warnings, files := w.files }
    | .error e => { code := 1, complaints := warnings ++ [e.message], files := w.files }

/-- Runs the program with some arguments. -/
def run (arguments : List String) (files : Files) (environment : String → Option String) : Ending :=
  match parse arguments with
  | none => { code := 2, complaints := ["bad arguments"], files }
  | some .version => { output := versionText ++ "\n", files }
  | some (.help page) => { output := joinLines page.lines, files }
  | some (.run _ .genConfig) => { output := Config.stockText, files }
  | some (.run switches command) => runSession switches command files environment

end Command

end Raster
