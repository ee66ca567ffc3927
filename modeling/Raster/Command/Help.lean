/-
# Help pages

There is a page for the program, which is short or full, and one for each command.
A page has these parts, with an empty line between them:

| part | lines |
| --- | --- |
| about | what it does |
| usage | how it is called |
| commands, arguments, options | names in one column, what they mean in the next |

The full page of the program says more about it and gives every option lines of
its own.
-/
import Raster.Config
import Raster.Text

namespace Raster

namespace Help

/-- A command as the help pages know it. -/
structure Topic where
  name : String
  about : String
  /-- Its arguments. -/
  values : List String := []
  /-- Whether the last argument may be given many times. -/
  repeats : Bool := false
  deriving DecidableEq, Repr

/-- Every command, in the order of the program's page. -/
def topics : List Topic := [
  { name := "copy", about := "Load an image and save it in the format of the output suffix"
    values := ["<INPUT>", "<OUTPUT>"] },
  { name := "header", about := "Print the header and metadata of images without decoding pixels"
    values := ["<FILES>..."], repeats := true },
  { name := "formats", about := "List every registered loader and saver" },
  { name := "suffixes", about := "List the suffixes savers accept" },
  { name := "find-load", about := "Print the loader that would open a file"
    values := ["<FILENAME>"] },
  { name := "find-save", about := "Print the saver that would write a filename"
    values := ["<FILENAME>"] },
  { name := "is-a", about := "Check whether a named loader recognises a file"
    values := ["<LOADER>", "<FILENAME>"] },
  { name := "flags", about := "Print the flags a loader reports for a file"
    values := ["<LOADER>", "<FILENAME>"] },
  { name := "gen-config", about := "Print a stock imgport.toml with all options documented" }]

/-- The command that prints help pages. -/
def helpTopic : Topic where
  name := "help"
  about := "Print this message or the help of the given subcommand(s)"

/-- The command of a name. -/
def Topic.find? (name : String) : Option Topic := topics.find? fun t => t.name == name

/-- Whether a command takes one more argument than it has got. -/
def Topic.hasRoom (t : Topic) (got : Nat) : Bool := t.repeats || got < t.values.length

/-- An option as the help pages know it. -/
structure Switch where
  /-- Its names and its value. -/
  names : String
  about : String
  /-- What it is when it is not given. -/
  stock : String := ""
  deriving DecidableEq, Repr

/-- The options that go with every command. -/
def switches : List Switch := [
  { names := "    --config <CONFIG>", about := "Configuration file"
    stock := "[default: " ++ Config.fileName ++ "]" },
  { names := "-v, --verbose", about := "Log debug messages to stderr" },
  { names := "    --json", about := "Print reports as JSON" }]

/-- The option that prints a help page. -/
def helpSwitch (about : String) : Switch := { names := "-h, --help", about }

/-- The option that prints the version. -/
def versionSwitch : Switch := { names := "-V, --version", about := "Print version" }

/-- A help page. -/
inductive Page where
  /-- The page of the program. -/
  | program (full : Bool)
  | command (topic : Topic)
  /-- The page of the command that prints help pages. -/
  | help
  deriving DecidableEq, Repr

/-- Names and what they mean in two columns. -/
def columns (rows : List (String × String)) : List String :=
  let width := rows.foldl (fun n row => max n row.1.length) 0
  rows.map fun (name, about) => "  " ++ Text.padRight width name ++ "  " ++ about

/-- Options in two columns. -/
def switchColumns (options : List Switch) : List String :=
  columns (options.map fun s =>
    (s.names, if s.stock.isEmpty then s.about else s.about ++ " " ++ s.stock))

/-- Starts the lines below an option's names. -/
def margin : String := "          "

/-- An option in lines of its own. -/
def Switch.lines (s : Switch) : List String :=
  ["  " ++ s.names, margin ++ s.about]
    ++ if s.stock.isEmpty then [] else [margin, margin ++ s.stock]

/-- Parts of a page with an empty line between them. -/
def paragraphs (parts : List (List String)) : List String := [""].intercalate parts

/-- The short description of the program. -/
def aboutProgram : String := "Load and save images through a registry of format handlers"

/-- What the full page says about the program. -/
def manual : List String := [
  aboutProgram,
  "",
  "Loaders are found by sniffing the leading bytes of a file, or by suffix for",
  "formats that cannot be sniffed. Savers are found by the suffix of the output",
  "filename. Options for either side go in brackets after the filename:",
  "",
  "  imgport copy 'scan.tif[access=sequential]' 'web.jpg[Q=85,keep=icc]'",
  "",
  "Run 'imgport formats' to list every handler and 'imgport gen-config' to",
  "generate a documented imgport.toml."]

/-- The commands of the program's page. -/
def commandLines : List String :=
  "Commands:" :: columns ((topics ++ [helpTopic]).map fun t => (t.name, t.about))

/-- The options of the program's page. -/
def programOptions (full : Bool) : List String :=
  let about := if full then "Print help (see a summary with '-h')"
    else "Print help (see more with '--help')"
  let options := switches ++ [helpSwitch about, versionSwitch]
  "Options:" :: if full then paragraphs (options.map Switch.lines) else switchColumns options

/-- The page of the program. -/
def programLines (full : Bool) : List String :=
  paragraphs [
    if full then manual else [aboutProgram],
    ["Usage: imgport [OPTIONS] <COMMAND>"],
    commandLines,
    programOptions full]

/-- The part about a command's arguments. -/
def valueLines (rows : List (String × String)) : List (List String) :=
  if rows.isEmpty then [] else ["Arguments:" :: columns rows]

/-- The page of a command. -/
def Topic.lines (t : Topic) : List String :=
  paragraphs ([
    [t.about],
    ["Usage: imgport " ++ Text.join " " (t.name :: "[OPTIONS]" :: t.values)]]
    ++ valueLines (t.values.map fun value => (value, ""))
    ++ ["Options:" :: switchColumns (switches ++ [helpSwitch "Print help"])])

/-- The page of the command that prints help pages. -/
def helpLines : List String :=
  paragraphs ([
    [helpTopic.about],
    ["Usage: imgport help [COMMAND]..."]]
    ++ valueLines [("[COMMAND]...", "Print help for the subcommand(s)")])

/-- The lines of a page. -/
def Page.lines : Page → List String
  | program full => programLines full
  | command topic => topic.lines
  | help => helpLines

/-- The page of a help command with these arguments. -/
def Page.ofNames? : List String → Option Page
  | [] => some (.program true)
  | [name] =>
    if name = helpTopic.name then some .help else (Topic.find? name).map .command
  | _ => none

end Help

end Raster
