/-
# Option lists

A file name may carry options in brackets, `name[key=value,key,...]`. An option
without a value is `true`. Keys are spelled in lower case with underscores and
without blanks around them; another spelling of the same key finds the same
option.
-/
import Raster.Error
import Raster.Fields
import Raster.Text.Number

namespace Raster

/-- Option values by key. -/
abbrev Options := Fields String

namespace Options

/-- Splits `name[options]` at its last opening bracket. -/
def splitName (name : String) : String × Option String :=
  match name.toList.reverse with
  | ']' :: rest =>
    match Text.cutLast '[' rest.reverse with
    | some (before, inside) => (String.ofList before, some (String.ofList inside))
    | none => (name, none)
  | _ => (name, none)

/-- The spelling under which a key is kept. -/
def normalKey (key : String) : String :=
  String.ofList (((Text.trimChars key.toList).map Char.toLower).map fun c => if c = '-' then '_' else c)

/-- Sets an option. -/
def set (options : Options) (key value : String) : Options := options.insert (normalKey key) value

/-- The value of an option. -/
def value? (options : Options) (key : String) : Option String := options.get? (normalKey key)

/-- Whether an option is set. -/
def has (options : Options) (key : String) : Bool := (options.value? key).isSome

/-- Forgets an option. -/
def unset (options : Options) (key : String) : Options := options.erase (normalKey key)

/-- The key and value of one item; an item without `=` is `true`. -/
def splitItem (item : List Char) : List Char × List Char :=
  match Text.cutFirst '=' item with
  | some (key, value) => (key, Text.trimChars value)
  | none => (item, "true".toList)

/-- Adds the items of a list to the options. -/
def addItems : Options → List (List Char) → Except Error Options
  | options, [] => .ok options
  | options, item :: rest =>
    let item := Text.trimChars item
    if item.isEmpty then addItems options rest
    else
      let (key, value) := splitItem item
      if (Text.trimChars key).isEmpty then
        .error (.badOption (String.ofList item) "missing option name")
      else addItems (options.set (String.ofList key) (String.ofList value)) rest

/-- Reads `key=value,key,...`. -/
def parse (text : String) : Except Error Options :=
  addItems Fields.empty (Text.splitChars (· == ',') text.toList)

/-- The options in the brackets of a name. -/
def ofName (name : String) : Except Error Options :=
  match (splitName name).2 with
  | some text => parse text
  | none => .ok Fields.empty

/-- The truth value of a text. -/
def readBool (key value : String) : Except Error Bool :=
  let word := Text.lower value
  if ["true", "yes", "on", "1"].contains word then .ok true
  else if ["false", "no", "off", "0"].contains word then .ok false
  else .error (.badOption key s!"\"{word}\" is not a boolean")

/-- An option read by `parse`, whose complaint becomes the error. -/
def getParsed {α : Type} (options : Options) (key : String) (parse : String → Except String α) :
    Except Error (Option α) :=
  match options.value? key with
  | none => .ok none
  | some v =>
    match parse v with
    | .ok a => .ok (some a)
    | .error message => .error (.badOption key message)

/-- An option as a truth value. -/
def getBool (options : Options) (key : String) : Except Error (Option Bool) :=
  match options.value? key with
  | none => .ok none
  | some v => (readBool key v).map some

/-- An option as numbers between blanks. -/
def getDoubles (options : Options) (key : String) : Except Error (Option (List Double)) :=
  options.getParsed key fun v =>
    (Text.words Text.isBlank v).mapM fun n => (Number.double n).mapError NumberFault.message

/-- An option read by `parse`, and the options without it. -/
def takeParsed {α : Type} (options : Options) (key : String) (parse : String → Except String α) :
    Except Error (Option α × Options) :=
  (options.getParsed key parse).map fun v => (v, options.unset key)

/-- An option as a truth value, and the options without it. -/
def takeBool (options : Options) (key : String) : Except Error (Option Bool × Options) :=
  (options.getBool key).map fun v => (v, options.unset key)

/-- A reader of numbers whose complaint is a text. -/
def number {α : Type} (read : String → Except NumberFault α) (s : String) : Except String α :=
  (read s).mapError NumberFault.message

end Options

end Raster
