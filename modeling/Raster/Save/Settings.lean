/-
# Settings of one save

Options that every save understands are taken out of the option list; the others
go to the saver.

| option | setting |
| --- | --- |
| `strip` | older spelling of `keep=none`; an explicit `keep` wins |
| `keep` | categories of metadata that survive |
| `profile` | a file with an ICC profile to embed, which is then kept |
| `background` | the colour under transparent pixels |
| `page_height` | rows of one page; `0` for none |
-/
import Raster.Config
import Raster.Options

namespace Raster

/-- The settings of one save. -/
structure SaveSettings where
  keep : Keep := .all
  /-- The colour under transparent pixels: one value for each band, or one for all. -/
  background : List Double := []
  pageHeight : Option UInt32 := none
  /-- The path of an ICC profile to embed. -/
  profile : Option String := none
  deriving DecidableEq

namespace SaveSettings

/-- The settings of a save without options. -/
def ofConfig (config : SaveConfig) : SaveSettings where
  keep := config.keep
  background := config.background

/-- The categories to keep when a profile is embedded. -/
def withProfile (keep : Keep) : Option String → Keep
  | some _ => keep.union (.only .icc)
  | none => keep

/-- Takes the settings out of an option list; what is left belongs to the saver. -/
def take (options : Options) (config : SaveConfig) :
    Except Error (SaveSettings × Options) := do
  let s := ofConfig config
  let (strip, options) ← options.takeBool "strip"
  let (keep, options) ← options.takeParsed "keep" Keep.parse
  let profile := options.value? "profile"
  let options := options.unset "profile"
  let background ← options.getDoubles "background"
  let options := options.unset "background"
  let (pageHeight, options) ← options.takeParsed "page_height" (Options.number Number.word32)
  let stripped := if strip = some true then Keep.none else s.keep
  return ({
    keep := withProfile (keep.getD stripped) profile
    background := background.getD s.background
    pageHeight := pageHeight.filter (0 < ·)
    profile := profile }, options)

end SaveSettings

end Raster
