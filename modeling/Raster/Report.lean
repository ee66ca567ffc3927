/-
# Reports

What the program says about images and handlers, as lines of text or as JSON.

| report | a line |
| --- | --- |
| header | `photo.png: 640x480 uchar, 3 bands, srgb, pngload`, then resolution and fields |
| formats | operation, kind, priority, suffixes, for savers the colour models, description |
| suffixes | all suffixes |
-/
import Raster.Image.Basic
import Raster.Json
import Raster.Registry.Basic

namespace Raster

/-- What is said about one image. -/
structure HeaderReport where
  filename : String
  /-- The operation that loaded the image. -/
  loader : Option String
  header : Header
  /-- Names and values of the metadata. -/
  fields : List (String × String)

namespace HeaderReport

/-- A metadata value in a few words. -/
def summary : MetaValue → String
  | .int v => toString v.toInt
  | .double v => v.plainText
  | .text v => v
  | .blob v => s!"{v.length} bytes"

/-- The report of an image. -/
def ofImage {ι : Type} (filename : String) (image : Image ι) : HeaderReport where
  filename := filename
  loader := image.metadata.getText Metadata.loader
  header := image.header
  fields := image.metadata.toList.map fun (name, value) => (name, summary value)

/-- The first blanks of a line below another. -/
def indent : String := "    "

/-- The lines of a report. -/
def lines (r : HeaderReport) : List String :=
  let loader := match r.loader with
    | some name => ", " ++ name
    | none => ""
  s!"{r.filename}: {r.header.describe}{loader}"
    :: s!"{indent}resolution: {r.header.xres.plainText} x {r.header.yres.plainText} pixels/mm"
    :: r.fields.map fun (name, value) => s!"{indent}{name}: {value}"

/-- A report as JSON. -/
def toJson (r : HeaderReport) : Json :=
  .object [
    ("filename", .text r.filename),
    ("loader", match r.loader with
      | some name => .text name
      | none => .null),
    ("width", .integer r.header.width.toNat),
    ("height", .integer r.header.height.toNat),
    ("bands", .integer r.header.bands.toNat),
    ("format", .text r.header.format.name),
    ("coding", .text r.header.coding.name),
    ("interpretation", .text r.header.interpretation.name),
    ("xres", .real r.header.xres),
    ("yres", .real r.header.yres),
    ("fields", .array (r.fields.map fun (name, value) =>
      .object [("name", .text name), ("value", .text value)]))]

end HeaderReport

/-- A promotion table as JSON. -/
def FormatTable.toJson (table : FormatTable) : Json :=
  .object (BandFormat.all.map fun f => (f.name, .text (table f).name))

namespace Descriptor

/-- The line of a handler. -/
def line (d : Descriptor) : String :=
  let models := match d.direction with
    | .load => ""
    | .save => "  " ++ d.saveable.text
  let description := if d.description.isEmpty then "" else "  " ++ d.description
  HeaderReport.indent ++ Text.padRight 16 d.name ++ " " ++ Text.padRight 7 d.io.name ++ " "
    ++ Text.padLeft 4 (toString d.priority) ++ "  " ++ Text.join " " d.suffixes ++ models
    ++ description ++ (if d.blocked then "  (blocked)" else "")

/-- A handler as JSON. -/
def toJson (d : Descriptor) : Json :=
  .object [
    ("name", .text d.name),
    ("format", .text d.format),
    ("description", .text d.description),
    ("kind", .text d.direction.name),
    ("io", .text d.io.name),
    ("priority", .integer d.priority),
    ("suffixes", .array (d.suffixes.map .text)),
    ("blocked", .boolean d.blocked),
    ("saveable", .text d.saveable.text),
    ("format_table", d.table.toJson),
    ("coding", .text d.codings.text)]

end Descriptor

namespace Registry

/-- The lines about all handlers, loaders first. -/
def formatLines (r : Registry) : List String :=
  "Loaders" :: r.loaders.map (·.descriptor.line) ++ "" :: "Savers"
    :: r.savers.map (·.descriptor.line)

/-- All handlers as JSON. -/
def formatsJson (r : Registry) : Json :=
  .sorted (.object [
    ("loaders", .array (r.loaders.map (·.descriptor.toJson))),
    ("savers", .array (r.savers.map (·.descriptor.toJson)))])

/-- The line about all suffixes. -/
def suffixLines (r : Registry) : List String := [Text.join " " r.suffixes]

end Registry

end Raster
