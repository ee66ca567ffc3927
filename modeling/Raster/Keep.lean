/-
# Categories of metadata

| category | fields |
| --- | --- |
| `exif` | `exif-data`, `exif-ifd…` |
| `xmp` | `xmp-data` |
| `iptc` | `iptc-data` |
| `icc` | `icc-profile-data` |
| `other` | `image-description`, `png-comment-…`, `magickprofile-…`, any other `…-data` |

Fields without a category describe the image and are never dropped.
-/
import Raster.Image.Metadata

namespace Raster

/-- A category of embedded metadata. -/
inductive Category where
  | exif
  | xmp
  | iptc
  | icc
  | other
  deriving DecidableEq, Repr

namespace Category

/-- Every category. -/
def all : List Category := [exif, xmp, iptc, icc, other]

/-- The name of a category. -/
def name : Category → String
  | exif => "exif"
  | xmp => "xmp"
  | iptc => "iptc"
  | icc => "icc"
  | other => "other"

/-- The category of a field. -/
def ofField (field : String) : Option Category :=
  if field = Metadata.exif then some exif
  else if field = Metadata.xmp then some xmp
  else if field = Metadata.iptc then some iptc
  else if field = Metadata.icc then some icc
  else if field = Metadata.imageDescription then some other
  else if Text.startsWith field "exif-ifd" then some exif
  else if Text.startsWith field "png-comment-" || Text.startsWith field "magickprofile-"
      || Text.endsWith field "-data" then some other
  else none

end Category

/-- The categories that survive a save. -/
structure Keep where
  exif : Bool := false
  xmp : Bool := false
  iptc : Bool := false
  icc : Bool := false
  other : Bool := false
  deriving DecidableEq, Repr

namespace Keep

/-- No category. -/
def none : Keep := {}

/-- Every category. -/
def all : Keep := ⟨true, true, true, true, true⟩

/-- Whether a category is kept. -/
def keeps (k : Keep) : Category → Bool
  | .exif => k.exif
  | .xmp => k.xmp
  | .iptc => k.iptc
  | .icc => k.icc
  | .other => k.other

/-- The categories of either set. -/
def union (a b : Keep) : Keep :=
  ⟨a.exif || b.exif, a.xmp || b.xmp, a.iptc || b.iptc, a.icc || b.icc, a.other || b.other⟩

/-- One category. -/
def only : Category → Keep
  | .exif => { exif := true }
  | .xmp => { xmp := true }
  | .iptc => { iptc := true }
  | .icc => { icc := true }
  | .other => { other := true }

/-- The set of one word. -/
def ofWord (word : String) : Except String Keep :=
  let word := Text.lower word
  if word = "none" then .ok none
  else if word = "all" then .ok all
  else
    match Category.all.find? fun c => c.name == word with
    | some c => .ok (only c)
    | Option.none => .error s!"unknown metadata category \"{word}\""

/-- Reads words joined by bars, colons or blanks. -/
def parse (text : String) : Except String Keep :=
  (Text.words (fun c => c == '|' || c == ':' || Text.isBlank c) text).foldlM
    (fun keep word => (ofWord word).map keep.union) none

/-- The names of the categories joined by bars, or `all` or `none`. -/
def text (k : Keep) : String :=
  if k = all then "all"
  else
    let names := (Category.all.filter k.keeps).map Category.name
    if names.isEmpty then "none" else Text.join "|" names

/-- Whether a field survives: it has no category, or one that is kept. -/
def keepsField (k : Keep) (field : String) : Bool :=
  match Category.ofField field with
  | Option.none => true
  | some c => k.keeps c

end Keep

end Raster
