/-
# EXIF directories

An EXIF block is a tree of directories. An entry of a directory has a tag, a type
and a count, and holds either the bytes of its values or, under one of three
pointer tags, another directory:

| tag | directory | number in field names |
| --- | --- | ---: |
| | the main directory | 0 |
| `8769` | Exif | 2 |
| `8825` | GPS | 3 |
| `A005` | interoperability, below Exif | 4 |

Tags may repeat and come in any order; the first entry of a tag is the one that
is read and edited.
-/
import Raster.Bytes

namespace Raster

namespace Exif

/-- An entry of a directory; value bytes are in the block's byte order. -/
inductive Entry where
  | value (tag kind : UInt16) (count : UInt32) (bytes : Bytes)
  | directory (tag kind : UInt16) (entries : List Entry)

namespace Entry

/-- The tag of an entry. -/
def tag : Entry → UInt16
  | value tag _ _ _ => tag
  | directory tag _ _ => tag

/-- The type of an entry. -/
def kind : Entry → UInt16
  | value _ kind _ _ => kind
  | directory _ kind _ => kind

/-- How many values an entry announces; a directory is one. -/
def count : Entry → UInt32
  | value _ _ count _ => count
  | directory _ _ _ => 1

/-- The value bytes; a directory has none of its own. -/
def bytes : Entry → Bytes
  | value _ _ _ bytes => bytes
  | directory _ _ _ => []

/-- The entries of the directory that an entry holds. -/
def entries? : Entry → Option (List Entry)
  | value _ _ _ _ => none
  | directory _ _ entries => some entries

mutual

/-- Whether two entries are equal, with the same entries in the same order below them. -/
def same : Entry → Entry → Bool
  | value t k c b, value t' k' c' b' => t == t' && k == k' && c == c' && b == b'
  | directory t k es, directory t' k' es' => t == t' && k == k' && sameAll es es'
  | _, _ => false

/-- Whether two directories are equal, entry by entry. -/
def sameAll : List Entry → List Entry → Bool
  | [], [] => true
  | e :: es, e' :: es' => same e e' && sameAll es es'
  | _, _ => false

end

mutual

/-- How many entries there are in an entry, itself included. -/
def total : Entry → Nat
  | value _ _ _ _ => 1
  | directory _ _ es => 1 + totalAll es

/-- How many entries there are in a directory and below it. -/
def totalAll : List Entry → Nat
  | [] => 0
  | e :: es => total e + totalAll es

end

/-- Puts entries in the order of their tags; entries of one tag keep their order. -/
def sortByTag (es : List Entry) : List Entry := es.mergeSort fun a b => a.tag ≤ b.tag

mutual

/-- The entry with every directory below it in tag order. -/
def sorted : Entry → Entry
  | value t k c b => value t k c b
  | directory t k es => directory t k (sortByTag (sortedAll es))

/-- The entries, each with every directory below it in tag order. -/
def sortedAll : List Entry → List Entry
  | [] => []
  | e :: es => sorted e :: sortedAll es

end

end Entry

/-- The first entry of a tag. -/
def find? (tag : UInt16) (entries : List Entry) : Option Entry := entries.find? fun e => e.tag == tag

/-- Puts an entry where the first one of its tag is, or at the end. -/
def put (entry : Entry) : List Entry → List Entry
  | [] => [entry]
  | e :: rest => if e.tag = entry.tag then entry :: rest else e :: put entry rest

/-- Drops every entry of a tag. -/
def drop (tag : UInt16) (entries : List Entry) : List Entry := entries.filter fun e => e.tag != tag

/-- Edits the directory below the first entry of a tag, if that holds one. -/
def editBelow (tag : UInt16) (f : List Entry → Option (List Entry)) :
    List Entry → Option (List Entry)
  | [] => none
  | e :: rest =>
    if e.tag = tag then
      match e with
      | .directory t k es => (f es).map fun es => .directory t k es :: rest
      | .value _ _ _ _ => none
    else (editBelow tag f rest).map (e :: ·)

/-- The pointer tag of the Exif directory. -/
def exifPointer : UInt16 := 0x8769

/-- The pointer tag of the GPS directory. -/
def gpsPointer : UInt16 := 0x8825

/-- The pointer tag of the interoperability directory. -/
def interopPointer : UInt16 := 0xA005

/-- Whether a tag points at a directory. -/
def isPointer (tag : UInt16) : Bool :=
  tag == exifPointer || tag == gpsPointer || tag == interopPointer

/-- The directories with known fields. -/
inductive Section where
  | main
  | exif
  | gps
  | interop
  deriving DecidableEq, Repr

namespace Section

/-- The number of a directory in field names. -/
def number : Section → Nat
  | main => 0
  | exif => 2
  | gps => 3
  | interop => 4

/-- The pointers to follow from the main directory. -/
def path : Section → List UInt16
  | main => []
  | exif => [exifPointer]
  | gps => [gpsPointer]
  | interop => [exifPointer, interopPointer]

end Section

/-- The directory at the end of a path of pointers. -/
def follow : List UInt16 → List Entry → Option (List Entry)
  | [], entries => some entries
  | tag :: path, entries => (find? tag entries).bind fun e => e.entries?.bind (follow path)

/-- Edits the directory at the end of a path of pointers, if it is there. -/
def editAt (f : List Entry → List Entry) : List UInt16 → List Entry → Option (List Entry)
  | [], entries => some (f entries)
  | tag :: path, entries => editBelow tag (editAt f path) entries

end Exif

/-- A parsed EXIF block. -/
structure Exif where
  order : ByteOrder
  entries : List Exif.Entry

namespace Exif

/-- An empty block. -/
def empty : Exif := ⟨.little, []⟩

/-- Whether two blocks are equal, entry by entry. -/
def same (a b : Exif) : Bool := a.order == b.order && Entry.sameAll a.entries b.entries

/-- The entries of a known directory. -/
def directory? (exif : Exif) (s : Section) : Option (List Entry) := follow s.path exif.entries

/-- Edits a known directory, if it is there. -/
def edit (exif : Exif) (s : Section) (f : List Entry → List Entry) : Exif :=
  match editAt f s.path exif.entries with
  | some entries => { exif with entries }
  | none => exif

end Exif

end Raster
