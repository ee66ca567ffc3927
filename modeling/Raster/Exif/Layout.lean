/-
# The layout of an EXIF block

| offset | size | field |
| ---: | ---: | --- |
| 0 | 2 | `II` for least, `MM` for most significant byte first |
| 2 | 2 | 42 |
| 4 | 4 | offset of the main directory |

A directory is a 16-bit count, twelve bytes for each entry and four bytes for the
offset of a next directory, which is not followed and written as zero. An entry
is tag, type, count and four bytes that hold the value or, where it is longer,
its offset. Everything may be preceded by `Exif` and two zero bytes.

Reading refuses a block only where the main directory's own table does not fit
into it; an entry whose value or directory does not fit is left out. Writing puts
directories in tag order and starts every long value and every directory at an
even offset.
-/
import Raster.Error
import Raster.Exif.Basic

namespace Raster

namespace Exif

/-- What may stand before a block. -/
def marker : Bytes := Bytes.ofText "Exif" ++ [0, 0]

/-- A block without its marker. -/
def unmarked (blob : Bytes) : Bytes :=
  if marker.isPrefixOf blob then blob.drop marker.length else blob

/-- Directories nested more deeply than this are left out. -/
def maxDepth : Nat := 4

/-- Bytes of one value of a type. -/
def typeSize (kind : UInt16) : Nat :=
  match kind.toNat with
  | 3 | 8 => 2
  | 4 | 9 | 11 | 13 => 4
  | 5 | 10 | 12 => 8
  | _ => 1

/-- The entry in twelve bytes of a table; `sub` reads the directory at an offset. -/
def readEntry (sub : Nat → Option (List Entry)) (order : ByteOrder) (data raw : Bytes) :
    Option Entry :=
  let tag := order.get16 (raw.take 2)
  let kind := order.get16 ((raw.drop 2).take 2)
  let count := order.get32 ((raw.drop 4).take 4)
  let offset := (order.get32 ((raw.drop 8).take 4)).toNat
  let length := count.toNat * typeSize kind
  if isPointer tag then (sub offset).map (.directory tag kind)
  else if length ≤ 4 then some (.value tag kind count ((raw.drop 8).take length))
  else (data.slice? offset length).map (.value tag kind count)

/-- The twelve-byte pieces of the table of the directory at an offset. -/
def tableAt (order : ByteOrder) (data : Bytes) (offset : Nat) : Option (List Bytes) := do
  let count := (order.get16 (← data.slice? offset 2)).toNat
  return (← data.slice? (offset + 2) (count * 12)).chunks 12

/-- The directory at an offset, with at most `levels` levels. -/
def readDirectory (order : ByteOrder) (data : Bytes) : (levels offset : Nat) →
    Option (List Entry)
  | 0, _ => none
  | levels + 1, offset =>
    (tableAt order data offset).map fun table =>
      table.filterMap (readEntry (readDirectory order data levels) order data)

/-- A complaint about a block. -/
def corrupt (message : String) : Error := .decode "exif" message

/-- The byte order that a block's first two bytes name. -/
def orderOf (data : Bytes) : Option ByteOrder :=
  if data.take 2 = Bytes.ofText "MM" then some .big
  else if data.take 2 = Bytes.ofText "II" then some .little
  else none

/-- The two bytes that name a byte order. -/
def orderMark : ByteOrder → Bytes
  | .little => Bytes.ofText "II"
  | .big => Bytes.ofText "MM"

/-- Reads a block. -/
def parse (blob : Bytes) : Except Error Exif :=
  let data := unmarked blob
  if data.length < 8 then .error (corrupt "blob too short")
  else
    match orderOf data with
    | none => .error (corrupt "bad byte-order mark")
    | some order =>
      if order.get16 ((data.drop 2).take 2) ≠ 42 then .error (corrupt "bad TIFF magic")
      else
        match readDirectory order data (maxDepth + 1) (order.get32 ((data.drop 4).take 4)).toNat with
        | some entries => .ok ⟨order, entries⟩
        | none => .error (corrupt "offset out of range")

mutual

/-- The twelve bytes of an entry and what it adds behind the table, where the next free offset is
`pos`. -/
def writeEntry (order : ByteOrder) (pos : Nat) : Entry → Bytes × Bytes
  | .value tag kind count bytes =>
    let head := order.put16 tag ++ order.put16 kind ++ order.put32 count
    if bytes.length ≤ 4 then (head ++ bytes ++ List.replicate (4 - bytes.length) 0, [])
    else
      (head ++ order.put32 (UInt32.ofNat (pos + pos % 2)), List.replicate (pos % 2) 0 ++ bytes)
  | .directory tag kind entries =>
    let start := pos + pos % 2
    let (table, tail) := writeEntries order (start + 2 + entries.length * 12 + 4) entries
    (order.put16 tag ++ order.put16 kind ++ order.put32 1 ++ order.put32 (UInt32.ofNat start),
      List.replicate (pos % 2) 0 ++ (order.put16 (UInt16.ofNat entries.length) ++ table
        ++ List.replicate 4 0 ++ tail))

/-- The table of some entries and what they add behind it. -/
def writeEntries (order : ByteOrder) (pos : Nat) : List Entry → Bytes × Bytes
  | [] => ([], [])
  | e :: rest =>
    let (record, tail) := writeEntry order pos e
    let (records, tails) := writeEntries order (pos + tail.length) rest
    (record ++ records, tail ++ tails)

end

/-- A directory, as its entries are ordered, written at an offset. -/
def writeDirectory (order : ByteOrder) (start : Nat) (entries : List Entry) : Bytes :=
  let (table, tail) := writeEntries order (start + 2 + entries.length * 12 + 4) entries
  order.put16 (UInt16.ofNat entries.length) ++ table ++ List.replicate 4 0 ++ tail

/-- The block with every directory in tag order. -/
def normalised (exif : Exif) : Exif :=
  { exif with entries := Entry.sortByTag (Entry.sortedAll exif.entries) }

/-- A block without its marker. -/
def toTiff (exif : Exif) : Bytes :=
  orderMark exif.order ++ exif.order.put16 42 ++ exif.order.put32 8
    ++ writeDirectory exif.order 8 exif.normalised.entries

/-- A block behind its marker. -/
def toBytes (exif : Exif) : Bytes := marker ++ exif.toTiff

end Exif

end Raster
