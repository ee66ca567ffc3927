/-
# Files

The files a program can see: names, each standing for a directory or for a file's
content. Contents are kept apart from names, so whoever opened a file goes on
reading it after its name is gone, and sees what is written to it later.

| path | stands for |
| --- | --- |
| `a/./b`, `a//b` | `a/b` |
| `a/../b` | `b`, where `a` is a directory |
| `../a`, `/a` | a name outside the working directory |
| `a/` | `a`, which has to be a directory |
| the empty path | nothing |
-/
import Raster.Bytes
import Raster.Error
import Raster.Fields
import Raster.Text

namespace Raster

/-- What a name stands for: a directory, or the file with a number. -/
inductive Node where
  | directory
  | file (id : Nat)
  deriving DecidableEq, Repr

/-- Names and contents; the working directory itself has no name. -/
structure Files where
  names : Fields Node := {}
  contents : List (Array UInt8) := []
  deriving DecidableEq

namespace Files

/-- No files. -/
def none : Files := {}

/-- Where a path leads. -/
inductive Place where
  | directory
  | file (id : Nat)
  /-- The directory is there, the name in it is free. -/
  | free (name : String)
  deriving DecidableEq, Repr

/-- The longest part of a path, in bytes. -/
def maxPartSize : Nat := 255

/-- The longest path, in bytes. -/
def maxPathSize : Nat := 4095

/-- The name of a directory or file, given by its parts; the first part of an absolute name is
empty. -/
def nameOf (parts : List String) : String := Text.join "/" parts

/-- The directory above one given by its parts; above the root there is only the root. -/
def above (parts : List String) : List String :=
  if parts = [""] then parts
  else if parts.isEmpty ∨ parts.getLast? = some ".." then parts ++ [".."]
  else parts.dropLast

/-- The directory from which a path starts, and the parts to follow from there. -/
def parts (path : String) : List String × List String :=
  match Text.splitChars (· == '/') path.toList with
  | [] :: rest => ([""], rest.map String.ofList)
  | parts => ([], parts.map String.ofList)

/-- Follows the parts of a path from a directory. -/
def follow (files : Files) : (here : List String) → List String → Except IoFault Place
  | _, [] => .ok .directory
  | here, part :: rest =>
    if part = "" ∨ part = "." then files.follow here rest
    else if maxPartSize < part.utf8ByteSize then .error .invalidFilename
    else if part = ".." then files.follow (above here) rest
    else
      match files.names.get? (nameOf (here ++ [part])) with
      | some .directory => files.follow (here ++ [part]) rest
      | some (.file id) => if rest.isEmpty then .ok (.file id) else .error .notADirectory
      | Option.none =>
        if rest.isEmpty then .ok (.free (nameOf (here ++ [part])))
        else if rest.all (· == "") then .ok (.free "")
        else .error .notFound

/-- Where a path leads. -/
def place (files : Files) (path : String) : Except IoFault Place :=
  if path.isEmpty then .error .notFound
  else if path.toList.contains (Char.ofNat 0) then .error .invalidInput
  else if maxPathSize < path.utf8ByteSize then .error .invalidFilename
  else files.follow (parts path).1 (parts path).2

/-- The node of an existing path. -/
def node (files : Files) (path : String) : Except IoFault Node :=
  match files.place path with
  | .ok .directory => .ok .directory
  | .ok (.file id) => .ok (.file id)
  | .ok (.free _) => .error .notFound
  | .error fault => .error fault

/-- Whether a path leads to a file or directory. -/
def pathExists (files : Files) (path : String) : Bool := (files.node path).isOk

/-- Whether a path leads to a directory. -/
def isDirectory (files : Files) (path : String) : Bool :=
  match files.node path with
  | .ok .directory => true
  | _ => false

/-- What an open node holds now, for reading anywhere in it. -/
def packed (files : Files) : Node → Except IoFault (Array UInt8)
  | .directory => .error .isADirectory
  | .file id =>
    match files.contents[id]? with
    | some bytes => .ok bytes
    | Option.none => .error .notFound

/-- What an open node holds now. -/
def content (files : Files) (node : Node) : Except IoFault Bytes :=
  (files.packed node).map Array.toList

/-- Every byte of a file. -/
def read (files : Files) (path : String) : Except IoFault Bytes := do
  files.content (← files.node path)

/-- The files after writing one, which is created if its name is free. -/
def write (files : Files) (path : String) (bytes : Bytes) : Except IoFault Files :=
  match files.place path with
  | .ok .directory => .error .isADirectory
  | .ok (.file id) => .ok { files with contents := files.contents.set id bytes.toArray }
  | .ok (.free name) =>
    if name.isEmpty then .error .isADirectory
    else
      .ok { names := files.names.insert name (.file files.contents.length)
            contents := files.contents ++ [bytes.toArray] }
  | .error fault => .error fault

/-- The files after a name is removed; whoever has it open keeps its content. -/
def remove (files : Files) (path : String) : Except IoFault Files :=
  match files.place path with
  | .ok .directory => .error .isADirectory
  | .ok (.file id) => .ok { files with names := files.names.filter fun _ n => n != .file id }
  | .ok (.free _) => .error .notFound
  | .error fault => .error fault

/-- The parts of the name that a path spells. -/
def nameParts (path : String) : List String :=
  (parts path).2.foldl (fun here part =>
    if part = "" ∨ part = "." then here else if part = ".." then above here else here ++ [part])
    (parts path).1

/-- The names of what lies on the way to a path, and of the path itself at the end. -/
def namesOnWay (path : String) : List String :=
  let parts := nameParts path
  (List.range parts.length).map fun i => nameOf (parts.take (i + 1))

/-- The files with a directory and every directory on the way to it. -/
def makeDirectory (files : Files) (path : String) : Files :=
  { files with
    names := (namesOnWay path).foldl (fun names name => names.insert name .directory) files.names }

/-- Contents by name. -/
def toList (files : Files) : List (String × Bytes) :=
  files.names.toList.filterMap fun (name, node) =>
    match node with
    | .directory => Option.none
    | .file id => files.contents[id]?.map fun bytes => (name, bytes.toList)

end Files

end Raster
