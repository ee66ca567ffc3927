/-
# What can go wrong

One constructor per cause. Structural causes (no such input, no handler, decoded
pixels that disagree with their header) end the operation; a handler's own
complaint keeps the handler's words. A sum that no word holds ends the operation
too.
-/
namespace Raster

/-- Why the file system or a stream refused. -/
inductive IoFault where
  | notFound
  | isADirectory
  | notADirectory
  | unexpectedEof
  | invalidInput
  | invalidData
  | invalidFilename
  | notSeekable
  deriving DecidableEq, Repr

/-- The name of a fault. -/
def IoFault.name : IoFault → String
  | .notFound => "NotFound"
  | .isADirectory => "IsADirectory"
  | .notADirectory => "NotADirectory"
  | .unexpectedEof => "UnexpectedEof"
  | .invalidInput => "InvalidInput"
  | .invalidData => "InvalidData"
  | .invalidFilename => "InvalidFilename"
  | .notSeekable => "NotSeekable"

/-- Why an operation failed. -/
inductive Error where
  /-- A file or stream could not be read or written. -/
  | io (fault : IoFault)
  | inputNotFound (path : String)
  | inputIsDirectory (path : String)
  /-- No handler takes the input or the suffix. -/
  | unknownFormat (name : String)
  /-- The saver advertises no colour model. -/
  | unsupportedOutputModel
  /-- Pixels do not have the shape that was announced. -/
  | headerLoadMismatch (detail : String)
  /-- A loader's complaint. -/
  | decode (loader message : String)
  /-- A saver's complaint. -/
  | encode (saver message : String)
  | colour (message : String)
  | incompatibleProfile (reason : String)
  | misconfiguredHandler (name reason : String)
  /-- The load failed before and stays failed. -/
  | loadFailed (operation : String)
  | noSuchOperation (name : String)
  | badOption (key message : String)
  /-- A rectangle reaches outside the image. -/
  | badRegion (left top width height : UInt32)
  /-- A pixel operation reached past the end of a pixel. -/
  | pixelOverrun
  /-- A count or a size is no machine word. -/
  | overflow
  deriving DecidableEq, Repr

/-- The words for an error. -/
def Error.message : Error → String
  | .io fault => s!"IO error: {fault.name}"
  | .inputNotFound path => s!"file \"{path}\" does not exist"
  | .inputIsDirectory path => s!"\"{path}\" is a directory"
  | .unknownFormat name => s!"\"{name}\" is not a known file format"
  | .unsupportedOutputModel => "saver does not support any output type"
  | .headerLoadMismatch detail => s!"images do not match between header and load: {detail}"
  | .decode loader message => s!"{loader}: {message}"
  | .encode saver message => s!"{saver}: {message}"
  | .colour message => s!"colour conversion failed: {message}"
  | .incompatibleProfile reason => s!"ICC profile not compatible with image: {reason}"
  | .misconfiguredHandler name reason => s!"handler \"{name}\" is misconfigured: {reason}"
  | .loadFailed operation => s!"{operation}: load failed earlier"
  | .noSuchOperation name => s!"no such operation \"{name}\""
  | .badOption key message => s!"bad value for option \"{key}\": {message}"
  | .badRegion left top width height =>
    s!"region {left},{top} {width}x{height} lies outside the image"
  | .pixelOverrun => "pixel operation reached past the end of a pixel"
  | .overflow => "a count or a size is no machine word"

/-- The sum of two words, which has to be a word. -/
def checkedSum (a b : UInt32) : Except Error UInt32 :=
  if a.toNat + b.toNat < UInt32.size then .ok (a + b) else .error .overflow

end Raster
