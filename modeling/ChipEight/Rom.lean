import ChipEight.CommandLine.Given
import ChipEight.FileSystem

/-!
Reading a program file.
-/

namespace ChipEight

/-- Why a program file could not be read. -/
inductive RomError where
  /-- No path was given. -/
  | noPath
  /-- No path holds the null character. -/
  | nullInPath
  | file (error : FileError)
  deriving DecidableEq, Repr

/-- The wording of a program file error. -/
def RomError.message : RomError → String
  | noPath => "expected str, bytes or os.PathLike object, not list"
  | nullInPath => "embedded null byte"
  | file error => error.message

namespace Rom

/-- The bytes of a program file. -/
def read (files : FileSystem) (path : String) : Except RomError (List Byte) :=
  if path.toList.contains '\x00' then .error .nullInPath
  else (files path).mapError .file

/-- The bytes of the program file that is given. -/
def readGiven (files : FileSystem) : Given String → Except RomError (List Byte)
  | .value path => read files path
  | .nothing => .error .noPath

/-- The line that tells of success when the trace is on. -/
def readLine (path : String) (size : Nat) : String :=
  s!"The ROM at path {path} has been read successfully ({size} bytes)"

/-- The lines printed for a reading. -/
def printed (tracing : Bool) (path : String) : Except RomError (List Byte) → List String
  | .ok rom => if tracing then [readLine path rom.length] else []
  | .error _ => []

end Rom

end ChipEight
