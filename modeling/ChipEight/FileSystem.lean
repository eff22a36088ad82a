import ChipEight.Byte
import ChipEight.Text.Quoted

/-!
Files by path. A file system says what is read under a path: the bytes of a file, or the error with
which the system refuses it. Nothing is assumed about which paths there are and which errors come
from them.
-/

namespace ChipEight

/-- Why the system refuses to read a file. -/
inductive FileError where
  /-- An error by its number, with the words for it and the path it is about, if it names one. -/
  | numbered (number : Int) (words : String) (path : Option String)
  /-- An error that has nothing but its words. -/
  | worded (words : String)
  deriving DecidableEq, Repr

/-- The wording of a file error. -/
def FileError.message : FileError → String
  | numbered number words (some path) =>
      s!"[Errno {number}] {words}: " ++ Quoted.literal path
  | numbered number words none => s!"[Errno {number}] {words}"
  | worded words => words

/-- What is read under each path. -/
abbrev FileSystem := String → Except FileError (List Byte)

end ChipEight
