import ChipEight.Byte
import ChipEight.Size
import ChipEight.Value

/-!
What a loader is handed as a program, and the bytes in it. Integers become bytes one by one, a plain
integer stands for that many zero bytes, and everything else is refused. An iterator can be made
into bytes only once: `spent` is what is left of it then.
-/

namespace ChipEight

/-- An element of a list handed to the loader. -/
inductive SourceItem where
  | integer (v : Int)
  | other (kind : ValueKind)
  deriving DecidableEq, Repr

/-- What a loader is handed. -/
inductive ProgramSource where
  | bytes (data : List Byte)
  | items (list : List SourceItem)
  /-- The elements not yet taken from an iterator, each of which can be taken once. -/
  | iterator (ahead : List SourceItem)
  /-- That many zero bytes. -/
  | count (n : Int)
  | other (kind : ValueKind)
  deriving DecidableEq, Repr

/-- Why a source has no bytes. -/
inductive SourceError where
  | notAByte
  | notAnInteger (kind : ValueKind)
  | negativeCount
  /-- The count is no size of anything. -/
  | hugeCount
  /-- The bytes and what is kept with them would have no size together. -/
  | tooManyBytes
  /-- The bytes would take more storage than there is. -/
  | outOfMemory
  /-- Text has no bytes until its encoding is known. -/
  | unencodedText
  | noBytes (kind : ValueKind)
  deriving DecidableEq, Repr

/-- The wording of a source error. -/
def SourceError.message : SourceError → String
  | notAByte => "bytes must be in range(0, 256)"
  | notAnInteger kind => "'" ++ kind.label ++ "' object cannot be interpreted as an integer"
  | negativeCount => "negative count"
  | hugeCount => "cannot fit 'int' into an index-sized integer"
  | tooManyBytes => "byte string is too large"
  | outOfMemory => ""
  | unencodedText => "string argument without an encoding"
  | noBytes kind => "cannot convert '" ++ kind.label ++ "' object to bytes"

/-- A value as an element of a list. -/
def SourceItem.ofValue (v : Value) : SourceItem :=
  match v.toInt with
  | .ok n => .integer n
  | .error kind => .other kind

/-- The byte that an element stands for. -/
def SourceItem.toByte : SourceItem → Except SourceError Byte
  | integer v => if 0 ≤ v ∧ v < 256 then .ok (Byte.wrap v) else .error .notAByte
  | other kind => .error (.notAnInteger kind)

namespace ProgramSource

/-- A value handed to the loader; of a record it sees the names. -/
def ofValue : Value → ProgramSource
  | .list values => .items (values.map SourceItem.ofValue)
  | .record fields => .items (fields.map fun _ => .other .text)
  | v =>
      match v.toInt with
      | .ok n => .count n
      | .error kind => .other kind

/-- How many bytes are kept with a row of bytes. -/
def overhead : Int := 33

/-- How many zeros a count stands for. -/
def zeros (storage : Storage) (n : Int) : Except SourceError Nat :=
  if !Size.isSize n then .error .hugeCount
  else if n < 0 then .error .negativeCount
  else if Size.limit ≤ n + overhead then .error .tooManyBytes
  else if storage.bytes n.toNat then .ok n.toNat
  else .error .outOfMemory

/-- The bytes of a source; the first element that is no byte decides the error. -/
def toBytes (storage : Storage) : ProgramSource → Except SourceError (List Byte)
  | bytes data => .ok data
  | items list => list.mapM SourceItem.toByte
  | iterator ahead => ahead.mapM SourceItem.toByte
  | count n => (zeros storage n).map fun k => List.replicate k 0
  | other .text => .error .unencodedText
  | other kind => .error (.noBytes kind)

/-- What is left of a source once it has been made into bytes: an iterator has been taken from up to
its first element that is no byte. -/
def spent : ProgramSource → ProgramSource
  | iterator ahead => .iterator ((ahead.dropWhile fun item => item.toByte.isOk).drop 1)
  | source => source

end ProgramSource

end ChipEight
