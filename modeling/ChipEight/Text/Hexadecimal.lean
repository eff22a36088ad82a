/-!
Integers in base sixteen, with small letters. A negative number is a minus sign and the digits of
its magnitude. `padded` fills with zeros to a width that counts the sign; `tagged` puts `0x`
between sign and digits. A row of tagged numbers is a `listing`.
-/

namespace ChipEight.Hex

/-- The sign of a number as it is written. -/
def sign (v : Int) : List Char := if v < 0 then ['-'] else []

/-- The digits of the magnitude, without leading zeros. -/
def magnitude (v : Int) : List Char := Nat.toDigits 16 v.natAbs

/-- Zeros between sign and digits make up at least `width` characters in all. -/
def padded (width : Nat) (v : Int) : String :=
  let zeros := List.replicate (width - (sign v).length - (magnitude v).length) '0'
  String.ofList (sign v ++ zeros ++ magnitude v)

/-- The digits behind the mark `0x`, as in `0x1f` and `-0x1f`. -/
def tagged (v : Int) : String :=
  String.ofList (sign v ++ '0' :: 'x' :: magnitude v)

/-- One digit, letters as capitals. -/
def capital (d : Fin 16) : String :=
  String.ofList [(Nat.digitChar d.val).toUpper]

/-- Numbers in a row: each tagged and in single quotes, the row in brackets. -/
def listing (vs : List Int) : String :=
  "[" ++ ", ".intercalate (vs.map fun v => "'" ++ tagged v ++ "'") ++ "]"

end ChipEight.Hex
