/-!
Bytes, the cells of every store in the machine. `Byte.wrap` brings any integer into a byte by
dropping all but its low eight bits; `toNat_wrap` states that this is the remainder modulo 256,
negative integers included.
-/

namespace ChipEight

/-- Eight bits. -/
abbrev Byte := UInt8

namespace Byte

/-- The low eight bits of an integer in two's complement. -/
def wrap (v : Int) : Byte := UInt8.ofNat (v % 256).toNat

@[simp] theorem toNat_wrap (v : Int) : ((wrap v).toNat : Int) = v % 256 := by
  simp only [wrap, UInt8.toNat_ofNat']
  omega

@[simp] theorem wrap_toNat (b : Byte) : wrap (b.toNat : Int) = b := by
  apply UInt8.toNat_inj.1
  have h := toNat_wrap (b.toNat : Int)
  have := b.toNat_lt
  omega

/-- The value of a byte as an integer. -/
def toInt (b : Byte) : Int := (b.toNat : Int)

end Byte

end ChipEight
