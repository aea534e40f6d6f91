import Mathlib.Data.Int.Init

/-! # Signal strengths -/

namespace SensorLib

structure BratislavaRssi where
  valueDbm : Int
  valid : Bool
  deriving DecidableEq, Repr

/-- The conversion of a `long` to an `int16_t`. -/
def toInt16 (n : Int) : Int := n.bmod 0x10000

end SensorLib
