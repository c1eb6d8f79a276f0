/-!
# Exact decimals of binary numbers

A finite binary64 number is `mantissa * 2^exponent`, and its decimals are computed exactly from
that. `fixed` writes a number of places and takes a tie to the even neighbour; `roundHalfUp` takes it
away from zero. `Float` has no laws to reason with, so the rules live on the mantissa and exponent.

Numbers that are kept and passed on are bit patterns (`Binary64`), and become a `Float` only to
compute with them.
-/
namespace LineAsm.Number

/-- A binary64 number by its bit pattern. The patterns that stand for no number stay apart here;
as a `Float` they are all one. -/
structure Binary64 where
  bits : UInt64
  deriving DecidableEq

namespace Binary64

def toFloat (x : Binary64) : Float := Float.ofBits x.bits

def ofFloat (x : Float) : Binary64 := ⟨x.toBits⟩

/-- Whether a pattern stands for a finite number: its exponent is not the greatest. -/
def isFinite (x : Binary64) : Bool :=
  x.bits.toNat / Nat.pow 2 52 % Nat.pow 2 11 != Nat.pow 2 11 - 1

end Binary64

/-- The magnitude of a finite binary64 number is `mantissa * 2^exponent`. -/
structure Binary where
  negative : Bool
  mantissa : Nat
  exponent : Int
  deriving DecidableEq

/-- The parts of a finite number. -/
def Binary.ofFloat (x : Float) : Binary :=
  let bits : Nat := x.toBits.toNat
  let fraction : Nat := bits % Nat.pow 2 52
  let biased : Nat := bits / Nat.pow 2 52 % Nat.pow 2 11
  let negative := decide (bits / Nat.pow 2 63 = 1)
  if biased = 0 then ⟨negative, fraction, -1074⟩
  else ⟨negative, Nat.pow 2 52 + fraction, (biased : Int) - 1075⟩

/-- The nearest integer to a quotient; a tie goes to the even one. -/
def roundToEven (num den : Nat) : Nat :=
  let quotient := num / den
  let twice := 2 * (num % den)
  if twice < den then quotient
  else if den < twice then quotient + 1
  else if quotient % 2 = 0 then quotient
  else quotient + 1

/-- The nearest integer to a quotient; a tie goes up. -/
def roundUp (num den : Nat) : Nat := (2 * num + den) / (2 * den)

/-- The magnitude as a quotient of integers. -/
def Binary.ratio (b : Binary) : Nat × Nat :=
  if 0 ≤ b.exponent then (b.mantissa * Nat.pow 2 b.exponent.toNat, 1)
  else (b.mantissa, Nat.pow 2 (-b.exponent).toNat)

/-- A finite number with a fixed number of places after the point. -/
def fixed (places : Nat) (x : Float) : String :=
  let b := Binary.ofFloat x
  let (num, den) := b.ratio
  let scaled := roundToEven (num * Nat.pow 10 places) den
  let fraction := (scaled % Nat.pow 10 places).repr.toList.leftpad places '0'
  let whole := (scaled / Nat.pow 10 places).repr
  (if b.negative then "-" else "") ++ whole ++ "." ++ String.ofList fraction

/-- The nearest integer to a number that is not negative; a tie goes up. -/
def roundHalfUp (x : Float) : Nat :=
  let (num, den) := (Binary.ofFloat x).ratio
  roundUp num den

/-- The binary64 number nearest to an integer. -/
def ofInt (n : Int) : Float :=
  let magnitude := Float.ofScientific n.natAbs false 0
  if n < 0 then -magnitude else magnitude

/-- The binary64 number nearest to `digits * 10^exponent`. Far outside its range the power is not
computed: with `n` the logarithm of `digits` to base 2, `10^(3n/10) ≤ digits < 10^(n/3 + 2)`. -/
def ofDecimal (negative : Bool) (digits : Nat) (exponent : Int) : Float :=
  let n := digits.log2
  let magnitude : Float :=
    if digits = 0 ∨ (n / 3 + 2 : Nat) + exponent < -400 then 0.0
    else if 400 < (3 * n / 10 : Nat) + exponent then 1.0 / 0.0
    else Float.ofScientific digits (decide (exponent < 0)) exponent.natAbs
  if negative then -magnitude else magnitude

end LineAsm.Number
