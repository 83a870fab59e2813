/-!
Binary floating point with 53 significant bits, as an exact value: a significand
times a power of two. Reading a decimal rounds to the nearest value, a tie to the
even significand. Writing finds the fewest decimal digits that read back.
-/

set_option autoImplicit false

namespace Typeset

/-- A finite value is `significand * 2 ^ exponent`. The significand is below 2^53
and the exponent at least -1074; below 2^52 the exponent is exactly -1074. -/
inductive Binary64 where
  | nan
  | infinite (negative : Bool)
  | finite (negative : Bool) (significand : Nat) (exponent : Int)
  deriving DecidableEq, Repr

namespace Binary64

/-- A positive rational number. -/
structure Ratio where
  numerator : Nat
  denominator : Nat

namespace Ratio

/-- `value * base ^ power`, the power being of either sign. -/
def scale (value : Ratio) (base : Nat) (power : Int) : Ratio :=
  if 0 ≤ power then ⟨value.numerator * Nat.pow base power.toNat, value.denominator⟩
  else ⟨value.numerator, value.denominator * Nat.pow base (-power).toNat⟩

def floor (value : Ratio) : Nat := value.numerator / value.denominator

/-- The nearest whole number, a tie going to the even one. -/
def round (value : Ratio) : Nat :=
  let below := value.floor
  let twice := 2 * (value.numerator % value.denominator)
  if twice < value.denominator then below
  else if value.denominator < twice then below + 1
  else if below % 2 = 0 then below else below + 1

def lt (left right : Ratio) : Bool :=
  left.numerator * right.denominator < right.numerator * left.denominator

def le (left right : Ratio) : Bool := !lt right left

/-- The exponent of the largest power of two that is not above the value. -/
def log2 (value : Ratio) : Int :=
  let estimate := (Nat.log2 value.numerator : Int) - (Nat.log2 value.denominator : Int)
  if lt value ((⟨1, 1⟩ : Ratio).scale 2 estimate) then estimate - 1 else estimate

end Ratio

def decimalLength (value : Nat) : Nat := (Nat.toDigits 10 value).length

/-- The value nearest to a positive rational number, infinity from the middle of the
largest finite value and the next power of two on. -/
def ofRatio (negative : Bool) (value : Ratio) : Binary64 :=
  let exponent := max (-1074) (value.log2 - 52)
  let rounded := (value.scale 2 (-exponent)).round
  let (significand, exponent) :=
    if rounded = Nat.pow 2 53 then (Nat.pow 2 52, exponent + 1) else (rounded, exponent)
  if 971 < exponent then .infinite negative else .finite negative significand exponent

/-- The value nearest to `digits * 10 ^ power`. Powers far outside the range are
answered before they are computed. -/
def ofDecimal (negative : Bool) (digits : Nat) (power : Int) : Binary64 :=
  let magnitude := power + decimalLength digits
  if digits = 0 ∨ magnitude < -330 then .finite negative 0 (-1074)
  else if 310 < magnitude then .infinite negative
  else ofRatio negative ((⟨digits, 1⟩ : Ratio).scale 10 power)

def isFinite : Binary64 → Bool
  | .finite .. => true
  | _ => false

/-- The value of a finite number that has no fractional part. -/
def whole? : Binary64 → Option Int
  | .finite negative significand exponent =>
      let magnitude? :=
        if 0 ≤ exponent then some (significand * Nat.pow 2 exponent.toNat)
        else if significand % Nat.pow 2 (-exponent).toNat = 0
          then some (significand / Nat.pow 2 (-exponent).toNat)
        else none
      magnitude?.map fun magnitude => if negative then -(magnitude : Int) else magnitude
  | _ => none

/-- The numbers between the two bounds read back as the value. The bounds themselves
do when the significand is even. -/
def readsBack (significand : Nat) (exponent : Int) (candidate : Ratio) : Bool :=
  let quarters (count : Nat) : Ratio := (⟨count, 4⟩ : Ratio).scale 2 exponent
  let low := quarters
    (if significand = Nat.pow 2 52 ∧ -1074 < exponent then 4 * significand - 1
    else 4 * significand - 2)
  let high := quarters (4 * significand + 2)
  if significand % 2 = 0 then low.le candidate && candidate.le high
  else low.lt candidate && candidate.lt high

/-- The neighbour of the value on the grid of multiples of `10 ^ power`, if one of the
two reads back: the nearer one, of two equally near ones the even one. -/
def onGrid? (significand : Nat) (exponent power : Int) : Option Nat :=
  let value : Ratio := (⟨significand, 1⟩ : Ratio).scale 2 exponent
  let scaled := value.scale 10 (-power)
  let reads (count : Nat) :=
    readsBack significand exponent ((⟨count, 1⟩ : Ratio).scale 10 power)
  let below := scaled.floor
  let nearest := scaled.round
  if reads nearest then some nearest
  else if reads below then some below
  else if reads (below + 1) then some (below + 1)
  else none

/-- The decimal exponent of the leading digit. -/
def leadingPower (significand : Nat) (exponent : Int) : Int :=
  let value : Ratio := (⟨significand, 1⟩ : Ratio).scale 2 exponent
  if 1 ≤ value.floor then (decimalLength value.floor : Int) - 1
  else
    let inverse : Ratio := ⟨value.denominator, value.numerator⟩
    let estimate : Int := decimalLength inverse.floor
    if ((⟨1, 1⟩ : Ratio).scale 10 (1 - estimate)).le value then 1 - estimate else -estimate

/-- The fewest digits that read back, with the power of ten of the last of them. -/
def shortest (significand : Nat) (exponent : Int) : Nat × Int :=
  let leading := leadingPower significand exponent
  let attempt := (List.range 17).findSome? fun (count : Nat) =>
    (onGrid? significand exponent (leading - count)).map fun digits =>
      (digits, leading - (count : Int))
  attempt.getD (significand, exponent)

/-- The digits without trailing zeros, and the place of the decimal point after them
counted from the left. -/
def digitsAndPoint (significand : Nat) (exponent : Int) : List Char × Int :=
  let (count, power) := shortest significand exponent
  let digits := Nat.toDigits 10 count
  (((digits.reverse.dropWhile (· == '0')).reverse), (digits.length : Int) + power)

/-- Powers from -4 up to 15 are written with the point in place and one digit after it
at least, all others with an exponent of two digits at least. -/
def magnitudeText (significand : Nat) (exponent : Int) : String :=
  if significand = 0 then "0.0"
  else
    let (digits, point) := digitsAndPoint significand exponent
    let text := String.ofList digits
    if -3 ≤ point ∧ point ≤ 0 then
      "0." ++ String.ofList (List.replicate (-point).toNat '0') ++ text
    else if 0 < point ∧ point ≤ 16 then
      if (digits.length : Int) ≤ point then
        text ++ String.ofList (List.replicate (point - digits.length).toNat '0') ++ ".0"
      else String.ofList (digits.take point.toNat) ++ "." ++ String.ofList (digits.drop point.toNat)
    else
      let fraction := String.ofList (digits.drop 1)
      let power := point - 1
      let sign := if power < 0 then "-" else "+"
      let size := toString power.natAbs
      String.ofList (digits.take 1) ++ (if fraction.isEmpty then "" else "." ++ fraction) ++ "e" ++
        sign ++ (if size.length < 2 then "0" ++ size else size)

def text : Binary64 → String
  | .nan => "nan"
  | .infinite negative => if negative then "-inf" else "inf"
  | .finite negative significand exponent =>
      (if negative then "-" else "") ++ magnitudeText significand exponent

end Binary64

end Typeset
