import Shardway.Text.Digits

/-!
Floating-point numbers of 64 bits, by their bits. What they stand for is a whole number times a
power of two, so reading, rounding and printing are exact arithmetic on whole numbers.
-/
namespace Shardway

/-- A binary floating-point number of double precision. -/
structure Double where
  bits : UInt64
deriving DecidableEq, Repr, Inhabited

namespace Double

/-- What the bits of a number stand for. -/
inductive View
  | nan
  | infinite (negative : Bool)
  /-- `mantissa * 2 ^ exponent`, or less than nothing by as much. -/
  | finite (negative : Bool) (mantissa : Nat) (exponent : Int)
deriving DecidableEq, Repr

/-- The weight of the sign bit. -/
def signBit : Nat := 0x8000000000000000

/-- The least mantissa of a number that is not among the smallest: the weight of the lowest bit of
the exponent field. -/
def leastMantissa : Nat := 0x10000000000000

def isNegative (d : Double) : Bool := signBit ≤ d.bits.toNat

/-- The exponent field. -/
def scale (d : Double) : Nat := d.bits.toNat / leastMantissa % 0x800

/-- The fraction field. -/
def fraction (d : Double) : Nat := d.bits.toNat % leastMantissa

/-- The exponent of the smallest numbers. -/
def leastExponent : Int := -1074

def view (d : Double) : View :=
  if d.scale = 2047 then
    if d.fraction = 0 then .infinite d.isNegative else .nan
  else if d.scale = 0 then .finite d.isNegative d.fraction leastExponent
  else .finite d.isNegative (leastMantissa + d.fraction) (d.scale - 1 + leastExponent)

/-- The number with these bits below the sign. -/
def signed (negative : Bool) (bits : Nat) : Double :=
  ⟨UInt64.ofNat ((if negative then signBit else 0) + bits)⟩

/-- The bits of infinity. -/
def infiniteBits : Nat := 2047 * leastMantissa

def infinity (negative : Bool) : Double := signed negative infiniteBits

def nan : Double := signed false (infiniteBits + leastMantissa / 2)

/-- The whole number nearest to `num / den`; halfway between two it is the even one. -/
def roundHalfEven (num den : Nat) : Nat :=
  let q := num / den
  let r := num % den
  if 2 * r < den then q else if 2 * r > den then q + 1 else q + q % 2

/-- `num * 2 ^ e / den` as a quotient of whole numbers. -/
def shifted (num den : Nat) (e : Int) : Nat × Nat :=
  if 0 ≤ e then (num <<< e.toNat, den) else (num, den <<< (-e).toNat)

/-- The number nearest to `num / den`; halfway between two it is the one with the even mantissa. -/
def ofRatio (negative : Bool) (num den : Nat) : Double :=
  if num = 0 then signed negative 0
  else
    let e : Int := (num.log2 : Int) - den.log2 - 53
    let (n, d) := shifted num den (-e)
    let e := if 2 * leastMantissa ≤ n / d then e + 1 else e
    let e := max e leastExponent
    let (n, d) := shifted num den (-e)
    let bits := (e - leastExponent).toNat * leastMantissa + roundHalfEven n d
    signed negative (min bits infiniteBits)

/-- The number nearest to `digits * 10 ^ e`. -/
def ofDecimal (negative : Bool) (digits : Nat) (e : Int) : Double :=
  let size : Int := (Nat.toDigits 10 digits).length
  if digits = 0 ∨ e + size < -400 then signed negative 0
  else if 400 < e then infinity negative
  else if 0 ≤ e then ofRatio negative (digits * Nat.pow 10 e.toNat) 1
  else ofRatio negative digits (Nat.pow 10 (-e).toNat)

/-! ## Reading -/

/-- The exponent that follows the digits: nothing, or a mark and a whole number. -/
def readExponent? : List Char → Option Int
  | [] => some 0
  | c :: r =>
    if c = 'e' ∨ c = 'E' then
      match r with
      | '-' :: r => (Text.readDigits? r).map fun n => -(n : Int)
      | '+' :: r => (Text.readDigits? r).map Int.ofNat
      | r => (Text.readDigits? r).map Int.ofNat
    else none

/-- Digits, perhaps with a point before, between or after them, and perhaps an exponent. -/
def readDecimal? (negative : Bool) (cs : List Char) : Option Double :=
  let whole := cs.takeWhile Text.isDigit
  let rest := cs.dropWhile Text.isDigit
  let part := match rest with
    | '.' :: r => r.takeWhile Text.isDigit
    | _ => []
  let rest := match rest with
    | '.' :: r => r.dropWhile Text.isDigit
    | r => r
  if whole.isEmpty && part.isEmpty then none
  else
    (readExponent? rest).map fun e =>
      ofDecimal negative (Text.digitsValue (whole ++ part)) (e - part.length)

/-- A number without its sign. The words for what is not finite may be in any case. -/
def readUnsigned? (negative : Bool) (cs : List Char) : Option Double :=
  let word := String.ofList (cs.map Char.toLower)
  if word = "inf" ∨ word = "infinity" then some (infinity negative)
  else if word = "nan" then some nan
  else readDecimal? negative cs

/-- Reads a number in decimal; a sign may precede it. -/
def read? (s : String) : Option Double :=
  match s.toList with
  | '-' :: r => readUnsigned? true r
  | '+' :: r => readUnsigned? false r
  | r => readUnsigned? false r

/-! ## Whole numbers -/

/-- The nearest whole number toward zero, within bounds; a number that is none becomes 0. -/
def toIntWithin (low high : Int) (d : Double) : Int :=
  match d.view with
  | .nan => 0
  | .infinite negative => if negative then low else high
  | .finite negative m e =>
    let n : Int := if 0 ≤ e then (m <<< e.toNat : Nat) else (m >>> (-e).toNat : Nat)
    max low (min high (if negative then -n else n))

/-- The nearest whole number, away from zero halfway between two, as a number of its own. -/
def round (d : Double) : Double :=
  match d.view with
  | .finite negative m e =>
    if 0 ≤ e then d
    else ofRatio negative ((2 * m + 1 <<< (-e).toNat) >>> ((-e).toNat + 1)) 1
  | _ => d

def isFinite (d : Double) : Bool :=
  match d.view with
  | .finite .. => true
  | _ => false

def isZero (d : Double) : Bool :=
  match d.view with
  | .finite _ m _ => m = 0
  | _ => false

end Double
end Shardway
