import Shardway.Text.Utf8

/-!
Numbers and bytes by their digits: whole numbers in decimal, read with a bound on their value, and
bytes in hexadecimal.
-/
namespace Shardway.Text

/-! ## Decimal -/

/-- The digits 0 to 9. -/
def isDigit (c : Char) : Bool := '0' ≤ c && c ≤ '9'

def digitValue (c : Char) : Nat := c.toNat - '0'.toNat

/-- The value of a run of digits. -/
def digitsValue (cs : List Char) : Nat := cs.foldl (fun n c => n * 10 + digitValue c) 0

/-- The value of a text that is a non-empty run of digits. -/
def readDigits? (cs : List Char) : Option Nat :=
  if cs ≠ [] ∧ cs.all isDigit then some (digitsValue cs) else none

/-- A number below `bound` in decimal; a plus sign may precede it. -/
def readNat? (bound : Nat) (cs : List Char) : Option Nat :=
  let digits := match cs with
    | '+' :: r => r
    | _ => cs
  (readDigits? digits).filter (· < bound)

/-- A number from `-bound` to below `bound` in decimal; a sign may precede it. -/
def readInt? (bound : Nat) (cs : List Char) : Option Int :=
  match cs with
  | '-' :: r => ((readDigits? r).filter (· ≤ bound)).map fun n => -(n : Int)
  | _ => (readNat? bound cs).map Int.ofNat

/-- A number of `bits` bits without a sign. -/
def readWord? (bits : Nat) (s : String) : Option Nat := readNat? (1 <<< bits) s.toList

/-- A number of `bits` bits in two's complement. -/
def readSigned? (bits : Nat) (s : String) : Option Int := readInt? (1 <<< (bits - 1)) s.toList

/-! ## Hexadecimal

Bytes have two lower-case digits each. Upper-case digits are read as well.
-/

def hexValue? (c : Char) : Option Nat :=
  if '0' ≤ c && c ≤ '9' then some (c.toNat - '0'.toNat)
  else if 'a' ≤ c && c ≤ 'f' then some (c.toNat - 'a'.toNat + 10)
  else if 'A' ≤ c && c ≤ 'F' then some (c.toNat - 'A'.toNat + 10)
  else none

namespace Hex

def digits (b : UInt8) : List Char :=
  [Nat.digitChar (b.toNat / 16), Nat.digitChar (b.toNat % 16)]

def encode (bytes : Bytes) : String := String.ofList (bytes.flatMap digits)

def decodeChars? : List Char → Option Bytes
  | [] => some []
  | a :: b :: r =>
    match hexValue? a, hexValue? b with
    | some a, some b => (decodeChars? r).map (UInt8.ofNat (a * 16 + b) :: ·)
    | _, _ => none
  | _ => none

def decode? (s : String) : Option Bytes := decodeChars? s.toList

end Hex

end Shardway.Text
