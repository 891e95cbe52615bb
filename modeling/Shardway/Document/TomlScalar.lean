import Shardway.Document.Basic
import Shardway.Text.Digits

/-!
The values of TOML that are written without quotes: truth values, numbers, dates and times. Dates and
times are kept as texts in their usual form.
-/
namespace Shardway.Document.Toml

/-- Digits, where single underscores may stand between two. -/
def digits? (isDigit : Char → Bool) : List Char → Option (List Char)
  | [] => none
  | [c] => if isDigit c then some [c] else none
  | c :: '_' :: r => if isDigit c then (digits? isDigit r).map (c :: ·) else none
  | c :: d :: r => if isDigit c then (digits? isDigit (d :: r)).map (c :: ·) else none

/-- Decimal digits without a needless zero in front. -/
def wholeDigits? (cs : List Char) : Option (List Char) :=
  match digits? Text.isDigit cs with
  | some ('0' :: _ :: _) => none
  | ds => ds

/-- A sign, and what follows it. -/
def splitSign : List Char → Option Bool × List Char
  | '-' :: r => (some true, r)
  | '+' :: r => (some false, r)
  | r => (none, r)

/-- Whole numbers lie within 64 bits. -/
def wholeWithin (n : Int) : Option Document :=
  if -0x8000000000000000 ≤ n ∧ n < 0x8000000000000000 then some (.int n) else none

def inBase? (base : Nat) (cs : List Char) : Option Document :=
  let isDigit (c : Char) : Bool :=
    match Text.hexValue? c with
    | some n => n < base
    | none => false
  match digits? isDigit cs with
  | none => none
  | some ds => wholeWithin (ds.foldl (fun n c => n * base + (Text.hexValue? c).getD 0) 0 : Nat)

/-- A whole number: decimal with a sign or without, or in another base without one. -/
def int? (cs : List Char) : Option Document :=
  match cs with
  | '0' :: 'x' :: r => inBase? 16 r
  | '0' :: 'o' :: r => inBase? 8 r
  | '0' :: 'b' :: r => inBase? 2 r
  | _ =>
    let (sign, r) := splitSign cs
    match wholeDigits? r with
    | none => none
    | some ds =>
      let n : Int := Text.digitsValue ds
      wholeWithin (if sign = some true then -n else n)

/-- A number with a point or an exponent, or a word for what is not finite. -/
def real? (cs : List Char) : Option Document :=
  let (sign, r) := splitSign cs
  let negative := sign = some true
  if r = "inf".toList then some (.real (.infinity negative))
  else if r = "nan".toList then some (.real .nan)
  else
    let isMark (c : Char) : Bool := c = 'e' || c = 'E'
    if !r.any fun c => isMark c || c = '.' then none else
    let mantissa := r.takeWhile (!isMark ·)
    let whole := mantissa.takeWhile (· ≠ '.')
    let part? := match mantissa.dropWhile (· ≠ '.') with
      | _ :: part => digits? Text.isDigit part
      | [] => some []
    let exponent? : Option Int := match r.dropWhile (!isMark ·) with
      | _ :: e =>
        let (sign, e) := splitSign e
        (digits? Text.isDigit e).map fun ds =>
          if sign = some true then -(Text.digitsValue ds : Int) else Text.digitsValue ds
      | [] => some 0
    match wholeDigits? whole, part?, exponent? with
    | some whole, some part, some e =>
      let d := Double.ofDecimal negative (Text.digitsValue (whole ++ part)) (e - part.length)
      if d.isFinite then some (.real d) else none
    | _, _, _ => none

/-! ## Dates and times -/

/-- A number of exactly so many digits, and what follows it. -/
def fixed? (count : Nat) (cs : List Char) : Option (Nat × List Char) :=
  match Text.readDigits? (cs.take count) with
  | some n => if (cs.take count).length = count then some (n, cs.drop count) else none
  | none => none

def isLeap (year : Nat) : Bool := (year % 4 = 0 && year % 100 ≠ 0) || year % 400 = 0

def daysIn (year month : Nat) : Nat :=
  if month = 2 then (if isLeap year then 29 else 28)
  else if month = 4 ∨ month = 6 ∨ month = 9 ∨ month = 11 then 30
  else 31

/-- A date, and what follows it. -/
def date? (cs : List Char) : Option (List Char × List Char) := do
  let (year, r) ← fixed? 4 cs
  let '-' :: r := r | none
  let (month, r) ← fixed? 2 r
  let '-' :: r := r | none
  let (day, r) ← fixed? 2 r
  if 1 ≤ month ∧ month ≤ 12 ∧ 1 ≤ day ∧ day ≤ daysIn year month then some (cs.take 10, r) else none

/-- A fraction of a second in nanoseconds, cut off after nine digits, without zeros at its end. -/
def fraction (ds : List Char) : List Char :=
  let kept := ((ds.take 9).reverse.dropWhile (· = '0')).reverse
  if kept.isEmpty then [] else '.' :: kept

/-- A time of day, and what follows it. -/
def time? (cs : List Char) : Option (List Char × List Char) := do
  let (hour, r) ← fixed? 2 cs
  let ':' :: r := r | none
  let (minute, r) ← fixed? 2 r
  let ':' :: r := r | none
  let (second, r) ← fixed? 2 r
  if 24 ≤ hour ∨ 60 ≤ minute ∨ 60 < second then none
  else
    match r with
    | '.' :: f =>
      let ds := f.takeWhile Text.isDigit
      if ds.isEmpty then none else some (cs.take 8 ++ fraction ds, f.dropWhile Text.isDigit)
    | r => some (cs.take 8, r)

/-- How far a time is off from the common one. -/
def offset? : List Char → Option (List Char)
  | [] => some []
  | ['Z'] | ['z'] => some ['Z']
  | sign :: r => do
    let (hour, r₁) ← fixed? 2 r
    let ':' :: r₂ := r₁ | none
    let (minute, rest) ← fixed? 2 r₂
    if (sign = '+' ∨ sign = '-') ∧ hour < 24 ∧ minute < 60 ∧ rest.isEmpty then
      some ((if hour = 0 ∧ minute = 0 then '+' else sign) :: r.take 5)
    else none

/-- The mark between a date and a time. -/
def isTimeMark (c : Char) : Bool := c = 'T' || c = 't' || c = ' '

/-- A date, a time, or both, and then perhaps an offset. -/
def moment? (cs : List Char) : Option Document :=
  match date? cs with
  | some (date, []) => some (.text (String.ofList date))
  | some (date, mark :: r) =>
    if isTimeMark mark then do
      let (time, r) ← time? r
      let offset ← offset? r
      some (.text (String.ofList (date ++ 'T' :: (time ++ offset))))
    else none
  | none =>
    match time? cs with
    | some (time, []) => some (.text (String.ofList time))
    | _ => none

/-! ## All of them -/

def isScalarChar (c : Char) : Bool :=
  c.isAlphanum || c = '+' || c = '-' || c = '.' || c = '_' || c = ':'

/-- A value without quotes, and what follows it. A time may follow a date after a blank. -/
def scalar? (cs : List Char) : Option (Document × List Char) :=
  let word := cs.takeWhile isScalarChar
  let rest := cs.dropWhile isScalarChar
  let (word, rest) := match date? word, rest with
    | some (_, []), ' ' :: r =>
      if (r.head?.map Text.isDigit).getD false then
        (word ++ ' ' :: r.takeWhile isScalarChar, r.dropWhile isScalarChar)
      else (word, rest)
    | _, _ => (word, rest)
  let value :=
    if word = "true".toList then some (.bool true)
    else if word = "false".toList then some (.bool false)
    else (int? word).or ((real? word).or (moment? word))
  value.map fun d => (d, rest)

end Shardway.Document.Toml
