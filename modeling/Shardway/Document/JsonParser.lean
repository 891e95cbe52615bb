import Shardway.Document.Basic
import Shardway.Text.Digits

/-!
Reading JSON. Nothing beyond the grammar is accepted: no comments, no trailing commas, no bare
control characters, no unpaired surrogates, and nothing but blanks after the document.
-/
namespace Shardway.Document.JsonParser

/-- A value read from the front of a text, and the text after it. -/
abbrev Parse (α : Type) := Option (α × List Char)

/-- The blanks of JSON. -/
def isGap (c : Char) : Bool := c = ' ' || c = '\t' || c = '\n' || c = '\r'

def skipGap (cs : List Char) : List Char := cs.dropWhile isGap

/-- Drops a fixed text. -/
def expect : List Char → List Char → Option (List Char)
  | [], cs => some cs
  | a :: word, c :: cs => if a = c then expect word cs else none
  | _ :: _, [] => none

/-! ## Texts -/

/-- A number of four hexadecimal digits. -/
def unit? : List Char → Parse Nat
  | a :: b :: c :: d :: r =>
    match Text.hexValue? a, Text.hexValue? b, Text.hexValue? c, Text.hexValue? d with
    | some a, some b, some c, some d => some (((a * 16 + b) * 16 + c) * 16 + d, r)
    | _, _, _, _ => none
  | _ => none

def isHighSurrogate (n : Nat) : Bool := 0xD800 ≤ n && n < 0xDC00

def isLowSurrogate (n : Nat) : Bool := 0xDC00 ≤ n && n < 0xE000

/-- A character given by one unit, or by two that are surrogates of each other. -/
def unicode? (cs : List Char) : Parse Char :=
  match unit? cs with
  | none => none
  | some (n, r) =>
    if isLowSurrogate n then none
    else if isHighSurrogate n then
      match expect ['\\', 'u'] r with
      | none => none
      | some r =>
        match unit? r with
        | none => none
        | some (m, r) =>
          if isLowSurrogate m then
            some (Char.ofNat (0x10000 + (n - 0xD800) * 0x400 + (m - 0xDC00)), r)
          else none
    else some (Char.ofNat n, r)

/-- What follows a backslash. -/
def escape? : List Char → Parse Char
  | '"' :: r => some ('"', r)
  | '\\' :: r => some ('\\', r)
  | '/' :: r => some ('/', r)
  | 'b' :: r => some ('\x08', r)
  | 'f' :: r => some ('\x0c', r)
  | 'n' :: r => some ('\n', r)
  | 'r' :: r => some ('\r', r)
  | 't' :: r => some ('\t', r)
  | 'u' :: r => unicode? r
  | _ => none

/-- The characters up to the closing quote. The fuel bounds their number. -/
def chars? : (fuel : Nat) → List Char → Parse (List Char)
  | 0, _ => none
  | _ + 1, [] => none
  | fuel + 1, c :: r =>
    if c = '"' then some ([], r)
    else if c = '\\' then
      match escape? r with
      | none => none
      | some (c, r) => (chars? fuel r).map fun (cs, r) => (c :: cs, r)
    else if c.toNat < 0x20 then none
    else (chars? fuel r).map fun (cs, r) => (c :: cs, r)

/-- A text whose opening quote has been read. -/
def text? (cs : List Char) : Parse String :=
  (chars? cs.length cs).map fun (cs, r) => (String.ofList cs, r)

/-! ## Numbers -/

/-- Digits without a needless zero in front. -/
def whole? (cs : List Char) : Parse (List Char) :=
  match cs.takeWhile Text.isDigit with
  | [] => none
  | ['0'] => some (['0'], cs.dropWhile Text.isDigit)
  | '0' :: _ => none
  | digits => some (digits, cs.dropWhile Text.isDigit)

/-- The digits after the point, if there is one. -/
def part? : List Char → Parse (List Char)
  | '.' :: r =>
    match r.takeWhile Text.isDigit with
    | [] => none
    | digits => some (digits, r.dropWhile Text.isDigit)
  | cs => some ([], cs)

/-- The exponent and whether one is written. -/
def exponent? : List Char → Parse (Option Int)
  | c :: r =>
    if c = 'e' || c = 'E' then
      let (negative, r) := match r with
        | '-' :: r => (true, r)
        | '+' :: r => (false, r)
        | r => (false, r)
      match r.takeWhile Text.isDigit with
      | [] => none
      | digits =>
        let n : Int := Text.digitsValue digits
        some (some (if negative then -n else n), r.dropWhile Text.isDigit)
    else some (none, c :: r)
  | [] => some (none, [])

/-- The least and the greatest whole number that is kept as one. -/
def isWhole (n : Int) : Bool := -0x8000000000000000 ≤ n && n < 0x10000000000000000

/-- A number in decimal. Whole numbers that 64 bits hold are kept exactly, a negative zero apart;
every other number is rounded, and must not be too large for that. -/
def number? (negative : Bool) (cs : List Char) : Option (Document × List Char) := do
  let (whole, r) ← whole? cs
  let (part, r) ← part? r
  let (e, r) ← exponent? r
  let magnitude : Int := Text.digitsValue whole
  let n := if negative then -magnitude else magnitude
  if part.isEmpty && e.isNone && isWhole n && !(negative && n = 0) then some (.int n, r)
  else
    let d := Double.ofDecimal negative (Text.digitsValue (whole ++ part)) (e.getD 0 - part.length)
    if d.isFinite then some (.real d, r) else none

/-! ## Documents -/

/-- Items with commas between them, up to a closing bracket; at least one is still to come. -/
def items? (item : List Char → Parse α) (close : Char) :
    (fuel : Nat) → List Char → Option (List α × List Char)
  | 0, _ => none
  | fuel + 1, cs => do
    let (a, r) ← item (skipGap cs)
    match skipGap r with
    | ',' :: r => (items? item close fuel r).map fun (l, r) => (a :: l, r)
    | c :: r => if c = close then some ([a], r) else none
    | [] => none

/-- Items with commas between them, after the opening bracket. -/
def enclosed? (item : List Char → Parse α) (close : Char) (cs : List Char) : Parse (List α) :=
  match skipGap cs with
  | [] => none
  | c :: r => if c = close then some ([], r) else items? item close (c :: r).length (c :: r)

/-- A name, a colon and a value. -/
def member? (value : List Char → Parse Document) :
    List Char → Option ((String × Document) × List Char)
  | '"' :: r => do
    let (name, r) ← text? r
    match skipGap r with
    | ':' :: r => (value (skipGap r)).map fun (v, r) => ((name, v), r)
    | _ => none
  | _ => none

/-- A value in which lists and objects nest at most so deep. -/
def value? : (depth : Nat) → List Char → Parse Document
  | _, [] => none
  | depth, c :: r =>
    match c with
    | '"' => (text? r).map fun (s, r) => (.text s, r)
    | 'n' => (expect "ull".toList r).map fun r => (.null, r)
    | 't' => (expect "rue".toList r).map fun r => (.bool true, r)
    | 'f' => (expect "alse".toList r).map fun r => (.bool false, r)
    | '-' => number? true r
    | '[' =>
      match depth with
      | 0 => none
      | depth + 1 => (enclosed? (value? depth) ']' r).map fun (l, r) => (.list l, r)
    | '{' =>
      match depth with
      | 0 => none
      | depth + 1 => (enclosed? (member? (value? depth)) '}' r).map fun (l, r) => (.object l, r)
    | c => number? false (c :: r)

/-- How deep lists and objects may nest. -/
def deepest : Nat := 127

end JsonParser

open JsonParser in
/-- The document that a JSON text holds. -/
def ofJson? (s : String) : Option Document :=
  match value? deepest (skipGap s.toList) with
  | some (j, r) => if (skipGap r).isEmpty then some j else none
  | none => none

end Shardway.Document
