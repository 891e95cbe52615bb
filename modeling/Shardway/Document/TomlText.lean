import Shardway.Text.Digits

/-!
The four ways in which TOML writes a text: between double or single quotes, one of them or three.
Only between double quotes does a backslash escape, and only three quotes admit line ends.
-/
namespace Shardway.Document.Toml

/-- Characters that may stand in comments and texts. -/
def isVisible (c : Char) : Bool := c = '\t' || (0x20 ≤ c.toNat && c.toNat ≠ 0x7F)

/-- The blanks within a line. -/
def isBlank (c : Char) : Bool := c = ' ' || c = '\t'

/-- What follows the end of a line, if one comes first. -/
def newline? : List Char → Option (List Char)
  | '\n' :: r => some r
  | '\r' :: '\n' :: r => some r
  | _ => none

/-- A code point of so many hexadecimal digits. -/
def codePoint? (count : Nat) (cs : List Char) : Option (Char × List Char) :=
  let ds := cs.take count
  match ds.mapM Text.hexValue? with
  | none => none
  | some values =>
    let n := values.foldl (fun n d => n * 16 + d) 0
    if ds.length = count ∧ n.isValidChar then some (Char.ofNat n, cs.drop count) else none

/-- What follows a backslash. -/
def escape? : List Char → Option (Char × List Char)
  | 'b' :: r => some ('\x08', r)
  | 't' :: r => some ('\t', r)
  | 'n' :: r => some ('\n', r)
  | 'f' :: r => some ('\x0c', r)
  | 'r' :: r => some ('\r', r)
  | '"' :: r => some ('"', r)
  | '\\' :: r => some ('\\', r)
  | 'u' :: r => codePoint? 4 r
  | 'U' :: r => codePoint? 8 r
  | _ => none

/-- What follows a backslash at the end of a line: all blanks and line ends are skipped. -/
def continuation? (cs : List Char) : Option (List Char) :=
  (newline? (cs.dropWhile isBlank)).map
    (·.dropWhile fun c => isBlank c || c = '\n' || c = '\r')

/-- How a text is written. -/
structure Quoting where
  quote : Char
  escapes : Bool
  /-- Between three quotes. -/
  long : Bool

/-- How many quotes come first, up to five: three end a text, and two may stand before them. -/
def quotesAhead (q : Char) (cs : List Char) : Nat := ((cs.take 5).takeWhile (· = q)).length

/-- The characters up to the end of the text. The fuel bounds their number. -/
def body? (k : Quoting) : (fuel : Nat) → List Char → Option (List Char × List Char)
  | 0, _ => none
  | _ + 1, [] => none
  | fuel + 1, c :: r =>
    let more (c : Char) (r : List Char) := (body? k fuel r).map fun (cs, r) => (c :: cs, r)
    if c = k.quote then
      if !k.long then some ([], r)
      else
        let ahead := quotesAhead k.quote (c :: r)
        if 3 ≤ ahead then some (List.replicate (ahead - 3) c, (c :: r).drop ahead) else more c r
    else if c = '\\' && k.escapes then
      match escape? r, if k.long then continuation? r else none with
      | some (c, r), _ => more c r
      | none, some r => body? k fuel r
      | none, none => none
    else if isVisible c then more c r
    else
      match if k.long then newline? (c :: r) else none with
      | some r => more '\n' r
      | none => none

/-- A text whose first quote is `q`, which has been read. -/
def text? (long : Bool) (q : Char) (cs : List Char) : Option (String × List Char) :=
  let k : Quoting := ⟨q, q = '"', long⟩
  let cs := if long then (newline? cs).getD cs else cs
  (body? k (cs.length + 1) cs).map fun (cs, r) => (String.ofList cs, r)

/-- A text of one line. -/
def shortText? : List Char → Option (String × List Char)
  | '"' :: r => text? false '"' r
  | '\'' :: r => text? false '\'' r
  | _ => none

/-- A text of any kind. -/
def anyText? : List Char → Option (String × List Char)
  | '"' :: '"' :: '"' :: r => text? true '"' r
  | '\'' :: '\'' :: '\'' :: r => text? true '\'' r
  | cs => shortText? cs

end Shardway.Document.Toml
