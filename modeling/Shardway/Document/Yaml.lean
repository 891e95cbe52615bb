import Shardway.Document.JsonParser

/-!
Reading the part of YAML that configurations are written in: mappings and sequences by indentation,
lists and mappings between brackets on one line, and scalars with quotes or without.
-/
namespace Shardway.Document
namespace Yaml

/-- A line: how far it is indented, and what stands on it. -/
structure Line where
  indent : Nat
  text : List Char

/-- Something read from the front of a text, and the text after it. -/
abbrev Parse (α : Type) := Option (α × List Char)

def isBlank (c : Char) : Bool := c = ' ' || c = '\t'

def skipBlanks (cs : List Char) : List Char := cs.dropWhile isBlank

def trimEnd (cs : List Char) : List Char := (cs.reverse.dropWhile isBlank).reverse

/-! ## Scalars -/

/-- The value of a word without quotes. -/
def plain (cs : List Char) : Document :=
  let s := String.ofList cs
  if s = "" ∨ s = "~" ∨ s = "null" then .null
  else if s = "true" then .bool true
  else if s = "false" then .bool false
  else
    match Text.readSigned? 64 s with
    | some n => .int n
    | none =>
      if s = ".inf" ∨ s = "+.inf" then .real (.infinity false)
      else if s = "-.inf" then .real (.infinity true)
      else if s = ".nan" then .real .nan
      else if cs.any Text.isDigit then
        match Double.read? s with
        | some d => .real d
        | none => .text s
      else .text s

/-- The rest of a text between single quotes; a quote in it is written twice. -/
def single? : List Char → Parse (List Char)
  | [] => none
  | '\'' :: '\'' :: r => (single? r).map fun (cs, r) => ('\'' :: cs, r)
  | c :: r => if c = '\'' then some ([], r) else (single? r).map fun (cs, r) => (c :: cs, r)

/-- A text between quotes. -/
def quoted? : List Char → Parse String
  | '"' :: r => JsonParser.text? r
  | '\'' :: r => (single? r).map fun (cs, r) => (String.ofList cs, r)
  | _ => none

/-- The characters that end a word between brackets. -/
def endsFlow (c : Char) : Bool := c = ',' || c = ']' || c = '}' || c = '[' || c = '{'

/-- A word up to a colon that ends a key, or up to the end of an item between brackets. -/
def splitWord (flow : Bool) : List Char → List Char × List Char
  | [] => ([], [])
  | [':'] => ([], [':'])
  | ':' :: c :: r =>
    if isBlank c || (flow && endsFlow c) then ([], ':' :: c :: r)
    else
      let (word, rest) := splitWord flow (c :: r)
      (':' :: word, rest)
  | c :: r =>
    if flow && endsFlow c then ([], c :: r)
    else
      let (word, rest) := splitWord flow r
      (c :: word, rest)

/-- A key and the colon after it. -/
def key? (flow : Bool) (cs : List Char) : Parse String :=
  let (key, rest) := match quoted? cs with
    | some (s, r) => (s, skipBlanks r)
    | none =>
      let (word, rest) := splitWord flow cs
      (String.ofList (trimEnd word), rest)
  match rest with
  | [':'] => some (key, [])
  | ':' :: r => some (key, r)
  | _ => none

/-! ## Between brackets -/

/-- Items with commas between them, up to a closing bracket. -/
def items? (item : List Char → Parse α) (close : Char) :
    (fuel : Nat) → List Char → Option (List α × List Char)
  | 0, _ => none
  | fuel + 1, cs => do
    match skipBlanks cs with
    | [] => none
    | c :: r =>
      if c = close then some ([], r)
      else
        let (a, r) ← item (c :: r)
        match skipBlanks r with
        | ',' :: r => (items? item close fuel r).map fun (l, r) => (a :: l, r)
        | c :: r => if c = close then some ([a], r) else none
        | [] => none

/-- A key and a value between brackets. -/
def member? (value : List Char → Parse Document) (cs : List Char) :
    Option ((String × Document) × List Char) := do
  let (key, r) ← key? true cs
  let (d, r) ← value (skipBlanks r)
  some ((key, d), r)

/-- A value between brackets, nested at most so deep. -/
def flow? : (depth : Nat) → List Char → Parse Document
  | depth, cs =>
    match cs with
    | '[' :: r =>
      match depth with
      | 0 => none
      | depth + 1 => (items? (flow? depth) ']' (r.length + 1) r).map fun (l, r) => (.list l, r)
    | '{' :: r =>
      match depth with
      | 0 => none
      | depth + 1 =>
        (items? (member? (flow? depth)) '}' (r.length + 1) r).map fun (l, r) => (.object l, r)
    | cs =>
      match quoted? cs with
      | some (s, r) => some (.text s, r)
      | none =>
        let (word, rest) := splitWord true cs
        some (plain (trimEnd word), rest)

/-- How deep brackets may nest. -/
def deepest : Nat := 100

/-- The value that takes the rest of a line. It is no mapping. -/
def inline? (cs : List Char) : Option Document :=
  match cs with
  | '[' :: _ | '{' :: _ | '"' :: _ | '\'' :: _ =>
    match flow? deepest cs with
    | some (d, r) => if (skipBlanks r).isEmpty then some d else none
    | none => none
  | cs => if (key? false cs).isSome then none else some (plain (trimEnd cs))

/-! ## By indentation -/

/-- A value by indentation, and the lines after it. -/
abbrev Block (α : Type) := Option (α × List Line)

/-- The rest of the line after a dash, if it begins with one. -/
def dash? : List Char → Option (List Char)
  | ['-'] => some []
  | '-' :: c :: r => if isBlank c then some (c :: r) else none
  | _ => none

/-- The value after a dash or a key: on the same line, else on the next ones that are indented more,
or as much when they begin with a dash and `dashes` are admitted. -/
def rest? (block : Nat → List Line → Block Document) (dashes : Bool) (indent : Nat)
    (cs : List Char) (lines : List Line) : Block Document :=
  match skipBlanks cs with
  | [] =>
    match lines with
    | l :: _ =>
      if indent < l.indent || (dashes && l.indent = indent && (dash? l.text).isSome) then
        block l.indent lines
      else some (.null, lines)
    | [] => some (.null, [])
  | cs => (inline? cs).map fun d => (d, lines)

mutual

/-- The value that begins at some indentation. -/
def block? : (fuel : Nat) → (indent : Nat) → List Line → Block Document
  | 0, _, _ => none
  | _ + 1, _, [] => none
  | fuel + 1, indent, l :: r =>
    match dash? l.text, key? false l.text with
    | some _, _ => (sequence? fuel indent (l :: r)).map fun (items, r) => (.list items, r)
    | none, some _ => (mapping? fuel indent (l :: r)).map fun (ms, r) => (.object ms, r)
    | none, none => (inline? l.text).map fun d => (d, r)

/-- The items of a sequence. -/
def sequence? : (fuel : Nat) → (indent : Nat) → List Line → Block (List Document)
  | 0, _, _ => none
  | _ + 1, _, [] => some ([], [])
  | fuel + 1, indent, l :: r =>
    if l.indent < indent then some ([], l :: r)
    else
      match dash? l.text with
      | none => if l.indent = indent then some ([], l :: r) else none
      | some item =>
        if l.indent ≠ indent then none
        else
          let inner := skipBlanks item
          let place := l.indent + (l.text.length - inner.length)
          let first :=
            if (dash? inner).isSome || (key? false inner).isSome then
              block? fuel place (⟨place, inner⟩ :: r)
            else rest? (block? fuel) false indent item r
          match first with
          | none => none
          | some (d, r) => (sequence? fuel indent r).map fun (items, r) => (d :: items, r)

/-- The keys of a mapping with their values. -/
def mapping? : (fuel : Nat) → (indent : Nat) → List Line → Block (List (String × Document))
  | 0, _, _ => none
  | _ + 1, _, [] => some ([], [])
  | fuel + 1, indent, l :: r =>
    if l.indent < indent then some ([], l :: r)
    else if l.indent ≠ indent then none
    else
      match key? false l.text with
      | none => none
      | some (key, value) =>
        match rest? (block? fuel) true indent value r with
        | none => none
        | some (d, r) => (mapping? fuel indent r).map fun (ms, r) => ((key, d) :: ms, r)

end

/-! ## Lines -/

/-- Cuts a comment off a line: it begins with a number sign at the start or after a blank, outside
of quotes. -/
def uncomment (quote : Option Char) (blank : Bool) : List Char → List Char
  | [] => []
  | c :: r =>
    match quote with
    | some q => c :: uncomment (if c = q then none else some q) false r
    | none =>
      if c = '#' && blank then []
      else if (c = '"' || c = '\'') && blank then c :: uncomment (some c) false r
      else c :: uncomment none (isBlank c || c = '[' || c = '{' || c = ',') r

/-- The lines that hold something. A tab cannot indent. -/
def line? (cs : List Char) : Option Line :=
  let cs := trimEnd (uncomment none true (cs.filter (· ≠ '\r')))
  if cs.isEmpty then none
  else some ⟨(cs.takeWhile (· = ' ')).length, cs.dropWhile (· = ' ')⟩

def splitLines : List Char → List (List Char)
  | [] => [[]]
  | c :: r =>
    match splitLines r with
    | [] => [[c]]
    | l :: ls => if c = '\n' then [] :: l :: ls else (c :: l) :: ls

end Yaml

open Yaml in
/-- The document that a YAML text holds. -/
def ofYaml? (s : String) : Option Document :=
  let lines := (splitLines s.toList).filterMap line?
  let lines := match lines with
    | ⟨0, ['-', '-', '-']⟩ :: r => r
    | lines => lines
  match lines with
  | [] => some .null
  | l :: r =>
    match block? (2 * s.length + 2) l.indent (l :: r) with
    | some (d, []) => some d
    | _ => none

end Shardway.Document
