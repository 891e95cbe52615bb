import Shardway.Document.TomlScalar
import Shardway.Document.TomlTable
import Shardway.Document.TomlText

/-!
Reading TOML: lines that put values under keys, and headers that say to which table the keys belong.
-/
namespace Shardway.Document
namespace Toml

/-- Something read from the front of a text, and the text after it. -/
abbrev Parse (α : Type) := Option (α × List Char)

def skipBlanks (cs : List Char) : List Char := cs.dropWhile isBlank

/-- Drops a comment up to the end of its line, if one comes first. -/
def skipComment? : List Char → Option (List Char)
  | '#' :: r =>
    let rest := r.dropWhile isVisible
    if rest.isEmpty || (newline? rest).isSome then some rest else none
  | cs => some cs

/-- Drops blanks, comments and line ends. The fuel bounds their number. -/
def skipLines? : (fuel : Nat) → List Char → Option (List Char)
  | 0, _ => none
  | fuel + 1, cs => do
    let rest ← skipComment? (skipBlanks cs)
    match newline? rest with
    | some rest => skipLines? fuel rest
    | none => some rest

def skipGap? (cs : List Char) : Option (List Char) := skipLines? (cs.length + 1) cs

/-- Drops what may follow on a line, up to its end. -/
def endLine? (cs : List Char) : Option (List Char) := do
  let rest ← skipComment? (skipBlanks cs)
  if rest.isEmpty then some [] else newline? rest

/-! ## Keys -/

def isBareChar (c : Char) : Bool := c.isAlphanum || c = '_' || c = '-'

/-- One part of a key. -/
def keyPart? (cs : List Char) : Parse String :=
  match shortText? cs with
  | some k => some k
  | none =>
    let word := cs.takeWhile isBareChar
    if word.isEmpty then none else some (String.ofList word, cs.dropWhile isBareChar)

/-- A key: parts with dots between them. The last part comes apart from those before it. -/
def key? : (fuel : Nat) → List Char → Option ((List String × String) × List Char)
  | 0, _ => none
  | fuel + 1, cs => do
    let (part, r) ← keyPart? (skipBlanks cs)
    match skipBlanks r with
    | '.' :: r =>
      let ((path, last), r) ← key? fuel r
      some ((part :: path, last), r)
    | r => some (([], part), r)

/-- A key, an equals sign and a value. -/
def pair? (value : List Char → Parse Document) (cs : List Char) :
    Option ((List String × String × Document) × List Char) := do
  let ((path, last), r) ← key? (cs.length + 1) cs
  match r with
  | '=' :: r =>
    let (d, r) ← value (skipBlanks r)
    some ((path, last, d), r)
  | _ => none

/-! ## Values -/

/-- The items of a list after its opening bracket; line ends may stand between them, and a comma
after the last. -/
def items? (value : List Char → Parse Document) :
    (fuel : Nat) → List Char → Option (List Document × List Char)
  | 0, _ => none
  | fuel + 1, cs => do
    match ← skipGap? cs with
    | ']' :: r => some ([], r)
    | cs =>
      let (d, r) ← value cs
      match ← skipGap? r with
      | ',' :: r =>
        let (l, r) ← items? value fuel r
        some (d :: l, r)
      | ']' :: r => some ([d], r)
      | _ => none

/-- The pairs of a table within a line, at least one of which is still to come. -/
def pairs? (value : List Char → Parse Document) :
    (fuel : Nat) → Entries → List Char → Option (Entries × List Char)
  | 0, _, _ => none
  | fuel + 1, t, cs => do
    let ((path, last, d), r) ← pair? value cs
    let t ← t.insert path last d
    match skipBlanks r with
    | ',' :: r => pairs? value fuel t r
    | '}' :: r => some (t, r)
    | _ => none

/-- A table within a line, after its opening brace. -/
def inlineTable? (value : List Char → Parse Document) (cs : List Char) :
    Option (Document × List Char) :=
  match skipBlanks cs with
  | '}' :: r => some (.object [], r)
  | r => (pairs? value (r.length + 1) [] r).map fun (t, r) => (.object (members t), r)

/-- A value in which lists and tables nest at most so deep. -/
def value? : (depth : Nat) → List Char → Parse Document
  | depth, cs =>
    match cs with
    | '[' :: r =>
      match depth with
      | 0 => none
      | depth + 1 => (items? (value? depth) (r.length + 1) r).map fun (l, r) => (.list l, r)
    | '{' :: r =>
      match depth with
      | 0 => none
      | depth + 1 => inlineTable? (value? depth) r
    | '"' :: _ | '\'' :: _ => (anyText? cs).map fun (t, r) => (.text t, r)
    | cs => scalar? cs

/-- How deep lists and tables within values may nest. -/
def deepest : Nat := 80

/-! ## Lines -/

/-- A key up to the closing brackets of a header. -/
def header? (closing : List Char) (cs : List Char) :
    Option ((List String × String) × List Char) := do
  let (key, r) ← key? (cs.length + 1) cs
  if r.take closing.length = closing then some (key, r.drop closing.length) else none

/-- Reads lines into the tables; `here` is the path of the table to which keys belong. -/
def lines? : (fuel : Nat) → (here : List String) → Entries → List Char → Option Entries
  | 0, _, _, _ => none
  | fuel + 1, here, t, cs => do
    match ← skipGap? cs with
    | [] => some t
    | '[' :: '[' :: r =>
      let ((path, last), r) ← header? [']', ']'] r
      let t ← t.openRow path last
      lines? fuel (path ++ [last]) t (← endLine? r)
    | '[' :: r =>
      let ((path, last), r) ← header? [']'] r
      let t ← t.openTable path last
      lines? fuel (path ++ [last]) t (← endLine? r)
    | cs =>
      let ((path, last, d), r) ← pair? (value? deepest) cs
      let t ← t.insertUnder here path last d
      lines? fuel here t (← endLine? r)

end Toml

open Toml in
/-- The document that a TOML text holds. -/
def ofToml? (s : String) : Option Document :=
  let cs := match s.toList with
    | '\ufeff' :: r => r
    | cs => cs
  (lines? (cs.length + 1) [] [] cs).map fun t => .object (members t)

end Shardway.Document
