import Shardway.Document.Basic
import Shardway.Number.Shortest
import Shardway.Text.Quoted

/-!
Writing JSON: on one line without blanks, or with every item on a line of its own.
-/
namespace Shardway.Document

/-- One character of a text. Only quotes, backslashes and control characters are escaped. -/
def escaped (c : Char) : List Char :=
  if c = '"' then ['\\', '"']
  else if c = '\\' then ['\\', '\\']
  else if c = '\n' then ['\\', 'n']
  else if c = '\r' then ['\\', 'r']
  else if c = '\t' then ['\\', 't']
  else if c.toNat = 8 then ['\\', 'b']
  else if c.toNat = 12 then ['\\', 'f']
  else if c.toNat < 32 then
    ['\\', 'u', '0', '0', Nat.digitChar (c.toNat / 16), Nat.digitChar (c.toNat % 16)]
  else [c]

def quoted (s : String) : String :=
  String.ofList ('"' :: (s.toList.flatMap escaped ++ ['"']))

/-- A value that holds no others. -/
def scalar : Document → String
  | .bool b => toString b
  | .int n => toString n
  | .real d => d.textIn .marked
  | .text s => quoted s
  | _ => "null"

/-- How items are set apart: what stands before the first, between two, and after the last. -/
structure Spacing where
  before : String
  between : String
  after : String
  /-- What stands between a name and its value. -/
  colon : String

/-- Everything on one line. -/
def Spacing.tight : Spacing := ⟨"", ",", "", ":"⟩

/-- Every item on a line of its own, at so many levels of two blanks. -/
def Spacing.indented (level : Nat) : Spacing :=
  let line (level : Nat) := "\n" ++ String.ofList (List.replicate (2 * level) ' ')
  ⟨line (level + 1), "," ++ line (level + 1), line level, ": "⟩

/-- Items between brackets. An empty list has nothing between its brackets. -/
def surround (s : Spacing) (opening closing : String) (items : List String) : String :=
  if items.isEmpty then opening ++ closing
  else opening ++ s.before ++ s.between.intercalate items ++ s.after ++ closing

mutual

/-- A document at some level of nesting. -/
def write (spacing : Nat → Spacing) (level : Nat) : Document → String
  | .list items => surround (spacing level) "[" "]" (writeItems spacing (level + 1) items)
  | .object members =>
    surround (spacing level) "\x7b" "\x7d" (writeMembers spacing (level + 1) members)
  | .null => "null"
  | .bool b => scalar (.bool b)
  | .int n => scalar (.int n)
  | .real d => scalar (.real d)
  | .text s => scalar (.text s)

def writeItems (spacing : Nat → Spacing) (level : Nat) : List Document → List String
  | [] => []
  | j :: r => write spacing level j :: writeItems spacing level r

def writeMembers (spacing : Nat → Spacing) (level : Nat) : List (String × Document) → List String
  | [] => []
  | (name, j) :: r =>
    (quoted name ++ (spacing level).colon ++ write spacing level j) ::
      writeMembers spacing level r

end

/-- The document as JSON on one line. -/
def json (d : Document) : String := write (fun _ => .tight) 0 d

/-- The document as JSON on many lines. -/
def prettyJson (d : Document) : String := write .indented 0 d

end Shardway.Document
