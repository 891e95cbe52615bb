import Shardway.Number.Shortest
import Shardway.Reply.Refusal
import Shardway.Text.Quoted
import Shardway.Text.Utf8

/-!
Requests to a node, and the replies that it sends in answer to them, with their text in messages.
-/
namespace Shardway

/-- A command for a node: its name and its arguments. -/
abbrev Request := List Bytes

/-- How the text of a reply with markup is to be taken. -/
inductive Markup
  | plain
  | markdown
  | other (name : String)
deriving DecidableEq, Repr

def Markup.ofName : String → Markup
  | "txt" => plain
  | "mkd" => markdown
  | name => other name

def Markup.name : Markup → String
  | plain => "txt"
  | markdown => "mkd"
  | other name => name

/-- The kind of markup as messages show it. -/
def Markup.text : Markup → String
  | .plain => "Text"
  | .markdown => "Markdown"
  | .other name => s!"Unknown({Text.quoted name})"

inductive Reply
  | nil
  | int (n : Int64)
  | bulk (bytes : Bytes)
  | simple (text : String)
  | okay
  | array (items : List Reply)
  | set (items : List Reply)
  | map (pairs : List (Reply × Reply))
  | double (d : Double)
  | bool (b : Bool)
  | verbatim (markup : Markup) (text : String)
  /-- A whole number of any size. -/
  | big (n : Int)
  /-- A reply with notes about it. -/
  | attribute (data : Reply) (notes : List (Reply × Reply))
  /-- A message that the node sends of its own accord. -/
  | push (kind : String) (items : List Reply)
  /-- An error inside another reply. -/
  | refusal (r : Refusal)
deriving Repr, Inhabited

namespace Reply

def commas (l : List String) : String := ", ".intercalate l

/-- Items between square brackets. -/
def bracketed (l : List String) : String := s!"[{commas l}]"

/-- Bytes between quotes when they are a text, else as numbers. -/
def bulkText (bytes : Bytes) : String :=
  match Text.Utf8.decode? bytes with
  | some s => s!"bulk-string('{Text.quoted s}')"
  | none => s!"binary-data({bracketed (bytes.map toString)})"

mutual

/-- The reply as messages show it. Notes are left out. -/
def text : Reply → String
  | .nil => "nil"
  | .int n => s!"int({n})"
  | .bulk bytes => bulkText bytes
  | .simple s => s!"simple-string({Text.quoted s})"
  | .okay => "ok"
  | .array items => s!"array({bracketed (texts items)})"
  | .set items => s!"set({bracketed (texts items)})"
  | .map pairs => s!"map({bracketed (pairTexts pairs)})"
  | .double d => s!"double({d.textIn .marked})"
  | .bool b => s!"boolean({b})"
  | .verbatim markup s => s!"verbatim-string({markup.text},{Text.quoted s})"
  | .big n => s!"big-number({n})"
  | .attribute data _ => s!"attribute({text data})"
  | .push kind items => s!"push(Other({Text.quoted kind}), {bracketed (texts items)})"
  | .refusal r =>
    match r.detail with
    | some detail => s!"Server error: `{r.code}: {detail}`"
    | none => s!"Server error: `{r.code}`"

def texts : List Reply → List String
  | [] => []
  | v :: r => text v :: texts r

def pairTexts : List (Reply × Reply) → List String
  | [] => []
  | (k, v) :: r => s!"({text k}, {text v})" :: pairTexts r

end

/-- The reply without notes about it. -/
def inner : Reply → Reply
  | .attribute data _ => data
  | v => v

end Reply
end Shardway
