import Shardway.Codec.Layout
import Shardway.Document.Basic
import Shardway.Text.Digits

/-!
Schemas: shapes whose parts have names, so that a stored value can be shown as a document and read
from one. A schema without names would do for the bytes; a document needs them.
-/
namespace Shardway.Codec

mutual

inductive Schema where
  | unit
  | int (signed : Bool) (bytes : Nat)
  | float
  | bool
  | char
  | text
  | option (s : Schema)
  | list (s : Schema)
  | array (size : Nat) (s : Schema)
  | map (s : Schema)
  | rose (s : Schema)
  /-- Values one after the other. -/
  | tuple (p : Parts)
  /-- Values under the names of fields. -/
  | record (f : Fields)
  | choice (c : Choices)

inductive Parts where
  | last (s : Schema)
  | more (s : Schema) (r : Parts)

inductive Fields where
  | last (name : String) (s : Schema)
  | more (name : String) (s : Schema) (r : Fields)

inductive Choices where
  | none
  | more (name : String) (s : Schema) (r : Choices)

end

mutual

/-- The shape without the names. -/
def Schema.shape : Schema → Shape
  | .unit => .unit
  | .int signed bytes => .int signed bytes
  | .float => .float
  | .bool => .bool
  | .char => .char
  | .text => .text
  | .option s => .option s.shape
  | .list s => .list s.shape
  | .array size s => .array size s.shape
  | .map s => .map s.shape
  | .rose s => .rose s.shape
  | .tuple p => p.shape
  | .record f => f.shape
  | .choice c => .choice c.cases

def Parts.shape : Parts → Shape
  | .last s => s.shape
  | .more s r => .pair s.shape r.shape

def Fields.shape : Fields → Shape
  | .last _ s => s.shape
  | .more _ s r => .pair s.shape r.shape

def Choices.cases : Choices → Cases
  | .none => .none
  | .more _ s r => .more s.shape r.cases

end

/-- The values of a schema. -/
abbrev Schema.Carrier (s : Schema) : Type := s.shape.Carrier

def Schema.isUnit : Schema → Bool
  | .unit => true
  | _ => false

/-! ## Documents -/

mutual

/-- A tree as objects with a label and smaller trees. -/
def roseDocument (f : α → Document) : Rose α → Document
  | .node label kids => .object [("v", f label), ("kids", .list (roseDocuments f kids))]

def roseDocuments (f : α → Document) : List (Rose α) → List Document
  | [] => []
  | t :: r => roseDocument f t :: roseDocuments f r

end

mutual

/-- The document of a value. Floating-point numbers stand as the digits of their bits, which a
number in decimal could not give for all of them. -/
def Schema.document : (s : Schema) → s.shape.Carrier → Document
  | .unit, _ => .null
  | .int signed _, v => .int (if signed then BitVec.toInt v else BitVec.toNat v)
  | .float, v => .text (Text.Hex.encode (littleEndian 8 (BitVec.toNat v)).reverse)
  | .bool, b => .bool b
  | .char, c => .text (String.singleton c)
  | .text, t => .text t
  | .option _, none => .null
  | .option s, some v => s.document v
  | .list s, l => .list (l.map s.document)
  | .array _ s, l => .list (l.1.map s.document)
  | .map s, l => .object (l.map fun (k, v) => (k, s.document v))
  | .rose s, t => roseDocument s.document t
  | .tuple p, v => .list (p.documents v)
  | .record f, v => .object (f.members v)
  | .choice c, v => c.document v

def Parts.documents : (p : Parts) → p.shape.Carrier → List Document
  | .last s, v => [s.document v]
  | .more s r, (v, w) => s.document v :: r.documents w

def Fields.members : (f : Fields) → f.shape.Carrier → List (String × Document)
  | .last name s, v => [(name, s.document v)]
  | .more name s r, (v, w) => (name, s.document v) :: r.members w

/-- A case that holds nothing is its name, any other an object with its name. -/
def Choices.document : (c : Choices) → c.cases.Carrier → Document
  | .more name s _, .inl v =>
    if s.isUnit then .text name else .object [(name, s.document v)]
  | .more _ _ r, .inr v => r.document v

end

/-! ## Reading documents -/

/-- A tree whose document nests no deeper than the fuel. -/
def readRoseDocument? (f : Document → Option α) : (fuel : Nat) → Document → Option (Rose α)
  | 0, _ => none
  | fuel + 1, j =>
    match j.get? "v", j.get? "kids" with
    | some label, some (.list kids) => do
      return .node (← f label) (← kids.mapM (readRoseDocument? f fuel))
    | _, _ => none

/-- What a document says of the case with this name, if it is this case. -/
def Schema.payload? (s : Schema) (name : String) (j : Document) : Option Document :=
  if s.isUnit then
    match j with
    | .text t => if t = name then some .null else none
    | _ => none
  else j.get? name

/-- Deeper than any document that is read. -/
def deepestDocument : Nat := 128

mutual

/-- The value of a document. -/
def Schema.ofDocument? : (s : Schema) → Document → Option s.shape.Carrier
  | .unit, _ => some ()
  | .int _ bytes, .int n => some (BitVec.ofInt (8 * bytes) n)
  | .float, .text t =>
    (Text.Hex.decode? t).bind fun bytes =>
      match readLittleEndian 8 bytes.reverse with
      | .ok (n, _) => some (BitVec.ofNat 64 n)
      | .error _ => none
  | .bool, .bool b => some b
  | .char, .text t =>
    match t.toList with
    | [c] => some c
    | _ => none
  | .text, .text t => some t
  | .option _, .null => some none
  | .option s, j => (s.ofDocument? j).map some
  | .list s, .list l => l.mapM s.ofDocument?
  | .array size s, .list l =>
    (l.mapM s.ofDocument?).bind fun l => if h : l.length = size then some ⟨l, h⟩ else none
  | .map s, .object members =>
    (members.mapM fun (m : String × Document) => (s.ofDocument? m.2).map fun v => (m.1, v)).map
      collectNamed
  | .rose s, j => readRoseDocument? s.ofDocument? deepestDocument j
  | .tuple p, .list l => p.ofDocuments? l
  | .record f, j => f.ofDocument? j
  | .choice c, j => c.ofDocument? j
  | _, _ => none

def Parts.ofDocuments? : (p : Parts) → List Document → Option p.shape.Carrier
  | .last s, [j] => s.ofDocument? j
  | .more s r, j :: l =>
    (s.ofDocument? j).bind fun v => (r.ofDocuments? l).map fun w => (v, w)
  | _, _ => none

/-- An absent field counts as null. -/
def Fields.ofDocument? : (f : Fields) → Document → Option f.shape.Carrier
  | .last name s, j => s.ofDocument? ((j.get? name).getD .null)
  | .more name s r, j =>
    (s.ofDocument? ((j.get? name).getD .null)).bind fun v =>
      (r.ofDocument? j).map fun w => (v, w)

def Choices.ofDocument? : (c : Choices) → Document → Option c.cases.Carrier
  | .none, _ => none
  | .more name s r, j =>
    match s.payload? name j with
    | some payload => (s.ofDocument? payload).map .inl
    | none => (r.ofDocument? j).map .inr

end

end Shardway.Codec
