import Shardway.Config.ReadFault
import Shardway.Document.Basic
import Shardway.Number.Shortest
import Shardway.Text.Unicode

/-!
Settings: documents whose values remember where they came from, and the way to take a value for a
scalar of the kind that is due.
-/
namespace Shardway.Config

/-- The name of a source. -/
abbrev Origin := Option String

inductive Scalar
  | unset
  | bool (b : Bool)
  | int (n : Int)
  | real (d : Double)
  | text (s : String)
deriving DecidableEq, Repr

inductive Setting
  | scalar (s : Scalar) (origin : Origin)
  | list (items : List Setting) (origin : Origin)
  | table (members : List (String × Setting)) (origin : Origin)

namespace Setting

def unset : Setting := .scalar .unset none

def emptyTable : Setting := .table [] none

def lookup (members : List (String × Setting)) (key : String) : Option Setting :=
  (members.find? (·.1 = key)).map (·.2)

/-- Changes the value of a key; the value of a new key is unset before. -/
def modifyMember (key : String) (f : Setting → Setting) (members : List (String × Setting)) :
    List (String × Setting) :=
  if members.any (·.1 = key) then members.map fun m => if m.1 = key then (key, f m.2) else m
  else members ++ [(key, f unset)]

/-! ## Documents -/

/-- A whole number that 64 bits with a sign do not hold counts as a floating-point one. -/
def ofInt (n : Int) : Scalar :=
  if -0x8000000000000000 ≤ n ∧ n < 0x8000000000000000 then .int n
  else .real (.ofRatio (n < 0) n.natAbs 1)

mutual

/-- The settings in a document. Of members with one name the last one counts. -/
def ofDocument (origin : Origin) : Document → Setting
  | .null => .scalar .unset origin
  | .bool b => .scalar (.bool b) origin
  | .int n => .scalar (ofInt n) origin
  | .real d => .scalar (.real d) origin
  | .text s => .scalar (.text s) origin
  | .list items => .list (ofDocuments origin items) origin
  | .object members => .table (ofMembers origin members) origin

def ofDocuments (origin : Origin) : List Document → List Setting
  | [] => []
  | d :: r => ofDocument origin d :: ofDocuments origin r

def ofMembers (origin : Origin) : List (String × Document) → List (String × Setting)
  | [] => []
  | (key, d) :: r =>
    let rest := ofMembers origin r
    if rest.any (·.1 = key) then rest else (key, ofDocument origin d) :: rest

end

/-! ## Scalars -/

/-- What was found where a scalar was due. -/
def found : Setting → String
  | .scalar .unset _ => "unit value"
  | .scalar (.bool b) _ => s!"boolean `{b}`"
  | .scalar (.int n) _ => s!"64-bit integer `{n}`"
  | .scalar (.real d) _ => s!"floating point `{d.textIn .plain}`"
  | .scalar (.text s) _ => s!"string {Text.quoted s}"
  | .list .. => "sequence"
  | .table .. => "map"

def origin : Setting → Origin
  | .scalar _ o | .list _ o | .table _ o => o

/-- The fault of a value that is not what was expected. -/
def mismatch (s : Setting) (expected : String) : ReadFault :=
  .mismatch s.found expected none s.origin

/-- Words for true and false. -/
def truthOf? (s : String) : Option Bool :=
  if s = "true" ∨ s = "on" ∨ s = "yes" then some true
  else if s = "false" ∨ s = "off" ∨ s = "no" then some false
  else none

/-- A number without a sign. Texts are read, truth values count as 1 and 0, and floating-point
numbers are rounded, away from zero halfway, into the range. -/
def toWord (s : Setting) : Except ReadFault Nat :=
  match s with
  | .scalar (.int n) _ =>
    if 0 ≤ n then .ok n.toNat else .error (s.mismatch "an unsigned 64 bit or less integer")
  | .scalar (.bool b) _ => .ok (if b then 1 else 0)
  | .scalar (.real d) _ => .ok (d.round.toIntWithin 0 0xFFFFFFFFFFFFFFFF).toNat
  | .scalar (.text t) _ =>
    match truthOf? (Text.lowercase t), Text.readWord? 64 t with
    | some b, _ => .ok (if b then 1 else 0)
    | none, some n => .ok n
    | none, none => .error (s.mismatch "an integer")
  | _ => .error (s.mismatch "an integer")

/-- A number of fewer bits. -/
def toSmallWord (bits : Nat) (s : Setting) : Except ReadFault Nat := do
  let n ← s.toWord
  if n < 1 <<< bits then return n
  else
    throw (.mismatch s!"64-bit unsigned integer `{n}`" s!"an unsigned {bits} bit integer" none none)

/-- A truth value: a number unless it is zero, or a word in any case. -/
def toBool (s : Setting) : Except ReadFault Bool :=
  match s with
  | .scalar (.bool b) _ => .ok b
  | .scalar (.int n) _ => .ok (n ≠ 0)
  | .scalar (.real d) _ => .ok (!d.isZero)
  | .scalar (.text t) o =>
    let word := Text.lowercase t
    if word = "1" then .ok true
    else if word = "0" then .ok false
    else
      match truthOf? word with
      | some b => .ok b
      | none => .error (mismatch (.scalar (.text word) o) "a boolean")
  | _ => .error (s.mismatch "a boolean")

/-- A text, or another scalar in its usual form. -/
def toText (s : Setting) : Except ReadFault String :=
  match s with
  | .scalar (.text t) _ => .ok t
  | .scalar (.bool b) _ => .ok (toString b)
  | .scalar (.int n) _ => .ok (toString n)
  | .scalar (.real d) _ => .ok (d.textIn .plain)
  | _ => .error (s.mismatch "a string")

/-! ## Other shapes -/

/-- What was found where a list or a table was due. -/
def shape : Setting → String
  | .scalar .unset _ => "unit value"
  | .scalar (.bool b) _ => s!"boolean `{b}`"
  | .scalar (.int n) _ => s!"integer `{n}`"
  | .scalar (.real d) _ =>
    let t := d.textIn .plain
    let t := if d.isFinite && !t.toList.contains '.' then t ++ ".0" else t
    s!"floating point `{t}`"
  | .scalar (.text s) _ => s!"string {Text.quoted s}"
  | .list .. => "sequence"
  | .table .. => "map"

def wrongShape (s : Setting) (expected : String) : ReadFault :=
  .shape s!"invalid type: {s.shape}, expected {expected}"

/-- A list whose items are read one by one. -/
def toList (f : Setting → Except ReadFault α) (s : Setting) : Except ReadFault (List α) :=
  match s with
  | .list items _ =>
    items.zipIdx.mapM fun (item, i) => (f item).mapError (·.inItem i)
  | s => .error (s.wrongShape "a sequence")

/-- One of several names, alone or as the only key of a table. -/
def toChoice (name : String) (choice? : String → Option α) (s : Setting) : Except ReadFault α :=
  let pick (word : String) : Except ReadFault α :=
    match choice? word with
    | some a => .ok a
    | none => .error (.shape s!"enum {name} does not have variant constructor {word}")
  match s with
  | .scalar (.text word) _ => pick word
  | .table [(word, _)] _ => pick word
  | _ => .error <| .shape <|
    s!"value of enum {name} should be represented by either string or " ++
      "table with exactly one key"

end Setting
end Shardway.Config
