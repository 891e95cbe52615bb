import Shardway.Config.Setting

/-!
Key paths such as `nodes[0].port`, and putting a setting where one leads to. Tables are merged into
the tables that are there; whatever else is in the way is replaced.
-/
namespace Shardway.Config

/-- A step from a setting to one inside it. -/
inductive KeyStep
  | key (name : String)
  /-- An item of a list; negative numbers count from its end. -/
  | index (i : Int)
deriving DecidableEq, Repr

structure KeyPath where
  root : String
  steps : List KeyStep := []
deriving DecidableEq, Repr

namespace KeyPath

/-! ## Reading -/

def isNameChar (c : Char) : Bool := c.isAlphanum || c = '_' || c = '-'

def isGap (c : Char) : Bool := c = ' ' || c = '\t'

/-- A name, and what follows it. -/
def name? (cs : List Char) : Option (String × List Char) :=
  let word := cs.takeWhile isNameChar
  if word.isEmpty then none else some (String.ofList word, cs.dropWhile isNameChar)

/-- A number and a closing bracket, and what follows them. -/
def index? (cs : List Char) : Option (Int × List Char) :=
  let cs := cs.dropWhile isGap
  let (negative, cs) := match cs with
    | '-' :: r => (true, r)
    | cs => (false, cs)
  let digits := cs.takeWhile Text.isDigit
  let n? := Text.readInt? 0x8000000000000000 (if negative then '-' :: digits else digits)
  match n?, (cs.dropWhile Text.isDigit).dropWhile isGap with
  | some n, ']' :: r => some (n, r)
  | _, _ => none

/-- The steps after the root. The fuel bounds their number. -/
def steps? : (fuel : Nat) → List Char → Option (List KeyStep)
  | _, [] => some []
  | 0, _ => none
  | fuel + 1, '.' :: r => do
    let (name, r) ← name? r
    return .key name :: (← steps? fuel r)
  | fuel + 1, '[' :: r => do
    let (i, r) ← index? r
    return .index i :: (← steps? fuel r)
  | _, _ => none

def parse? (s : String) : Option KeyPath := do
  let (root, r) ← name? s.toList
  return ⟨root, ← steps? r.length r⟩

/-- The path that a key stands for; a key that is no path is a name as it is. -/
def ofKey (key : String) : KeyPath := (parse? key).getD ⟨key, []⟩

end KeyPath

namespace Setting

/-- Changes the item at a place of a list. Places past the end, or before the start, are filled up
with items that are unset. -/
def modifyItem (i : Int) (f : Setting → Setting) (items : List Setting) : List Setting :=
  let padded :=
    if 0 ≤ i then items ++ List.replicate (i.toNat + 1 - items.length) unset
    else List.replicate (i.natAbs - items.length) unset ++ items
  padded.modify (if 0 ≤ i then i.toNat else padded.length - i.natAbs) f

/-- Changes the setting to which steps lead. What stands in their way becomes a table or a list. -/
def modifyAt : (steps : List KeyStep) → (f : Setting → Setting) → Setting → Setting
  | [], f, s => f s
  | .key name :: r, f, s =>
    match s with
    | .table members o => .table (modifyMember name (modifyAt r f) members) o
    | _ => .table (modifyMember name (modifyAt r f) []) none
  | .index i :: r, f, s =>
    match s with
    | .list items o => .list (modifyItem i (modifyAt r f) items) o
    | _ => .list (modifyItem i (modifyAt r f) []) none

mutual

/-- The setting `old` after `new` has come over it. -/
def merge : (new old : Setting) → Setting
  | .table members _, .table olds o => .table (mergeMembers members olds) o
  | .table members _, _ => .table (mergeMembers members []) none
  | new, _ => new

def mergeMembers : (members olds : List (String × Setting)) → List (String × Setting)
  | [], olds => olds
  | (key, new) :: r, olds => mergeMembers r (modifyMember key (merge new) olds)

end

/-- Puts a setting under a key. -/
def put (key : String) (new : Setting) (s : Setting) : Setting :=
  let path := KeyPath.ofKey key
  modifyAt (.key path.root :: path.steps) (merge new) s

/-- Puts all settings of a source over what is there. -/
def putAll (members : List (String × Setting)) (s : Setting) : Setting :=
  members.foldl (fun s (key, new) => put key new s) s

end Setting
end Shardway.Config
