import Shardway.Number.Double

/-!
Documents: trees of texts, numbers and truth values, as formats for structured text hold them. The
members of an object stand in the order in which they are written.
-/
namespace Shardway

inductive Document
  | null
  | bool (b : Bool)
  | int (n : Int)
  | real (d : Double)
  | text (s : String)
  | list (items : List Document)
  | object (members : List (String × Document))
deriving Repr, Inhabited

namespace Document

/-- A number that is not negative. -/
def nat (n : Nat) : Document := .int n

/-- A value, or null where there is none. -/
def opt (f : α → Document) : Option α → Document
  | some a => f a
  | none => .null

/-- Items written one by one. -/
def listOf (f : α → Document) (l : List α) : Document := .list (l.map f)

/-- The value of a member; of several with one name the last one counts. -/
def get? (j : Document) (name : String) : Option Document :=
  match j with
  | object members => (members.reverse.find? (·.1 = name)).map (·.2)
  | _ => none

end Document
end Shardway
