import Shardway.Text.Utf8

/-!
The shapes of stored values. A shape says what the values are; the layout in bytes follows from it.
-/
namespace Shardway.Codec

/-- A label over a list of smaller trees. -/
inductive Rose (α : Type) where
  | node (label : α) (kids : List (Rose α))

mutual

inductive Shape where
  | unit
  /-- An integer of so many bytes, with a sign or without. -/
  | int (signed : Bool) (bytes : Nat)
  /-- A floating-point number, given by its bits. -/
  | float
  | bool
  | char
  | text
  | option (s : Shape)
  | list (s : Shape)
  /-- As many values as the shape says. -/
  | array (size : Nat) (s : Shape)
  | pair (s t : Shape)
  /-- Named values, in the order of their names. -/
  | map (s : Shape)
  | rose (s : Shape)
  /-- One of several cases. -/
  | choice (cs : Cases)

inductive Cases where
  | none
  | more (s : Shape) (r : Cases)

end

def Cases.size : Cases → Nat
  | none => 0
  | more _ r => r.size + 1

mutual

/-- The values of a shape. -/
def Shape.Carrier : Shape → Type
  | .unit => Unit
  | .int _ bytes => BitVec (8 * bytes)
  | .float => BitVec 64
  | .bool => Bool
  | .char => Char
  | .text => String
  | .option s => Option s.Carrier
  | .list s => List s.Carrier
  | .array size s => { l : List s.Carrier // l.length = size }
  | .pair s t => s.Carrier × t.Carrier
  | .map s => List (String × s.Carrier)
  | .rose s => Rose s.Carrier
  | .choice cs => cs.Carrier

def Cases.Carrier : Cases → Type
  | .none => Empty
  | .more s r => s.Carrier ⊕ r.Carrier

end

end Shardway.Codec
