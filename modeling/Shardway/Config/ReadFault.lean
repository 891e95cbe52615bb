import Shardway.Text.Quoted

/-!
Why a configuration could not be read: its text, or a value in it, is not what is due.
-/
namespace Shardway.Config

inductive ReadFault
  /-- A field that has no default is absent. -/
  | missing (key : String)
  /-- A value cannot be taken for a scalar of the kind due. -/
  | mismatch (found expected : String) (key origin : Option String)
  /-- The fault of the value under a key. -/
  | under (key : String) (fault : ReadFault)
  /-- A value of the wrong shape. -/
  | shape (message : String)
  /-- The source as a whole cannot be used. -/
  | source (message : String)
  /-- The text of a source breaks the rules of its format. -/
  | malformed
deriving DecidableEq, Repr

namespace ReadFault

/-- Where a value stands and where it came from. -/
def place (key origin : Option String) : String :=
  (match key with
    | some k => s!" for key `{k}`"
    | none => "") ++
  (match origin with
    | some o => s!" in {o}"
    | none => "")

/-- What is wrong; nothing is said of a malformed source. -/
def message : ReadFault → String
  | missing key => s!"missing configuration field {Text.quoted key}"
  | mismatch found expected key origin =>
    s!"invalid type: {found}, expected {expected}{place key origin}"
  | under key fault => fault.message ++ place (some key) none
  | shape m | source m => m
  | malformed => ""

/-- The key of a value inside the value under `segment`: a name follows a name after a dot, and an
index follows without one. -/
def join (segment : String) (dotted : Bool) (key : String) : String :=
  if dotted && key.toList.head? != some '[' then s!"{segment}.{key}" else segment ++ key

/-- The fault seen from one level further out. -/
def within (segment : String) (dotted : Bool) : ReadFault → ReadFault
  | missing key => missing (join segment dotted key)
  | mismatch found expected key origin =>
    mismatch found expected (some (match key with
      | some k => join segment dotted k
      | none => segment)) origin
  | under key fault => under (join segment dotted key) fault
  | fault => under segment fault

/-- The fault of the value of a field. -/
def inField (name : String) : ReadFault → ReadFault := within name true

/-- The fault of an element of a list. -/
def inItem (index : Nat) : ReadFault → ReadFault := within s!"[{index}]" false

end ReadFault
end Shardway.Config
