import Shardway.Fault
import Shardway.Reply.Basic

/-!
Reading replies as values of a type. Notes about a reply do not matter, except where a list is due.
-/
namespace Shardway.Reply

/-- Why a reply is no value of the type due. -/
inductive Reason
  | notANumberText
  | notANumber
  | notATruthText
  | notATruth
  | notAText
  | notAList
  | notAnElement (list : String)
  | notAMap
  | wrongCount
  | notAnArray
deriving DecidableEq, Repr

def Reason.message : Reason → String
  | notANumberText => "Could not convert from string."
  | notANumber => "Response type not convertible to numeric."
  | notATruthText => "Response status not valid boolean"
  | notATruth => "Response type not bool compatible."
  | notAText => "Response type not string compatible."
  | notAList => "Response type not vector compatible."
  | notAnElement list => s!"Conversion to {list} failed."
  | notAMap => "Response type not map compatible"
  | wrongCount => "Array response of wrong dimension"
  | notAnArray => "Not a Array response"

inductive Misfit
  | of (reason : Reason) (reply : Reply)
  /-- Bytes that are no text where a text is due. -/
  | badText

def misfitKind : String := "TypeError"

def Misfit.fault : Misfit → Fault
  | .of reason reply =>
    .ofLink (.failed misfitKind "Response was of incompatible type"
      (some s!"{Text.quoted reason.message} (response was {reply.text})"))
  | .badText => .ofLink (.failed misfitKind "Invalid UTF-8" none)

/-- A way to take a reply for a value. -/
abbrev Reading (α : Type) := Reply → Except Misfit α

/-- The text in bytes. -/
def textOf (bytes : Bytes) : Except Misfit String :=
  match Text.Utf8.decode? bytes with
  | some s => .ok s
  | none => .error .badText

/-- A fixed range of whole numbers. -/
structure Range where
  signed : Bool
  bits : Nat
deriving DecidableEq, Repr

namespace Range

def low (r : Range) : Int := if r.signed then -((1 <<< (r.bits - 1) : Nat) : Int) else 0

def high (r : Range) : Int :=
  ((1 <<< (if r.signed then r.bits - 1 else r.bits) : Nat) : Int) - 1

/-- The number of the range that is equal to `n` in its lowest bits. -/
def wrap (r : Range) (n : Int) : Int :=
  if r.signed then n.bmod (1 <<< r.bits) else n % ((1 <<< r.bits : Nat) : Int)

def read? (r : Range) (s : String) : Option Int :=
  if r.signed then Text.readSigned? r.bits s else (Text.readWord? r.bits s).map Int.ofNat

end Range

/-- A whole number, its text, or a floating-point number cut down to one. -/
def toInt (range : Range) (v : Reply) : Except Misfit Int :=
  let v := v.inner
  let ofText (s : String) : Except Misfit Int :=
    match range.read? s with
    | some n => .ok n
    | none => .error (.of .notANumberText v)
  match v with
  | .int n => .ok (range.wrap n.toInt)
  | .simple s => ofText s
  | .bulk bytes => textOf bytes >>= ofText
  | .double d => .ok (d.toIntWithin range.low range.high)
  | _ => .error (.of .notANumber v)

def toBool (v : Reply) : Except Misfit Bool :=
  let v := v.inner
  match v with
  | .nil => .ok false
  | .int n => .ok (n ≠ 0)
  | .simple "1" => .ok true
  | .simple "0" => .ok false
  | .simple _ => .error (.of .notATruthText v)
  | .bulk [49] => .ok true
  | .bulk [48] => .ok false
  | .bool b => .ok b
  | .okay => .ok true
  | _ => .error (.of .notATruth v)

def toText (v : Reply) : Except Misfit String :=
  let v := v.inner
  match v with
  | .bulk bytes => textOf bytes
  | .okay => .ok "OK"
  | .simple s => .ok s
  | .verbatim _ s => .ok s
  | .double d => .ok (d.textIn .plain)
  | .int n => .ok (toString n)
  | _ => .error (.of .notAText v)

/-- Nothing for a nil, else a value. -/
def toOption (f : Reading α) (v : Reply) : Except Misfit (Option α) :=
  match v.inner with
  | .nil => .ok none
  | v => some <$> f v

/-- The items of a list. Each pair of a map counts as a map of its own. -/
def items? : Reply → Option (List Reply)
  | .nil => some []
  | .array l | .set l => some l
  | .map l => some (l.map fun p => .map [p])
  | _ => none

/-- Bytes: a bulk text as it is, or numbers one by one. -/
def toBytes (v : Reply) : Except Misfit Bytes :=
  match v with
  | .bulk bytes => .ok bytes
  | v =>
    match v.items? with
    | some l => l.mapM fun e => (fun n => UInt8.ofNat n.toNat) <$> toInt ⟨false, 8⟩ e
    | none => .error (.of .notAList v)

/-- A list: one element in a bulk text, or elements one by one. `name` is what a message calls the
type of such lists. -/
def toList (name : String) (f : Reading α) (v : Reply) : Except Misfit (List α) :=
  match v with
  | .bulk _ =>
    match f v with
    | .ok a => .ok [a]
    | .error _ => .error (.of (.notAnElement name) v)
  | v =>
    match v.items? with
    | some l => l.mapM f
    | none => .error (.of .notAList v)

/-- Two by two. -/
def paired : List α → Option (List (α × α))
  | [] => some []
  | [_] => none
  | a :: b :: r => (paired r).map ((a, b) :: ·)

/-- The pairs of a map, or of a list of even length. -/
def pairs? : Reply → Option (List (Reply × Reply))
  | .nil => some []
  | .map l => some l
  | .array l => paired l
  | _ => none

/-- Named values. -/
def toMap (f : Reading α) (g : Reading β) (v : Reply) : Except Misfit (List (α × β)) :=
  let v := v.inner
  match v.pairs? with
  | none => .error (.of .notAMap v)
  | some l => l.mapM fun (k, v) => do return (← f k, ← g v)

/-- Two values in an array, or the first pair of a map. -/
def toPair (f : Reading α) (g : Reading β) (v : Reply) : Except Misfit (α × β) :=
  let v := v.inner
  match v with
  | .array [a, b] | .map ((a, b) :: _) => do return (← f a, ← g b)
  | .array _ | .map [] => .error (.of .wrongCount v)
  | _ => .error (.of .notAnArray v)

end Shardway.Reply
