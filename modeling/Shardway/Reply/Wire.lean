import Shardway.Fault
import Shardway.Reply.Basic
import Shardway.Text.Digits

/-!
The wire format of requests and replies. Every item begins with a byte that tells its kind; lines end
with a carriage return and a line feed, and lengths stand before what they count.
-/
namespace Shardway.Reply.Wire

def lineEnd : Bytes := [13, 10]

/-! ## Requests -/

/-- A text with its length before it. -/
def writeBulk (bytes : Bytes) : Bytes :=
  Text.Utf8.encode s!"${bytes.length}" ++ lineEnd ++ bytes ++ lineEnd

/-- A request as it is sent: a list of texts. -/
def writeRequest (r : List Bytes) : Bytes :=
  Text.Utf8.encode s!"*{r.length}" ++ lineEnd ++ r.flatMap writeBulk

/-! ## Replies -/

/-- What the bytes received so far make up. -/
inductive Parse (α : Type)
  | done (a : α) (rest : Bytes)
  /-- More bytes have to come. -/
  | incomplete
  | malformed

namespace Parse

def bind (p : Parse α) (f : α → Bytes → Parse β) : Parse β :=
  match p with
  | done a rest => f a rest
  | incomplete => .incomplete
  | malformed => .malformed

def map (p : Parse α) (f : α → β) : Parse β := p.bind fun a rest => .done (f a) rest

/-- The value, if there is one. -/
def ofOption (a : Option α) (rest : Bytes) : Parse α :=
  match a with
  | some a => .done a rest
  | none => .malformed

end Parse

/-- The bytes of a line, without its end. -/
def line : Bytes → Parse Bytes
  | [] => .incomplete
  | 13 :: 10 :: r => .done [] r
  | b :: r => (line r).map (b :: ·)

/-- The text of a line. -/
def textLine (bytes : Bytes) : Parse String :=
  (line bytes).bind fun l rest => .ofOption (Text.Utf8.decode? l) rest

def intLine (bytes : Bytes) : Parse Int :=
  (textLine bytes).bind fun s rest => .ofOption (Text.readSigned? 64 s) rest

/-- So many bytes and the end of a line. -/
def counted (n : Nat) (bytes : Bytes) : Parse Bytes :=
  if bytes.length < n + 2 then .incomplete
  else if (bytes.drop n).take 2 = lineEnd then .done (bytes.take n) (bytes.drop (n + 2))
  else .malformed

/-- A text with its length before it; a negative length stands for none. -/
def bulk (bytes : Bytes) : Parse (Option Bytes) :=
  (intLine bytes).bind fun n rest =>
    if n < 0 then .done none rest else (counted n.toNat rest).map some

/-- A text with its length before it, which must be there. -/
def bulkText (bytes : Bytes) : Parse String :=
  (bulk bytes).bind fun b rest => .ofOption (b.bind Text.Utf8.decode?) rest

/-- So many items. -/
def items (item : Bytes → Parse α) : Nat → Bytes → Parse (List α)
  | 0, bytes => .done [] bytes
  | n + 1, bytes => (item bytes).bind fun a rest => (items item n rest).map (a :: ·)

/-- Items with their number before them; a negative number stands for none. -/
def countedItems (item : Bytes → Parse α) (bytes : Bytes) : Parse (Option (List α)) :=
  (intLine bytes).bind fun n rest =>
    if n < 0 then .done none rest else (items item n.toNat rest).map some

def pair (item : Bytes → Parse Reply) (bytes : Bytes) : Parse (Reply × Reply) :=
  (item bytes).bind fun k rest => (item rest).map fun v => (k, v)

/-- A whole number of any size. -/
def bigInt? (s : String) : Option Int :=
  match s.toList with
  | '-' :: r => (Text.readDigits? r).map fun n => -(n : Int)
  | '+' :: r => (Text.readDigits? r).map Int.ofNat
  | r => (Text.readDigits? r).map Int.ofNat

/-- A text with markup: three letters that name it, and a colon. -/
def verbatim? (s : String) : Option Reply :=
  match s.toList.takeWhile (· ≠ ':'), s.toList.dropWhile (· ≠ ':') with
  | name, _ :: text => some (.verbatim (.ofName (String.ofList name)) (String.ofList text))
  | _, [] => none

/-- A message that the node sends of its own accord: its first item names its kind. -/
def push? : List Reply → Option Reply
  | .bulk kind :: r => (Text.Utf8.decode? kind).map fun k => .push k r
  | .simple kind :: r => some (.push kind r)
  | _ => none

/-- A reply in which lists nest at most so deep. -/
def reply : (depth : Nat) → Bytes → Parse Reply
  | _, [] => .incomplete
  | 0, _ => .malformed
  | depth + 1, kind :: r =>
    let item := reply depth
    match Char.ofNat kind.toNat with
    | '+' => (textLine r).map fun s => if s = "OK" then .okay else .simple s
    | '-' => (textLine r).map fun s => .refusal (.ofLine s)
    | ':' => (intLine r).map fun n => .int (Int64.ofInt n)
    | '$' => (bulk r).map fun b => (b.map .bulk).getD .nil
    | '*' => (countedItems item r).map fun l => (l.map .array).getD .nil
    | '_' => (textLine r).map fun _ => .nil
    | '#' => (textLine r).bind fun s rest =>
      if s = "t" then .done (.bool true) rest
      else if s = "f" then .done (.bool false) rest
      else .malformed
    | ',' => (textLine r).bind fun s rest => .ofOption ((Double.read? s).map .double) rest
    | '(' => (textLine r).bind fun s rest => .ofOption ((bigInt? s).map .big) rest
    | '=' => (bulkText r).bind fun s rest => .ofOption (verbatim? s) rest
    | '!' => (bulkText r).map fun s => .refusal (.ofLine s)
    | '%' => (countedItems (pair item) r).map fun l => .map (l.getD [])
    | '~' => (countedItems item r).map fun l => .set (l.getD [])
    | '>' => (countedItems item r).bind fun l rest => .ofOption (push? (l.getD [])) rest
    | '|' => (countedItems (pair item) r).bind fun notes rest =>
      (item rest).map fun data => .attribute data (notes.getD [])
    | _ => .malformed

/-- How deep replies may nest. -/
def deepest : Nat := 100

/-- The first reply among the bytes received so far. -/
def read (bytes : Bytes) : Parse Reply := reply deepest bytes

/-- What a request comes to: an error reply is a fault, any other is the reply. -/
def outcome : Reply → Except Fault Reply
  | .refusal r => .error (.ofLink r.report)
  | v => .ok v

end Shardway.Reply.Wire
