import Shardway.Reply.Reading
import Shardway.Text.Unicode

/-!
The replication role of a node, and how it is read from the report that the node gives of itself.
For a probe a node is asked for this report over a connection of its own. A probe never fails;
whatever goes wrong makes the node unreachable.
-/
namespace Shardway

inductive Role
  | master
  /-- A replica that may name the node it follows. -/
  | replica (source : Option Address)
  | unreachable (reason : String)
deriving DecidableEq, Repr, Inhabited

namespace Role

def isMaster : Role → Bool
  | master => true
  | _ => false

def isReachable : Role → Bool
  | unreachable _ => false
  | _ => true

def text : Role → String
  | master => "master"
  | replica (some source) => s!"replica of {source}"
  | replica none => "replica"
  | unreachable reason => s!"unreachable ({reason})"

end Role

/-- A node's report: a value for each field it names. -/
abbrev Report := List (List Char × List Char)

namespace Report

/-- The lines of a text. A line feed ends a line, along with a carriage return before it, and the
last line may lack its end. -/
def lines : List Char → List (List Char)
  | [] => []
  | '\r' :: '\n' :: r => [] :: lines r
  | c :: r =>
    if c = '\n' then [] :: lines r
    else
      match lines r with
      | [] => [[c]]
      | l :: ls => (c :: l) :: ls

/-- The field on a line: what stands before and after the first colon. Lines that are empty, that
begin with a number sign or that lack a colon hold none. -/
def field? (line : List Char) : Option (List Char × List Char) :=
  if line.head? = some '#' then none
  else
    match line.dropWhile (· ≠ ':') with
    | [] => none
    | _ :: value => some (line.takeWhile (· ≠ ':'), value)

/-- Gives a field its value, in place of an earlier one. -/
def set (r : Report) (key value : List Char) : Report :=
  (key, value) :: r.filter (·.1 ≠ key)

def get? (r : Report) (key : List Char) : Option (List Char) :=
  (r.find? (·.1 = key)).map (·.2)

/-- Reads a report; a later line replaces the value of an earlier one. -/
def ofText (text : String) : Report :=
  ((lines text.toList).filterMap field?).foldl (fun r (k, v) => r.set k v) []

/-- The node that a replica follows, as far as the report names it. -/
def source? (r : Report) : Option Address :=
  match r.get? "master_host".toList, (r.get? "master_port".toList).bind (Text.readNat? 0x10000) with
  | some host, some port =>
    let host := Text.trimChars host
    if host.isEmpty then none else some ⟨String.ofList host, port.toUInt16⟩
  | _, _ => none

/-- The role that the report tells. -/
def role (r : Report) : Except Fault Role :=
  match (r.get? "role".toList).map Text.trimChars with
  | none => .error (.protocol "no role field in INFO reply")
  | some role =>
    if role = "master".toList then .ok .master
    else if role = "slave".toList ∨ role = "replica".toList then .ok (.replica r.source?)
    else .error (.protocol s!"unknown role {Text.quoted (String.ofList role)}")

end Report

/-- The role that the text of a report tells. -/
def Role.ofReport (text : String) : Except Fault Role := (Report.ofText text).role

namespace Probe

/-- The request for the report. -/
def request : Request := [Text.Utf8.encode "INFO", Text.Utf8.encode "replication"]

/-- The role that a reply tells. -/
def readRole (v : Reply) : Except Fault Role :=
  match v.toText with
  | .ok text => Role.ofReport text
  | .error e => .error e.fault

/-- The role of a node that was asked with this outcome. -/
def role (outcome : Except Fault Reply) : Role :=
  match outcome.bind readRole with
  | .ok r => r
  | .error f => .unreachable f.message

end Probe
end Shardway
