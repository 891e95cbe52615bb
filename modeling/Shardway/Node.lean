import Shardway.Ring
import Shardway.Span
import Shardway.Text.Quoted

/-!
Network addresses, and the nodes of the store that have them. An address is a host and a port,
written with a colon between them. The host may hold colons itself, so the last one is the one that
counts.
-/
namespace Shardway

structure Address where
  host : String
  port : UInt16
deriving DecidableEq, Repr, Inhabited, Hashable

namespace Address

def text (a : Address) : String := s!"{a.host}:{a.port}"

instance : ToString Address := ⟨text⟩

/-- Hosts are compared by code points, ports by number. -/
def compare (a b : Address) : Ordering :=
  (Ord.compare a.host b.host).then (Ord.compare a.port b.port)

instance : Ord Address := ⟨compare⟩

/-- Why a text is no address. -/
inductive ParseFault
  | missingPort (text : String)
  | badPort (text : String)
  | missingHost (text : String)
deriving DecidableEq, Repr

def ParseFault.message : ParseFault → String
  | missingPort t => s!"missing port in {Text.quoted t}"
  | badPort t => s!"invalid port in {Text.quoted t}"
  | missingHost t => s!"missing host in {Text.quoted t}"

/-- What stands before and after the last occurrence of `c`. -/
def splitLast (c : Char) : List Char → Option (List Char × List Char)
  | [] => none
  | x :: r =>
    match splitLast c r with
    | some (before, after) => some (x :: before, after)
    | none => if x = c then some ([], r) else none

/-- Reads a host, a colon and a port. -/
def parse (s : String) : Except ParseFault Address :=
  match splitLast ':' s.toList with
  | none => .error (.missingPort s)
  | some (host, port) =>
    match Text.readNat? 0x10000 port with
    | none => .error (.badPort s)
    | some p =>
      if host.isEmpty then .error (.missingHost s)
      else .ok ⟨String.ofList host, p.toUInt16⟩

end Address

/-- A node of the store: where it is, to which group it belongs, and how long it may take to
answer. -/
structure Node where
  addr : Address
  group : GroupId
  /-- The bound on connecting, and on each request with its reply. -/
  timeout : Span
deriving DecidableEq, Repr, Inhabited

namespace Node

def text (n : Node) : String := s!"{n.addr} (group {n.group})"

instance : ToString Node := ⟨text⟩

end Node
end Shardway
