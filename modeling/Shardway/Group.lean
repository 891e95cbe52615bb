import Shardway.Role
import Shardway.Notice

/-!
Replication groups: the configured nodes sorted by group, and the outcome of electing a master among
the members of one.
-/
namespace Shardway

/-- The members of one group, in the order of the configuration. -/
structure ReplicaSet where
  id : GroupId
  members : List Node
deriving DecidableEq, Repr, Inhabited

namespace ReplicaSet

/-- Adds a node to its group, in a list of groups with ascending ids. -/
def place (n : Node) : List ReplicaSet → List ReplicaSet
  | [] => [⟨n.group, [n]⟩]
  | s :: r =>
    if n.group < s.id then ⟨n.group, [n]⟩ :: s :: r
    else if n.group = s.id then ⟨s.id, s.members ++ [n]⟩ :: r
    else s :: place n r

/-- The groups of these nodes, by ascending id. -/
def ofNodes (nodes : List Node) : List ReplicaSet := nodes.foldl (fun sets n => place n sets) []

end ReplicaSet

/-- A group after its election. Each member address that was looked at stands in one place. -/
structure ResolvedGroup where
  id : GroupId
  master : Option Node
  replicas : List Node
  unreachable : List Node
deriving DecidableEq, Repr, Inhabited

namespace ResolvedGroup

def hasMaster (g : ResolvedGroup) : Bool := g.master.isSome

def masterAddr? (g : ResolvedGroup) : Option Address := g.master.map (·.addr)

/-- Some member answered. -/
def isReachable (g : ResolvedGroup) : Bool := g.master.isSome || !g.replicas.isEmpty

end ResolvedGroup

/-- Whether one of the nodes has this address. -/
def hasAddr (nodes : List Node) (a : Address) : Bool := nodes.any (·.addr = a)

/-- Adds a node unless its address is there already. -/
def addByAddr (nodes : List Node) (n : Node) : List Node :=
  if hasAddr nodes n.addr then nodes else nodes ++ [n]

namespace Election

/-- Members with the role that each one told. -/
abbrev Ballot := List (Node × Role)

/-- The members that call themselves master. -/
def claimants (b : Ballot) : List Node := (b.filter (·.2.isMaster)).map (·.1)

/-- The first one wins. -/
def winner? (b : Ballot) : Option Node := (claimants b).head?

/-- What is left to place besides the master: entries with the master's address are the master. -/
def others (b : Ballot) : Ballot :=
  match winner? b with
  | none => b
  | some m => b.filter (·.1.addr ≠ m.addr)

/-- The members that answered, each address once. -/
def replicas (b : Ballot) : List Node :=
  ((others b).filter (·.2.isReachable)).foldl (fun ns e => addByAddr ns e.1) []

/-- The members of which no entry answered, each address once. -/
def unreachable (b : Ballot) : List Node :=
  (((others b).filter (!·.2.isReachable)).foldl (fun ns e => addByAddr ns e.1) []).filter
    fun n => !hasAddr (replicas b) n.addr

/-- The list without later copies of an element. -/
def distinct [DecidableEq α] : List α → List α
  | [] => []
  | a :: r => a :: (distinct r).filter (· ≠ a)

/-- What an election reports: rival claims to the master role, and replicas of a stranger. -/
def notices (set : ReplicaSet) (b : Ballot) : List Notice :=
  let claims := (claimants b).map (·.addr)
  let rivals := (distinct claims).length
  let rivalry := match claims with
    | first :: _ => if rivals > 1 then [Notice.rivalMasters set.id rivals claims first] else []
    | [] => []
  rivalry ++ (others b).filterMap fun (n, role) =>
    match role with
    | .replica (some source) =>
      if hasAddr set.members source then none
      else some (.foreignSource set.id n.addr source)
    | _ => none

end Election

/-- Elects the first member that calls itself master; every other member that answered becomes a
replica. Member `i` told the role `roles[i]`. -/
def elect (set : ReplicaSet) (roles : List Role) : ResolvedGroup :=
  let b := set.members.zip roles
  ⟨set.id, Election.winner? b, Election.replicas b, Election.unreachable b⟩

/-- What the election of `elect` reports. -/
def electNotices (set : ReplicaSet) (roles : List Role) : List Notice :=
  Election.notices set (set.members.zip roles)

end Shardway
