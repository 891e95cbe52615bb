import Shardway.Config.Basic
import Shardway.Group
import Shardway.Pool.Fleet

/-!
The index: which group a key belongs to, and which pool leads to the master of that group. Groups
stand by ascending id, so the place of a key depends on nothing but the ids and the routing.
-/
namespace Shardway

/-- A group of the index, with the pool of its master if it has one. -/
structure Slot where
  group : ResolvedGroup
  pool : Option PoolId
deriving DecidableEq, Repr, Inhabited

structure Index where
  /-- The number of the topology that the index stands for. -/
  generation : Nat
  slots : List Slot
  /-- The ring of the groups, if keys are routed by one. -/
  ring : Option Ring

namespace Index

def emptyFault : Fault := .invalidTopology "no groups to route to"

def repeatedFault : Fault := .invalidTopology "duplicate group id in index"

/-- The fault of a key that has no slot. -/
def noSlotFault : Fault := .invalidTopology "empty shard index"

/-- The groups' ids in the order of the slots. -/
def ids (slots : List Slot) : List GroupId := slots.map (·.group.id)

/-- The index of these groups, with ring points placed by `hash`. -/
def build (hash : Bytes → UInt64) (routing : Config.Routing) (generation : Nat)
    (slots : List Slot) : Except Fault Index :=
  let slots := slots.mergeSort fun a b => a.group.id ≤ b.group.id
  if slots.isEmpty then .error emptyFault
  else if ¬(ids slots).Nodup then .error repeatedFault
  else
    .ok ⟨generation, slots, match routing.strategy with
      | .modulo => none
      | .ring => some (.ofGroups hash routing.virtualNodes (ids slots))⟩

def size (x : Index) : Nat := x.slots.length

def groups (x : Index) : List ResolvedGroup := x.slots.map (·.group)

/-- The slot to which a key with this hash belongs. -/
def slotAt? (x : Index) (h : UInt64) : Option Slot :=
  match x.ring with
  | none => (slotOf h x.slots.length).bind (x.slots[·]?)
  | some ring => (ring.successor? h).bind fun g => x.slots.find? (·.group.id = g)

/-- The pool that leads to the owner of a key with this hash. -/
def routeAt (x : Index) (h : UInt64) : Except Fault PoolId :=
  match x.slotAt? h with
  | none => .error noSlotFault
  | some slot =>
    match slot.pool with
    | none => .error (.noMaster slot.group.id)
    | some pool => .ok pool

/-- The slot to which a key belongs. -/
def slotFor? (x : Index) (key : Bytes) : Option Slot := x.slotAt? (keyHash key)

/-- The pool that leads to the owner of a key. -/
def route (x : Index) (key : Bytes) : Except Fault PoolId := x.routeAt (keyHash key)

/-- The master of each group. -/
def masters (x : Index) : List (GroupId × Option Address) :=
  x.groups.map fun g => (g.id, g.masterAddr?)

/-- The addresses of the masters. -/
def masterAddresses (x : Index) : List Address := x.groups.filterMap (·.masterAddr?)

/-- What is told when the masters of one index give way to those of another. -/
def changes (before after : Index) : List Notice :=
  after.groups.filterMap fun g =>
    match (before.groups.find? (·.id = g.id)).bind (·.masterAddr?), g.masterAddr? with
    | some old, some new => if old = new then none else some (.masterChanged g.id old new)
    | none, some new => some (.masterElected g.id new)
    | some old, none => some (.masterLost g.id old)
    | none, none => none

end Index
end Shardway
