import Shardway.Pool.Move
import Shardway.Reply.Basic

/-!
The pools of a client. A registry names one pool for each address that needs one; a pool that leaves
the registry lives on for those who hold it.
-/
namespace Shardway

/-- The number that names a pool. -/
abbrev PoolId := Nat

/-- All that a client asks of the world outside, and all that it tells. Each question is asked on
behalf of an operation, and its answer comes back under the ticket of that operation. -/
inductive Effect
  | notice (n : Notice)
  /-- A pool was opened. -/
  | opened (pool : PoolId)
  | pool (pool : PoolId) (e : Pool.Effect)
  /-- All members of all groups are to be asked for their roles. -/
  | probe (t : Ticket)
  /-- The refresh can go on. -/
  | resume (t : Ticket)
  | refreshed (t : Ticket) (result : Except Fault Unit)
  /-- The request is to be sent over the connection. -/
  | send (t : Ticket) (pool : PoolId) (link : Link) (request : Request)
  /-- The call is to be woken after a while. -/
  | pause (t : Ticket) (span : Span)
  | answered (t : Ticket) (result : Except Fault Reply)

structure Fleet where
  tuning : Config.PoolTuning
  /-- Whether pools evict idle connections in the background. -/
  background : Bool := true
  /-- Every pool that was ever opened, by its number. -/
  pools : List Pool := []
  /-- The pool registered for an address. -/
  registered : List (Address × PoolId) := []
  closed : Bool := false
deriving DecidableEq, Repr, Inhabited

namespace Fleet

/-- The pools after a move, and what the move asks for or tells. -/
abbrev Reaction := Shardway.Reaction Effect Fleet

/-- A move of one pool. -/
def step (now : Nat) (i : PoolId) (m : Pool.Move) (f : Fleet) : Reaction :=
  match f.pools[i]? with
  | none => ⟨f, []⟩
  | some p =>
    (p.step now m).lift (fun p => { f with pools := f.pools.set i p }) (.pool i)

/-- The pool registered for an address. -/
def get? (f : Fleet) (a : Address) : Option PoolId :=
  (f.registered.find? (·.1 = a)).map (·.2)

def size (f : Fleet) : Nat := f.registered.length

/-- The registered addresses in order. -/
def addresses (f : Fleet) : List Address :=
  (f.registered.map (·.1)).mergeSort fun a b => (a.compare b).isLE

/-- Opens a pool for a node and registers it. -/
def openPool (n : Node) (f : Fleet) : Reaction :=
  let id := f.pools.length
  let disabled := !f.background && f.tuning.evictionIntervalMs ≠ 0
  ⟨{ f with
      pools := f.pools ++ [Pool.ofNode n f.tuning]
      registered := f.registered ++ [(n.addr, id)] },
    [.notice (.poolCreated n)] ++ (if disabled then [.notice (.evictionDisabled n.addr)] else []) ++
      [.opened id]⟩

/-- The pool for a node, opened when there is none for its address yet. -/
def getOrOpen (n : Node) (f : Fleet) : Except Fault (PoolId × Reaction) :=
  if f.closed then .error .shutdown
  else
    match f.get? n.addr with
    | some id => .ok (id, ⟨f, []⟩)
    | none => .ok (f.pools.length, f.openPool n)

/-- The registered pools whose address is not to be kept. -/
def stale (keep : List Address) (f : Fleet) : List (Address × PoolId) :=
  f.registered.filter (·.1 ∉ keep)

/-- Unregisters the pools whose address is not to be kept. They stay as they are. -/
def retainOnly (keep : List Address) (f : Fleet) : Fleet :=
  { f with registered := f.registered.filter (·.1 ∈ keep) }

/-- Shuts down pools one after the other. -/
def shutdownEach (now : Nat) : List PoolId → Fleet → Reaction
  | [], f => ⟨f, []⟩
  | i :: r, f => (f.step now i .shutdown).andThen (shutdownEach now r)

/-- Shuts down the registered pools and opens no more. -/
def shutdownAll (now : Nat) (f : Fleet) : Reaction :=
  ({ f with registered := [], closed := true } : Fleet).shutdownEach now
    (f.registered.map (·.2))

end Fleet
end Shardway
