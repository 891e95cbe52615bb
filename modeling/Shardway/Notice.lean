import Shardway.Fault

/-!
What is reported while the program runs, apart from its answers.
-/
namespace Shardway

inductive Level
  | info | warn
deriving DecidableEq, Repr

def Level.name : Level → String
  | info => "INFO"
  | warn => "WARN"

inductive Notice
  | resolving (nodes groups : Nat)
  | groupResolved (group : GroupId) (master : Address) (replicas unreachable : Nat)
  | groupMasterless (group : GroupId) (replicas unreachable : Nat)
  | rivalMasters (group : GroupId) (count : Nat) (claimants : List Address) (elected : Address)
  | foreignSource (group : GroupId) (replica source : Address)
  | poolCreated (node : Node)
  | evictionDisabled (addr : Address)
  | routerReady (groups masters : Nat)
  | masterChanged (group : GroupId) (old new : Address)
  | masterElected (group : GroupId) (new : Address)
  | masterLost (group : GroupId) (old : Address)
  | poolRetired (addr : Address)
  | refreshEvery (period : Span)
  | refreshFailed (fault : Fault)
  /-- A refresh that a user watches failed. -/
  | watchedRefreshFailed (fault : Fault)
  | routerShutDown
  | connectFailed (addr : Address) (fault : Fault)
  | refillFailed (addr : Address) (fault : Fault)
  | poolShutDown (addr : Address) (closed : Nat)
  | retrying (attempt : Nat) (fault : Fault) (delay : Span)
deriving DecidableEq, Repr

namespace Notice

def level : Notice → Level
  | groupMasterless .. | rivalMasters .. | foreignSource .. | evictionDisabled _ | masterLost ..
  | refreshFailed _ | watchedRefreshFailed _ | connectFailed .. | refillFailed ..
  | retrying .. => .warn
  | _ => .info

def text : Notice → String
  | resolving nodes groups => s!"Resolving {nodes} nodes in {groups} groups"
  | groupResolved g master replicas unreachable =>
    s!"Group {g} resolved: master={master}, replicas={replicas}, unreachable={unreachable}"
  | groupMasterless g replicas unreachable =>
    s!"Group {g} has no master: replicas={replicas}, unreachable={unreachable}"
  | rivalMasters g count claimants elected =>
    s!"Group {g}: {count} nodes claim the master role (" ++
      ", ".intercalate (claimants.map Address.text) ++ s!"), electing {elected}"
  | foreignSource g replica source =>
    s!"Group {g}: replica {replica} follows {source}, which is not a member of the group"
  | poolCreated node => s!"Creating connection pool for {node}"
  | evictionDisabled addr => s!"No tokio runtime; idle eviction disabled for {addr}"
  | routerReady groups masters => s!"Shard router ready: {groups} groups, {masters} masters"
  | masterChanged g old new => s!"Group {g}: master changed {old} -> {new}"
  | masterElected g new => s!"Group {g}: master elected {new}"
  | masterLost g old => s!"Group {g}: lost master {old}"
  | poolRetired addr => s!"Retiring pool for {addr}"
  | refreshEvery period => s!"Refreshing topology every {period.text}"
  | refreshFailed fault => s!"Topology refresh failed: {fault.message}"
  | watchedRefreshFailed fault => s!"Refresh failed: {fault.message}"
  | routerShutDown => "Shard router shut down"
  | connectFailed addr fault => s!"Failed to open connection to {addr}: {fault.message}"
  | refillFailed addr fault => s!"Could not refill idle pool for {addr}: {fault.message}"
  | poolShutDown addr closed => s!"Pool for {addr} shut down ({closed} idle connections closed)"
  | retrying attempt fault delay =>
    s!"Retry attempt {attempt} failed: {fault.message}, retrying in {delay.text}"

/-- The notice as one line. -/
def line (n : Notice) : String := s!"{n.level.name} {n.text}"

end Notice
end Shardway
