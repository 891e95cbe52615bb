import Shardway.Config.Basic
import Shardway.Text.Unicode

/-!
Which configurations are usable: `Valid` states the conditions, and `check` finds the first one that
fails.
-/
namespace Shardway.Config

/-- The longest timeout of a node in milliseconds: one hour. -/
def longestTimeoutMs : Nat := 3600000

/-- Why a configuration is not usable. -/
inductive Flaw
  | noNodes
  | blankHost (group : GroupId)
  | portZero (host : String)
  | badTimeout (host : String) (port : UInt16) (timeoutMs : Nat)
  | twoGroups (host : String) (port : UInt16) (owner other : GroupId)
  | noRingPoints
  | noCapacity
  | minIdleAboveMax (minIdle maxIdle : Nat)
  | maxIdleAboveTotal (maxIdle maxTotal : Nat)
deriving DecidableEq, Repr

namespace Flaw

def message : Flaw → String
  | noNodes => "no nodes configured"
  | blankHost g => s!"node in group {g} has an empty host"
  | portZero host => s!"node {host} has port 0"
  | badTimeout host port ms =>
    s!"node {host}:{port} timeout_ms must be in 1..={longestTimeoutMs}, got {ms}"
  | twoGroups host port owner other =>
    s!"node {host}:{port} is listed in groups {owner} and {other}"
  | noRingPoints => "routing.virtual_nodes must be > 0 for the ring strategy"
  | noCapacity => "pool.max_total must be > 0"
  | minIdleAboveMax low high => s!"pool.min_idle ({low}) exceeds pool.max_idle ({high})"
  | maxIdleAboveTotal idle total => s!"pool.max_idle ({idle}) exceeds pool.max_total ({total})"

/-- A missing node or one in two groups is a fault of the topology, all else of a setting. -/
def fault (f : Flaw) : Fault :=
  match f with
  | noNodes | twoGroups .. => .invalidTopology f.message
  | _ => .invalidConfig f.message

end Flaw

/-! ## The conditions -/

/-- An entry that is usable by itself. -/
structure NodeEntry.Valid (e : NodeEntry) : Prop where
  host : Text.trimChars e.host.toList ≠ []
  port : e.port ≠ 0
  timeout_pos : 0 < e.timeoutMs
  timeout_le : e.timeoutMs ≤ longestTimeoutMs

structure PoolTuning.Valid (p : PoolTuning) : Prop where
  maxTotal_pos : 0 < p.maxTotal
  minIdle_le : p.minIdle ≤ p.maxIdle
  maxIdle_le : p.maxIdle ≤ p.maxTotal

/-- A ring has points. -/
def Routing.Valid (r : Routing) : Prop := r.strategy = .ring → 0 < r.virtualNodes

structure Cluster.Valid (c : Cluster) : Prop where
  nodes_ne : c.nodes ≠ []
  entries : ∀ e ∈ c.nodes, e.Valid
  one_group : ∀ a ∈ c.nodes, ∀ b ∈ c.nodes, a.addr = b.addr → a.group = b.group
  routing : c.routing.Valid
  pool : c.pool.Valid

/-! ## The check -/

/-- What is wrong with an entry by itself. -/
def NodeEntry.flaw? (e : NodeEntry) : Option Flaw :=
  if Text.trimChars e.host.toList = [] then some (.blankHost e.group)
  else if e.port = 0 then some (.portZero e.host)
  else if e.timeoutMs = 0 ∨ e.timeoutMs > longestTimeoutMs then
    some (.badTimeout e.host e.port e.timeoutMs)
  else none

/-- The first entry whose address an earlier one has given to another group; `owners` are the
addresses seen so far, each with the group that listed it first. -/
def ownerFlaw? (owners : List (Address × GroupId)) : List NodeEntry → Option Flaw
  | [] => none
  | e :: r =>
    match owners.find? (·.1 = e.addr) with
    | none => ownerFlaw? ((e.addr, e.group) :: owners) r
    | some (_, owner) =>
      if owner = e.group then ownerFlaw? owners r
      else some (.twoGroups e.host e.port owner e.group)

def PoolTuning.flaw? (p : PoolTuning) : Option Flaw :=
  if p.maxTotal = 0 then some .noCapacity
  else if p.minIdle > p.maxIdle then some (.minIdleAboveMax p.minIdle p.maxIdle)
  else if p.maxIdle > p.maxTotal then some (.maxIdleAboveTotal p.maxIdle p.maxTotal)
  else none

def Routing.flaw? (r : Routing) : Option Flaw :=
  if r.strategy = .ring ∧ r.virtualNodes = 0 then some .noRingPoints else none

/-- The first thing that is wrong with a configuration. -/
def Cluster.flaw? (c : Cluster) : Option Flaw :=
  if c.nodes = [] then some .noNodes
  else
    (c.nodes.findSome? NodeEntry.flaw?).or <|
      (ownerFlaw? [] c.nodes).or <| c.routing.flaw?.or c.pool.flaw?

def PoolTuning.check (p : PoolTuning) : Except Fault Unit :=
  match p.flaw? with
  | some f => .error f.fault
  | none => .ok ()

def Cluster.check (c : Cluster) : Except Fault Unit :=
  match c.flaw? with
  | some f => .error f.fault
  | none => .ok ()

end Shardway.Config
