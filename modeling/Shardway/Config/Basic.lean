import Shardway.Fault

/-!
The configuration of a client: the nodes of the store, the tuning of its connection pools, and how
keys are routed.
-/
namespace Shardway.Config

/-- One configured endpoint of the store. -/
structure NodeEntry where
  host : String
  port : UInt16
  group : GroupId
  /-- The bound on connecting and on each request, in milliseconds. -/
  timeoutMs : Nat := 2000
deriving DecidableEq, Repr, Inhabited

/-- The tuning of a connection pool. Times are in milliseconds. -/
structure PoolTuning where
  /-- The most connections that are idle or in use at a time. -/
  maxTotal : Nat := 8
  /-- The most idle connections that are kept. -/
  maxIdle : Nat := 8
  /-- Every eviction pass tops the idle connections up to this many. -/
  minIdle : Nat := 0
  /-- How long a borrower waits for capacity; with 0 it does not wait. -/
  maxWaitMs : Nat := 2000
  testOnBorrow : Bool := false
  testOnReturn : Bool := false
  testWhileIdle : Bool := true
  /-- The period of background eviction; with 0 there is none. -/
  evictionIntervalMs : Nat := 30000
  /-- The idle time after which a connection is always evicted. -/
  minEvictableIdleMs : Nat := 60000
  /-- The idle time after which a connection is evicted while more than `minIdle` are idle; with 0
  there is no such time. -/
  softMinEvictableIdleMs : Nat := 0
  /-- How many idle connections an eviction pass examines. -/
  testsPerEviction : Nat := 3
  /-- Whether the connection returned last is lent first. -/
  lifo : Bool := true
deriving DecidableEq, Repr, Inhabited

namespace PoolTuning

def maxWait (p : PoolTuning) : Span := .ofMillis p.maxWaitMs

def evictionInterval (p : PoolTuning) : Span := .ofMillis p.evictionIntervalMs

def minEvictableIdle (p : PoolTuning) : Span := .ofMillis p.minEvictableIdleMs

def softMinEvictableIdle? (p : PoolTuning) : Option Span :=
  if p.softMinEvictableIdleMs = 0 then none else some (.ofMillis p.softMinEvictableIdleMs)

end PoolTuning

/-- How keys are spread over groups. -/
inductive Strategy
  /-- The hash modulo the number of groups. -/
  | modulo
  /-- A consistent-hash ring. -/
  | ring
deriving DecidableEq, Repr, Inhabited

def Strategy.name : Strategy → String
  | modulo => "modulo"
  | ring => "ring"

structure Routing where
  strategy : Strategy := .modulo
  /-- Ring points per group; only the ring uses it. -/
  virtualNodes : Nat := 160
deriving DecidableEq, Repr, Inhabited

structure Cluster where
  nodes : List NodeEntry
  pool : PoolTuning := {}
  routing : Routing := {}
  /-- The period of background refresh in milliseconds; with 0 there is none. -/
  refreshIntervalMs : Nat := 0
  logLevel : String := "info"
deriving DecidableEq, Repr, Inhabited

def Cluster.refreshInterval? (c : Cluster) : Option Span :=
  if c.refreshIntervalMs = 0 then none else some (.ofMillis c.refreshIntervalMs)

def NodeEntry.addr (e : NodeEntry) : Address := ⟨e.host, e.port⟩

/-- The node that an entry describes. -/
def NodeEntry.node (e : NodeEntry) : Node := ⟨e.addr, e.group, .ofMillis e.timeoutMs⟩

/-- The nodes of a configuration, in its order. -/
def Cluster.nodeList (c : Cluster) : List Node := c.nodes.map NodeEntry.node

end Shardway.Config
