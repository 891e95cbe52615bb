import Shardway.Codec.Schema
import Shardway.Config.Basic

/-!
Configurations as stored values: the schema of each part, with its fields in order.
-/
namespace Shardway.Config

open Codec (Schema Fields Choices)

def wordSchema : Schema := .int false 8

def NodeEntry.schema : Schema :=
  .record <| .more "host" .text <| .more "port" (.int false 2) <|
    .more "group_id" (.int false 4) <| .last "timeout_ms" wordSchema

def NodeEntry.store (e : NodeEntry) : NodeEntry.schema.Carrier :=
  (e.host, e.port.toBitVec, e.group.toBitVec, BitVec.ofNat 64 e.timeoutMs)

def NodeEntry.ofStored : NodeEntry.schema.Carrier → NodeEntry
  | (host, port, group, timeout) =>
    ⟨host, UInt16.ofBitVec port, UInt32.ofBitVec group, BitVec.toNat timeout⟩

def PoolTuning.schema : Schema :=
  .record <| .more "max_total" wordSchema <| .more "max_idle" wordSchema <|
    .more "min_idle" wordSchema <| .more "max_wait_ms" wordSchema <|
    .more "test_on_borrow" .bool <| .more "test_on_return" .bool <|
    .more "test_while_idle" .bool <| .more "eviction_interval_ms" wordSchema <|
    .more "min_evictable_idle_ms" wordSchema <|
    .more "soft_min_evictable_idle_ms" wordSchema <|
    .more "num_tests_per_eviction_run" wordSchema <| .last "lifo" .bool

def PoolTuning.store (p : PoolTuning) : PoolTuning.schema.Carrier :=
  (BitVec.ofNat 64 p.maxTotal, BitVec.ofNat 64 p.maxIdle, BitVec.ofNat 64 p.minIdle,
    BitVec.ofNat 64 p.maxWaitMs, p.testOnBorrow, p.testOnReturn, p.testWhileIdle,
    BitVec.ofNat 64 p.evictionIntervalMs, BitVec.ofNat 64 p.minEvictableIdleMs,
    BitVec.ofNat 64 p.softMinEvictableIdleMs, BitVec.ofNat 64 p.testsPerEviction, p.lifo)

def PoolTuning.ofStored : PoolTuning.schema.Carrier → PoolTuning
  | (total, idle, minIdle, wait, borrow, ret, whileIdle, interval, evictable, soft, tests, lifo) =>
    ⟨BitVec.toNat total, BitVec.toNat idle, BitVec.toNat minIdle, BitVec.toNat wait, borrow, ret,
      whileIdle, BitVec.toNat interval, BitVec.toNat evictable, BitVec.toNat soft,
      BitVec.toNat tests, lifo⟩

def Strategy.schema : Schema := .choice <| .more "modulo" .unit <| .more "ring" .unit .none

def Strategy.store : Strategy → Strategy.schema.Carrier
  | .modulo => .inl ()
  | .ring => .inr (.inl ())

def Strategy.ofStored : Strategy.schema.Carrier → Strategy
  | .inl () => .modulo
  | .inr (.inl ()) => .ring

def Routing.schema : Schema :=
  .record <| .more "strategy" Strategy.schema <| .last "virtual_nodes" wordSchema

def Routing.store (r : Routing) : Routing.schema.Carrier :=
  (r.strategy.store, BitVec.ofNat 64 r.virtualNodes)

def Routing.ofStored : Routing.schema.Carrier → Routing
  | (strategy, nodes) => ⟨Strategy.ofStored strategy, BitVec.toNat nodes⟩

def Cluster.schema : Schema :=
  .record <| .more "nodes" (.list NodeEntry.schema) <| .more "pool" PoolTuning.schema <|
    .more "routing" Routing.schema <| .more "refresh_interval_ms" wordSchema <|
    .last "log_level" .text

def Cluster.store (c : Cluster) : Cluster.schema.Carrier :=
  (c.nodes.map NodeEntry.store, c.pool.store, c.routing.store, BitVec.ofNat 64 c.refreshIntervalMs,
    c.logLevel)

def Cluster.ofStored : Cluster.schema.Carrier → Cluster
  | (nodes, pool, routing, refresh, level) =>
    ⟨nodes.map NodeEntry.ofStored, PoolTuning.ofStored pool, Routing.ofStored routing,
      BitVec.toNat refresh, level⟩

def PoolTuning.document (p : PoolTuning) : Document := PoolTuning.schema.document p.store

def Cluster.document (c : Cluster) : Document := Cluster.schema.document c.store

end Shardway.Config
