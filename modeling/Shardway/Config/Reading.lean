import Shardway.Config.Basic
import Shardway.Config.Setting

/-!
Reading a configuration from settings. A structure is a table of its fields, or a list of them in
order; fields that have a default may be absent, and fields that are unknown do not matter.
-/
namespace Shardway.Config

/-- The fields of a structure as they are given. -/
structure Given where
  /-- What messages call the structure. -/
  name : String
  /-- How many fields it has. -/
  size : Nat
  /-- Given in order, not by name. -/
  inOrder : Bool
  /-- The setting of a field, by its place and its name. -/
  get? : Nat → String → Option Setting

namespace Given

def ofSetting (name : String) (size : Nat) (s : Setting) : Except ReadFault Given :=
  match s with
  | .table members _ => .ok ⟨name, size, false, fun _ key => Setting.lookup members key⟩
  | .list items _ => .ok ⟨name, size, true, fun i _ => items[i]?⟩
  | s => .error (s.wrongShape s!"struct {name}")

/-- Reads a field if it is given. -/
def field? (g : Given) (i : Nat) (key : String) (f : Setting → Except ReadFault α) :
    Except ReadFault (Option α) :=
  match g.get? i key with
  | none => .ok none
  | some s => (some <$> f s).mapError fun e => if g.inOrder then e.inItem i else e.inField key

/-- Reads a field that has a default. -/
def fieldOr (g : Given) (i : Nat) (key : String) (f : Setting → Except ReadFault α) (default : α) :
    Except ReadFault α :=
  (·.getD default) <$> g.field? i key f

/-- Insists on a field. -/
def insist (g : Given) (i : Nat) (key : String) (a : Option α) : Except ReadFault α :=
  match a with
  | some a => .ok a
  | none =>
    .error <|
      if g.inOrder then
        .shape s!"invalid length {i}, expected struct {g.name} with {g.size} elements"
      else .missing key

end Given

/-- Reads an entry. All fields that are given are read before an absent one counts. -/
def NodeEntry.ofSetting (s : Setting) : Except ReadFault NodeEntry := do
  let g ← Given.ofSetting "NodeConfig" 4 s
  let host ← g.field? 0 "host" Setting.toText
  let port ← g.field? 1 "port" (Setting.toSmallWord 16)
  let group ← g.field? 2 "group_id" (Setting.toSmallWord 32)
  let timeout ← g.fieldOr 3 "timeout_ms" Setting.toWord 2000
  return ⟨← g.insist 0 "host" host, (← g.insist 1 "port" port).toUInt16,
    (← g.insist 2 "group_id" group).toUInt32, timeout⟩

def PoolTuning.ofSetting (s : Setting) : Except ReadFault PoolTuning := do
  let g ← Given.ofSetting "PoolConfig" 12 s
  let d : PoolTuning := {}
  return {
    maxTotal := ← g.fieldOr 0 "max_total" Setting.toWord d.maxTotal
    maxIdle := ← g.fieldOr 1 "max_idle" Setting.toWord d.maxIdle
    minIdle := ← g.fieldOr 2 "min_idle" Setting.toWord d.minIdle
    maxWaitMs := ← g.fieldOr 3 "max_wait_ms" Setting.toWord d.maxWaitMs
    testOnBorrow := ← g.fieldOr 4 "test_on_borrow" Setting.toBool d.testOnBorrow
    testOnReturn := ← g.fieldOr 5 "test_on_return" Setting.toBool d.testOnReturn
    testWhileIdle := ← g.fieldOr 6 "test_while_idle" Setting.toBool d.testWhileIdle
    evictionIntervalMs := ← g.fieldOr 7 "eviction_interval_ms" Setting.toWord d.evictionIntervalMs
    minEvictableIdleMs := ←
      g.fieldOr 8 "min_evictable_idle_ms" Setting.toWord d.minEvictableIdleMs
    softMinEvictableIdleMs := ←
      g.fieldOr 9 "soft_min_evictable_idle_ms" Setting.toWord d.softMinEvictableIdleMs
    testsPerEviction := ←
      g.fieldOr 10 "num_tests_per_eviction_run" Setting.toWord d.testsPerEviction
    lifo := ← g.fieldOr 11 "lifo" Setting.toBool d.lifo }

def Strategy.ofName? : String → Option Strategy
  | "modulo" => some modulo
  | "ring" => some ring
  | _ => none

def Routing.ofSetting (s : Setting) : Except ReadFault Routing := do
  let g ← Given.ofSetting "RoutingConfig" 2 s
  let d : Routing := {}
  return ⟨← g.fieldOr 0 "strategy" (Setting.toChoice "RoutingStrategy" Strategy.ofName?) d.strategy,
    ← g.fieldOr 1 "virtual_nodes" Setting.toWord d.virtualNodes⟩

def Cluster.ofSetting (s : Setting) : Except ReadFault Cluster := do
  let g ← Given.ofSetting "ClusterConfig" 5 s
  let nodes ← g.field? 0 "nodes" (Setting.toList NodeEntry.ofSetting)
  let pool ← g.fieldOr 1 "pool" PoolTuning.ofSetting {}
  let routing ← g.fieldOr 2 "routing" Routing.ofSetting {}
  let refresh ← g.fieldOr 3 "refresh_interval_ms" Setting.toWord 0
  let level ← g.fieldOr 4 "log_level" Setting.toText "info"
  return ⟨← g.insist 0 "nodes" nodes, pool, routing, refresh, level⟩

end Shardway.Config
