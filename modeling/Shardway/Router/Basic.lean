import Shardway.Config.Validity
import Shardway.Pool.Fleet
import Shardway.Resolution
import Shardway.Router.Index

/-!
The router: the current index, the pools of the masters in it, and the refreshes in progress. A
refresh resolves the topology again and puts a new index in place of the current one; routing never
waits for it. Refreshes run one after the other, first come first.
-/
namespace Shardway

/-- What a refresh waits for. -/
inductive RefreshStage
  /-- The refreshes before it. -/
  | waiting
  | probing (round : Round)
deriving DecidableEq, Repr, Inhabited

structure Router where
  config : Config.Cluster
  /-- The configured nodes by group. -/
  sets : List ReplicaSet
  fleet : Fleet
  current : Index
  /-- The number of topologies that were drawn up so far. -/
  generation : Nat
  closed : Bool := false
  /-- The refreshes in progress, in the order in which they came; only the first is probing. -/
  refreshes : List (Ticket × RefreshStage) := []

namespace Router

/-- A router after a move, and what the move asks for or tells. -/
abbrev Reaction := Shardway.Reaction Effect Router

/-! ## Start -/

/-- The groups of a configuration, if it is usable. -/
def plan (config : Config.Cluster) : Except Fault (List ReplicaSet) :=
  config.check.map fun _ => ReplicaSet.ofNodes config.nodeList

def planNotice (config : Config.Cluster) (sets : List ReplicaSet) : Notice :=
  .resolving config.nodes.length sets.length

def unreachableFault (g : GroupId) : Fault :=
  .invalidTopology s!"group {g} has no reachable members"

/-- The slots of resolved groups, with pools for their masters. If that fails, the pools that were
opened for it are there all the same. -/
def seat : List ResolvedGroup → Fleet → Except Fault (List Slot) × Fleet.Reaction
  | [], f => (.ok [], ⟨f, []⟩)
  | g :: r, f =>
    match g.master with
    | none =>
      let (slots, rest) := seat r f
      (slots.map (⟨g, none⟩ :: ·), rest)
    | some m =>
      match f.getOrOpen m with
      | .error fault => (.error fault, ⟨f, []⟩)
      | .ok (id, opened) =>
        let (slots, rest) := seat r opened.state
        (slots.map (⟨g, some id⟩ :: ·), ⟨rest.state, opened.effects ++ rest.effects⟩)

/-- The router over resolved groups, and what setting it up asks for and tells, also if it fails.
Every group needs a member that answered, but no master. -/
def ofResolved (config : Config.Cluster) (background : Bool) (resolved : List ResolvedGroup) :
    Except Fault Router × List Effect :=
  match resolved.find? (!·.isReachable) with
  | some g => (.error (unreachableFault g.id), [])
  | none =>
    let (slots, opened) := seat resolved { tuning := config.pool, background }
    match slots.bind (Index.build keyHash config.routing 1) with
    | .error fault => (.error fault, opened.effects)
    | .ok index =>
      (.ok {
          config
          sets := ReplicaSet.ofNodes config.nodeList
          fleet := opened.state
          current := index
          generation := 1 },
        opened.effects ++ [.notice (.routerReady index.size opened.state.size)])

/-! ## Routing -/

/-- The pool that leads to the master owning a key. -/
def route (r : Router) (key : Bytes) : Except Fault PoolId :=
  if r.closed then .error .shutdown else r.current.route key

def groups (r : Router) : List ResolvedGroup := r.current.groups

/-! ## Refresh -/

/-- Puts the index of newly resolved groups in place. Pools of nodes that are no longer masters
leave the registry. The router holds them no more, and they go if nobody else does
(`Custody.release`). -/
def install (resolved : List ResolvedGroup) (r : Router) : Except Fault Unit × Reaction :=
  if r.closed then (.error .shutdown, ⟨r, []⟩)
  else
    let r := { r with generation := r.generation + 1 }
    let (slots, opened) := seat resolved r.fleet
    match slots.bind (Index.build keyHash r.config.routing r.generation) with
    | .error f => (.error f, ⟨{ r with fleet := opened.state }, opened.effects⟩)
    | .ok index =>
      let keep := index.masterAddresses
      (.ok (), ⟨{ r with current := index, fleet := opened.state.retainOnly keep },
        opened.effects ++ ((r.current.changes index).map .notice ++
          (opened.state.stale keep).map fun e => .notice (.poolRetired e.1))⟩)

/-- Changes what a refresh waits for. -/
def setStage (t : Ticket) (s : RefreshStage) (r : Router) : Router :=
  { r with refreshes := r.refreshes.map fun e => if e.1 = t then (t, s) else e }

/-- The refresh has its turn: a round begins. -/
def beginRound (t : Ticket) (r : Router) : Reaction :=
  let round := Round.start r.sets
  ⟨r.setStage t (.probing round.state), round.effects.map .notice ++ [.probe t]⟩

/-- Lets the first refresh go on. -/
def wakeFirst (r : Router) : Reaction :=
  match r.refreshes with
  | [] => ⟨r, []⟩
  | (t, _) :: _ => ⟨r, [.resume t]⟩

/-- The first refresh is over, and the next one has its turn. -/
def endRefresh (t : Ticket) (result : Except Fault Unit) (r : Router) : Reaction :=
  (({ r with refreshes := r.refreshes.tail } : Router).wakeFirst).tell (.refreshed t result)

/-- A refresh comes. -/
def refresh (t : Ticket) (r : Router) : Reaction :=
  if r.closed then ⟨r, [.refreshed t (.error .shutdown)]⟩
  else
    let first := r.refreshes.isEmpty
    let r := { r with refreshes := r.refreshes ++ [(t, .waiting)] }
    if first then r.beginRound t else ⟨r, []⟩

/-- A refresh goes on that has its turn, or whose round has a verdict. -/
def resume (t : Ticket) (r : Router) : Reaction :=
  match r.refreshes with
  | (u, .waiting) :: _ => if u = t then r.beginRound t else ⟨r, []⟩
  | (u, .probing round) :: _ =>
    if u = t then
      let (collected, outcome) := round.collect
      let told : Reaction :=
        ⟨r.setStage t (.probing collected.state), collected.effects.map .notice⟩
      match outcome with
      | none => told
      | some (.error f) => told.andThen (endRefresh t (.error f))
      | some (.ok resolved) =>
        told.andThen fun r =>
          let (result, installed) := r.install resolved
          installed.andThen (endRefresh t result)
    else ⟨r, []⟩
  | [] => ⟨r, []⟩

/-- Changes the round of the first refresh, and wakes the refresh once there is a verdict. -/
def onRound (t : Ticket) (f : Round → Round.Reaction) (r : Router) : Reaction :=
  match r.refreshes with
  | (u, .probing round) :: _ =>
    if u = t then
      let next := f round
      ⟨r.setStage t (.probing next.state),
        next.effects.map .notice ++ (if next.state.isReady then [.resume t] else [])⟩
    else ⟨r, []⟩
  | _ => ⟨r, []⟩

/-- A member told its role to a refresh. -/
def probed (t : Ticket) (i j : Nat) (role : Role) (r : Router) : Reaction :=
  r.onRound t (Round.answer i j role)

/-- The probing of a group broke off. -/
def brokeOff (t : Ticket) (i : Nat) (reason : String) (r : Router) : Reaction :=
  r.onRound t fun round => ⟨round.breakOff i reason, []⟩

/-- A refresh is given up. -/
def abandon (t : Ticket) (r : Router) : Reaction :=
  match r.refreshes with
  | (u, _) :: rest =>
    if u = t then ({ r with refreshes := rest } : Router).wakeFirst
    else ⟨{ r with refreshes := r.refreshes.filter (·.1 ≠ t) }, []⟩
  | [] => ⟨r, []⟩

/-! ## Shutdown -/

/-- Shuts down the registered pools, and routes and refreshes no more. -/
def shutdown (now : Nat) (r : Router) : Reaction :=
  if r.closed then ⟨r, []⟩
  else
    let r := { r with closed := true }
    ((r.fleet.shutdownAll now).lift (fun f => { r with fleet := f }) id).tell
      (.notice .routerShutDown)

/-- A move of one of the pools. -/
def stepPool (now : Nat) (i : PoolId) (m : Pool.Move) (r : Router) : Reaction :=
  (r.fleet.step now i m).lift (fun f => { r with fleet := f }) id

end Router
end Shardway
