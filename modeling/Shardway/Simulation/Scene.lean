import Shardway.Simulation.World

/-!
Scenes: a world, and the names that a script has given to connections, pools, indexes and operations
in the background. A script is a list of steps, each of which has an answer.
-/
namespace Shardway.Simulation

structure Scene where
  world : World
  /-- The pool that steps are about, if they are about one. -/
  subject : Option PoolId := none
  clones : List (String × PoolId) := []
  /-- The connections held by name, with the pools they came from. -/
  links : List (String × PoolId × Link) := []
  /-- The operations in the background. -/
  tasks : List (String × Ticket) := []
  snapshots : List (String × Index) := []
  /-- The pools that were seen, in the order in which they were; they are held too. -/
  seen : List PoolId := []
  /-- The periodic refresh of a client. -/
  refresher : Option Ticket := none

/-- How a step says which pool it is about. -/
inductive Source
  | subject
  /-- The pool that leads to the owner of a key. -/
  | owner (key : Bytes)
  /-- A pool that was seen, by its number. -/
  | seen (number : Nat)

inductive Step
  | nothing
  | advance (ms : Nat)
  | borrow (source : Source) (name : String) (ask : Bool)
  | spawnBorrow (name : String)
  | joinBorrow (name : String) (ask : Bool)
  | cancelBorrow (name : String)
  | borrowDone (name : String)
  | giveBack (name : String) (healthy : Bool)
  | spawnGiveBack (name : String) (healthy : Bool)
  | letGo (name : String)
  | ping (name : String)
  | execute (name : String) (request : Request)
  | evict
  | spawnEvict (name : String)
  | joinEvict (name : String)
  | clone (name : String)
  | isSame (name : String)
  | useClone (name : String)
  | dropSubject
  | shutdownPool (source : Source)
  | look (source : Source)
  | openPool (node : Node)
  | findPool (a : Address)
  | retainOnly (keep : List Address)
  | shutdownAll
  | states
  | forgetPools
  | refresh
  | startRefresh (name : String)
  | refreshDone (name : String)
  | joinRefresh (name : String)
  | refreshEvery (ms : Nat) (name : String)
  | isFinished (name : String)
  | route (keys : List Bytes)
  | snapshot (name : String)
  | routeBy (name : String) (keys : List Bytes)
  | dropSnapshot (name : String)
  | groups
  | config
  | isShutdown
  | shutdownRouter
  | dropRouter
  | shutdownClient
  | dropClient
  | call (key : Bytes) (request : Request) (attempts : Nat)

/-- Where a key is routed: the number of the pool and the pool, and the owning group. -/
structure Routed where
  outcome : Except Fault (Nat × Pool)
  owner : Option GroupId

inductive Answer
  | nothing
  | flag (b : Bool)
  | number (n : Nat)
  | optional (n : Option Nat)
  | done (result : Except Fault Unit)
  /-- A connection was borrowed; the reply to the question for its number, if it was asked. -/
  | borrowed (reply : Option (Except Fault Reply))
  | failed (f : Fault)
  | replied (pool : Address) (reply : Except Fault Reply)
  | called (reply : Except Fault Reply)
  | pool (p : Pool)
  | opened (number : Nat) (p : Pool)
  | retired (pools : List (Address × Nat × Bool))
  | flags (l : List Bool)
  | routes (generation : Option Nat) (l : List Routed)
  | groups (l : List ResolvedGroup)
  | config (c : Config.Cluster)

/-- Why a step cannot be taken. -/
inductive Stall
  | unknownName (name : String)
  | noPool
  /-- Nothing more happens, and the operation is not over. -/
  | stuck

namespace Scene

/-- A step's answer and the scene after it. -/
abbrev Outcome := Except Stall (Answer × Scene)

def named (l : List (String × α)) (name : String) : Except Stall α :=
  match l.find? (·.1 = name) with
  | some (_, a) => .ok a
  | none => .error (.unknownName name)

def unnamed (l : List (String × α)) (name : String) : List (String × α) := l.filter (·.1 ≠ name)

def name (l : List (String × α)) (n : String) (a : α) : List (String × α) := (n, a) :: unnamed l n

/-- What the scene holds by name is held in the world, and all that is due now happens. -/
def settle (s : Scene) : Scene :=
  { s with world := World.settle { s.world with custody := { s.world.custody with
      pools := s.subject.toList ++ s.clones.map (·.2) ++ s.seen
      indexes := s.snapshots.map (·.2) } } }

/-- Changes the world. -/
def set (s : Scene) (w : World) : Scene := { s with world := w }

def ended (x : Option α × World) : Except Stall (α × World) :=
  match x with
  | (some a, w) => .ok (a, w)
  | (none, _) => .error .stuck

def subject? (s : Scene) : Except Stall PoolId :=
  match s.subject with
  | some i => .ok i
  | none => .error .noPool

/-- The pool that a source names, if the router leads to it. -/
def find (s : Scene) (source : Source) : Except Stall (Except Fault PoolId) :=
  match source with
  | .subject => .ok <$> s.subject?
  | .owner key => .ok (s.world.client.router.route key)
  | .seen n =>
    match s.seen[n]? with
    | some i => .ok (.ok i)
    | none => .error .noPool

def pool (s : Scene) (i : PoolId) : Except Stall Pool :=
  match s.world.pool? i with
  | some p => .ok p
  | none => .error .noPool

/-- The number of a pool by first sight. -/
def see (s : Scene) (i : PoolId) : Nat × Scene :=
  match s.seen.findIdx? (· = i) with
  | some n => (n, s)
  | none => (s.seen.length, { s with seen := s.seen ++ [i] })

/-! ## Steps -/

/-- A borrower's connection gets its name, and may be asked for its number. -/
def take (s : Scene) (n : String) (ask : Bool) (result : Except Fault (PoolId × Link)) :
    Outcome := do
  match result with
  | .error f => return (.failed f, s)
  | .ok (i, link) =>
    let s := { s with links := name s.links n (i, link) }
    if ask then
      let (reply, w) ← ended (s.world.ask i link Network.idRequest)
      return (.borrowed (some reply), s.set w)
    else return (.borrowed none, s)

def borrow (s : Scene) (source : Source) (n : String) (ask : Bool) : Outcome := do
  match ← s.find source with
  | .error f => return (.failed f, s)
  | .ok i =>
    let (t, w) := s.world.start fun t => .pool i (.borrow t)
    let (result, w) ← ended (w.await (World.borrowed? t))
    (s.set w).take n ask result

/-- Starts an operation in the background. -/
def spawn (s : Scene) (n : String) (m : Ticket → Client.Move) : Scene :=
  let (t, w) := s.world.start m
  { s with world := w, tasks := name s.tasks n t }

/-- Starts the return of a connection. -/
def startReturn (s : Scene) (n : String) (healthy : Bool) : Except Stall (Ticket × Scene) := do
  let (i, link) ← named s.links n
  let (t, w) := s.world.start fun t => .pool i (.giveBack t link healthy)
  return (t, { s with world := w, links := unnamed s.links n })

/-- Stops a borrower; a connection that it has already is let go. -/
def cancelBorrow (s : Scene) (n : String) : Outcome := do
  let t ← named s.tasks n
  let w := match s.world.borrowed? t with
    | some (.ok (i, link)) => s.world.move (.pool i (.letGo link))
    | _ => s.world.cancelBorrow (s.subject.getD 0) t
  return (.nothing, { s with world := w, tasks := unnamed s.tasks n })

/-- Where keys lead by an index, unless routing fails altogether. -/
def routeAll (s : Scene) (x : Index) (closed : Bool) : List Bytes → List Routed × Scene
  | [] => ([], s)
  | key :: r =>
    let owner := (x.slotFor? key).map (·.group.id)
    let (outcome, s) : Except Fault (Nat × Pool) × Scene :=
      match if closed then .error Fault.shutdown else x.route key with
      | .error f => (.error f, s)
      | .ok i =>
        let (n, s) := s.see i
        match s.world.pool? i with
        | some p => (.ok (n, p), s)
        | none => (.error Index.noSlotFault, s)
    let (rest, s) := routeAll s x closed r
    (⟨outcome, owner⟩ :: rest, s)

/-- Stops the client's periodic refresh. -/
def stopRefresher (s : Scene) : World :=
  match s.refresher with
  | some k => s.world.stopRefreshing k
  | none => s.world

def isFinished (s : Scene) (t : Ticket) : Bool :=
  s.world.refreshers.any fun k : Refresher => k.name = t && k.finished

/-- The removed pools by address, each with its number and whether it is closed. -/
def retire (s : Scene) (keep : List Address) : Answer × Scene :=
  let fleet := s.world.client.router.fleet
  let gone := (fleet.stale keep).map fun (a, i) =>
    (a, (s.see i).1, ((s.world.pool? i).map (·.closed)).getD false)
  (.retired (gone.mergeSort fun x y => x.1.text ≤ y.1.text),
    s.set (s.world.onFleet fun f => ⟨f.retainOnly keep, []⟩))

/-- Takes a step. -/
def step (s : Scene) (x : Step) : Outcome := do
  let router := s.world.client.router
  match x with
  | .nothing => return (.nothing, s)
  | .advance ms => return (.nothing, s.set (s.world.pass ms))
  | .borrow source n ask => s.borrow source n ask
  | .spawnBorrow n =>
    let i ← s.subject?
    return (.nothing, s.spawn n fun t => .pool i (.borrow t))
  | .joinBorrow n ask =>
    let t ← named s.tasks n
    let (result, w) ← ended (s.world.await (World.borrowed? t))
    ({ s with world := w, tasks := unnamed s.tasks n }).take n ask result
  | .cancelBorrow n => s.cancelBorrow n
  | .borrowDone n => return (.flag (s.world.borrowed? (← named s.tasks n)).isSome, s)
  | .giveBack n healthy =>
    let (t, s) ← s.startReturn n healthy
    let (_, w) ← ended (s.world.await (World.returned? t))
    return (.nothing, s.set w)
  | .spawnGiveBack n healthy => return (.nothing, (← s.startReturn n healthy).2)
  | .letGo n =>
    let (i, link) ← named s.links n
    return (.nothing,
      { s with world := s.world.move (.pool i (.letGo link)), links := unnamed s.links n })
  | .ping n =>
    let (i, link) ← named s.links n
    let (reply, w) ← ended (s.world.ask i link [Network.pingWord])
    return (.flag (Network.isPong reply), s.set w)
  | .execute n request =>
    let (i, link) ← named s.links n
    let (reply, w) ← ended (s.world.ask i link request)
    return (.replied (← s.pool i).addr reply, s.set w)
  | .evict =>
    let i ← s.subject?
    let (t, w) := s.world.start fun t => .pool i (.sweep t)
    let (n, w) ← ended (w.await (World.swept? t))
    return (.number n, s.set w)
  | .spawnEvict n =>
    let i ← s.subject?
    return (.nothing, s.spawn n fun t => .pool i (.sweep t))
  | .joinEvict n =>
    let (count, w) ← ended (s.world.await (World.swept? (← named s.tasks n)))
    return (.number count, s.set w)
  | .clone n => return (.nothing, { s with clones := name s.clones n (← s.subject?) })
  | .isSame n => return (.flag ((← named s.clones n) = (← s.subject?)), s)
  | .useClone n =>
    let i ← named s.clones n
    return (.nothing, { s with subject := some i, clones := unnamed s.clones n })
  | .dropSubject => return (.nothing, { s with subject := none })
  | .shutdownPool source =>
    match ← s.find source with
    | .error f => return (.failed f, s)
    | .ok i => return (.nothing, s.set (s.world.move (.pool i .shutdown)))
  | .look source =>
    match ← s.find source with
    | .error f => return (.failed f, s)
    | .ok i => return (.pool (← s.pool i), s)
  | .openPool n =>
    match router.fleet.getOrOpen n with
    | .error f => return (.failed f, s)
    | .ok (i, opened) =>
      let s := s.set (s.world.onFleet fun _ => opened)
      let (number, s) := s.see i
      return (.opened number (← s.pool i), s)
  | .findPool a =>
    match router.fleet.get? a with
    | none => return (.optional none, s)
    | some i =>
      let (number, s) := s.see i
      return (.optional (some number), s)
  | .retainOnly keep => return s.retire keep
  | .shutdownAll => return (.nothing, s.set (s.world.onFleet (Fleet.shutdownAll s.world.now)))
  | .states => return (.flags ((s.seen.filterMap s.world.pool?).map (·.closed)), s)
  | .forgetPools => return (.nothing, { s with seen := [] })
  | .refresh =>
    let (t, w) := s.world.start .refresh
    let (result, w) ← ended (w.await (World.refreshed? t))
    return (.done result, s.set w)
  | .startRefresh n => return (.nothing, s.spawn n .refresh)
  | .refreshDone n => return (.flag (s.world.refreshed? (← named s.tasks n)).isSome, s)
  | .joinRefresh n =>
    let (result, w) ← ended (s.world.await (World.refreshed? (← named s.tasks n)))
    return (.done result, { s with world := w, tasks := unnamed s.tasks n })
  | .refreshEvery ms n =>
    let (t, w) := s.world.refreshEvery ms
    return (.nothing, { s with world := w, tasks := name s.tasks n t })
  | .isFinished n => return (.flag (s.isFinished (← named s.tasks n)), s)
  | .route keys =>
    let (l, s) := s.routeAll router.current router.closed keys
    return (.routes none l, s)
  | .snapshot n => return (.nothing, { s with snapshots := name s.snapshots n router.current })
  | .routeBy n keys =>
    let index ← named s.snapshots n
    let (l, s) := s.routeAll index false keys
    return (.routes (some index.generation) l, s)
  | .dropSnapshot n => return (.nothing, { s with snapshots := unnamed s.snapshots n })
  | .groups => return (.groups router.groups, s)
  | .config => return (.config router.config, s)
  | .isShutdown => return (.flag router.closed, s)
  | .shutdownRouter => return (.nothing, s.set (s.world.move .shutdown))
  | .dropRouter =>
    return (.nothing, s.set { s.world with custody := { s.world.custody with router := false } })
  | .shutdownClient =>
    return (.nothing, { s with world := s.stopRefresher.move .shutdown, refresher := none })
  | .dropClient => return (.nothing, { s with world := s.stopRefresher, refresher := none })
  | .call key request attempts =>
    let (t, w) := s.world.start fun t => .call t key request attempts
    let (reply, w) ← ended (w.await (World.replied? t))
    return (.called reply, s.set w)

/-! ## Beginnings -/

/-- A scene about one pool, apart from any router. -/
def ofPool (n : Node) (tuning : Config.PoolTuning) (network : Network) : Scene :=
  let custody : Custody := { router := false, pools := [0] }
  let w := { World.bare tuning true with network, custody }
  { world := { w.onFleet (Fleet.openPool n) with notices := [] }, subject := some 0 }

/-- A scene about pools by address; `background` says whether they evict in the background. -/
def ofFleet (tuning : Config.PoolTuning) (background : Bool) : Scene :=
  { world := World.bare tuning background }

/-- A scene about a router, if its topology can be resolved. -/
def ofRouter (config : Config.Cluster) (network : Network) (cast : Cast) :
    Except Fault Unit × Scene :=
  let (result, w) := ({ World.bare {} true with network, cast } : World).launch config
  (result, { world := w })

/-- The scene of a client around the router: a refresh comes with every period, if there is one. -/
def asClient (s : Scene) : Scene :=
  let period := s.world.client.router.config.refreshIntervalMs
  if period = 0 then s
  else
    let (t, w) := s.world.refreshEvery period
    { s with world := w.tell (.refreshEvery (.ofMillis period)), refresher := some t }

end Scene
end Shardway.Simulation
