import Shardway.Client.Basic
import Shardway.Router.Custody
import Shardway.Simulation.Network

/-!
A world for a client: a clock that moves only when everything waits for time, the scripted network,
and the background tasks of pools and routers. What is due at one moment happens in the order in
which it was entered.
-/
namespace Shardway.Simulation

/-- The fault of an operation that never ends. -/
def endlessFault : Fault := .internal "nothing more happens"

/-- What can be due. -/
inductive Happening
  | move (m : Client.Move)
  /-- Connecting is decided. -/
  | connect (t : Ticket) (pool : PoolId)
  | ping (t : Ticket) (pool : PoolId) (link : Link)
  /-- A request of a call is decided. -/
  | request (t : Ticket) (pool : PoolId) (link : Link) (r : Request)
  /-- A request over a borrowed connection is decided. -/
  | direct (t : Ticket) (pool : PoolId) (link : Link) (r : Request)
  /-- The eviction of a pool is due. -/
  | evict (pool : PoolId)
  /-- The refresh of a periodic task is due. -/
  | refresh (task : Ticket)
  /-- A probe of the round apart from the router has ended. -/
  | told (i j : Nat) (role : Role)
  | broke (i : Nat) (reason : String)
  | collect
  /-- A pause is over. -/
  | rested (t : Ticket)

/-- How an operation ended. -/
inductive Ending
  | lent (pool : PoolId) (link : Link)
  | failed (fault : Fault)
  | returned
  | swept (closed : Nat)
  | refreshed (result : Except Fault Unit)
  | replied (result : Except Fault Reply)
  | resolved (result : Except Fault (List ResolvedGroup))
  | rested

/-- The background eviction of a pool. -/
structure Evictor where
  pool : PoolId
  ticker : Ticker
  sweep : Option Ticket := none

/-- A task that refreshes a router periodically. -/
structure Refresher where
  name : Ticket
  ticker : Ticker
  refresh : Option Ticket := none
  finished : Bool := false

structure World where
  client : Client
  network : Network := {}
  cast : Cast := []
  now : Nat := 0
  /-- What is due later, by time. -/
  agenda : List (Nat × Happening) := []
  /-- What is due now. -/
  ready : List Happening := []
  /-- How operations ended, the latest first. -/
  endings : List (Ticket × Ending) := []
  tickets : Nat := 0
  notices : List Notice := []
  evictors : List Evictor := []
  refreshers : List Refresher := []
  /-- A round apart from the router, under its ticket. -/
  round : Option (Ticket × Round) := none
  custody : Custody := {}

namespace World

/-! ## The clock -/

/-- Enters something into the agenda, behind what is due at the same time. -/
def enter (at' : Nat) (h : Happening) : List (Nat × Happening) → List (Nat × Happening)
  | [] => [(at', h)]
  | e :: r => if at' < e.1 then (at', h) :: e :: r else e :: enter at' h r

/-- Something is due after a delay. -/
def later (delay : Nat) (h : Happening) (w : World) : World :=
  { w with agenda := enter (w.now + delay) h w.agenda }

/-- Something is due after all that is due now. -/
def soon (h : Happening) (w : World) : World := { w with ready := w.ready ++ [h] }

/-- Something that belongs to the operation at hand: without a delay it comes before all else. -/
def proceed (delay : Nat) (h : Happening) (w : World) : World :=
  if delay = 0 then { w with ready := h :: w.ready } else w.later delay h

/-- Something is due after a delay, or behind all that is due now. -/
def queue (delay : Nat) (h : Happening) (w : World) : World :=
  if delay = 0 then w.soon h else w.later delay h

def isExpiryOf (t : Ticket) : Happening → Bool
  | .move (.pool _ (.expire u)) => t = u
  | _ => false

/-- The bound on a wait no longer matters. -/
def forgetExpiry (t : Ticket) (w : World) : World :=
  { w with agenda := w.agenda.filter fun e => !isExpiryOf t e.2 }

/-- What is due belongs to the operation with a ticket. -/
def isFor (t : Ticket) : Happening → Bool
  | .move (.pool _ (.expire u)) | .move (.pool _ (.takeUp u)) | .connect u _ | .ping u _ _ => t = u
  | _ => false

/-- Nothing is due any more for the operation with a ticket. -/
def forget (t : Ticket) (w : World) : World :=
  { w with
    agenda := w.agenda.filter fun e => !isFor t e.2
    ready := w.ready.filter fun h => !isFor t h }

/-- A new ticket. -/
def issue (w : World) : Ticket × World := (w.tickets, { w with tickets := w.tickets + 1 })

def finish (t : Ticket) (e : Ending) (w : World) : World :=
  { w with endings := (t, e) :: w.endings }

def tell (n : Notice) (w : World) : World := { w with notices := w.notices ++ [n] }

def pool? (w : World) (i : PoolId) : Option Pool := w.client.router.fleet.pools[i]?

/-! ## Probes -/

/-- The members of a group, from place `j` on, are probed in their order, as far as none breaks the
probing off at once. -/
def probeMembers (told : Nat → Role → Happening) (broke : String → Happening) :
    (j : Nat) → List Node → World → World
  | _, [], w => w
  | j, n :: r, w =>
    let (act, cast) := w.cast.next n.addr
    let w := { w with cast }
    match act.settled n with
    | (delay, .breaks reason) =>
      if delay = 0 then w.soon (broke reason)
      else probeMembers told broke (j + 1) r (w.later delay (broke reason))
    | (delay, .tells role) => probeMembers told broke (j + 1) r (w.queue delay (told j role))
    | (_, .hangs) => probeMembers told broke (j + 1) r w

/-- All groups, from place `i` on, are probed. -/
def probeAll (told : Nat → Nat → Role → Happening) (broke : Nat → String → Happening) :
    (i : Nat) → List ReplicaSet → World → World
  | _, [], w => w
  | i, s :: r, w => probeAll told broke (i + 1) r (probeMembers (told i) (broke i) 0 s.members w)

/-! ## Background tasks -/

/-- An eviction is over. After one in the background, the next one is due. -/
def endEviction (t : Ticket) (closed : Nat) (w : World) : World :=
  match w.evictors.find? fun e : Evictor => e.sweep = some t with
  | none => w.finish t (.swept closed)
  | some e =>
    let w := { w with evictors := w.evictors.map fun e : Evictor =>
      if e.sweep = some t then { e with sweep := none } else e }
    w.queue (e.ticker.due - w.now) (.evict e.pool)

/-- A refresh is over. After one of a periodic task, the next one is due. -/
def endRefresh (t : Ticket) (result : Except Fault Unit) (w : World) : World :=
  match w.refreshers.find? fun k : Refresher => k.refresh = some t with
  | none => w.finish t (.refreshed result)
  | some k =>
    let w := { w with refreshers := w.refreshers.map fun k : Refresher =>
      if k.refresh = some t then { k with refresh := none } else k }
    let w := match result with
      | .error f => w.tell (.refreshFailed f)
      | .ok _ => w
    w.queue (k.ticker.due - w.now) (.refresh k.name)

/-! ## Effects -/

/-- Does what a pool asks for. -/
def onPoolEffect (i : PoolId) (e : Pool.Effect) (w : World) : World :=
  match e with
  | .wait t =>
    match w.pool? i with
    | some p => w.later p.tuning.maxWaitMs (.move (.pool i (.expire t)))
    | none => w
  | .wake t => (w.forgetExpiry t).soon (.move (.pool i (.takeUp t)))
  | .ping t link => w.proceed w.network.pingDelay (.ping t i link)
  | .connect t => w.proceed w.network.connectDelay (.connect t i)
  | .close link => { w with network := w.network.close link }
  | .notice n => w.tell n
  | .lent t link => w.finish t (.lent i link)
  | .failed t f => w.finish t (.failed f)
  | .returned t => w.finish t .returned
  | .swept t closed => w.endEviction t closed

/-- Does what the client asks for. -/
def onEffect (e : Effect) (w : World) : World :=
  match e with
  | .notice n => w.tell n
  | .opened i =>
    let period := w.client.router.fleet.tuning.evictionIntervalMs
    if period = 0 ∨ !w.client.router.fleet.background then w
    else
      let ticker := Ticker.start .kept period w.now
      ({ w with evictors := w.evictors ++ [⟨i, ticker, none⟩] } : World).later period (.evict i)
  | .pool i e => w.onPoolEffect i e
  | .probe t =>
    w.probeAll (fun i j role => .move (.probed t i j role))
      (fun i reason => .move (.brokeOff t i reason)) 0 w.client.router.sets
  | .resume t => w.soon (.move (.resume t))
  | .refreshed t result => w.endRefresh t result
  | .send t i link r => w.proceed (w.network.delayOf r) (.request t i link r)
  | .pause t span => w.queue span.ceilMillis (.move (.woken t))
  | .answered t result => w.finish t (.replied result)

/-- Does what the client asks for, in order. -/
def onEffects (l : List Effect) (w : World) : World := l.foldl (fun w e => w.onEffect e) w

/-- Makes a move of the client. -/
def move (m : Client.Move) (w : World) : World :=
  let r := w.client.step w.now m
  ({ w with client := r.state } : World).onEffects r.effects

/-- Lets every pool go that nobody holds. -/
def dropPools (w : World) : World :=
  let r := w.custody.release w.client.router
  ({ w with custody := r.state } : World).onEffects r.effects

/-! ## Happenings -/

/-- The eviction of a pool is due. It is over for good once the pool is closed or gone. -/
def evict (i : PoolId) (w : World) : World :=
  match w.pool? i with
  | none => w
  | some p =>
    if p.closed ∨ i ∈ w.custody.gone then w
    else
      let (t, w) := w.issue
      ({ w with evictors := w.evictors.map fun e : Evictor =>
        if e.pool = i then { e with sweep := some t, ticker := e.ticker.advance w.now } else e }
        : World).move (.pool i (.sweep t))

/-- The refresh of a periodic task is due. It is over for good once the router is closed or gone. -/
def refreshDue (name : Ticket) (w : World) : World :=
  match w.refreshers.find? fun k : Refresher => k.name = name with
  | none => w
  | some k =>
    let set (f : Refresher → Refresher) : World :=
      { w with refreshers := w.refreshers.map fun k : Refresher => if k.name = name then f k else k }
    if k.finished then w
    else if ¬w.custody.HasRouter w.client.router ∨ w.client.router.closed then
      set fun k => { k with finished := true }
    else
      let t := w.tickets
      let w := set fun k => { k with refresh := some t, ticker := k.ticker.advance w.now }
      ({ w with tickets := w.tickets + 1 } : World).move (.refresh t)

/-- Changes the round apart from the router. -/
def onRound (f : Round → Round.Reaction) (w : World) : World :=
  match w.round with
  | none => w
  | some (t, round) =>
    let next := f round
    let w := next.effects.foldl (fun w n => w.tell n) { w with round := some (t, next.state) }
    if next.state.isReady then w.soon .collect else w

/-- Counts the verdicts of the round apart from the router. -/
def collect (w : World) : World :=
  match w.round with
  | none => w
  | some (t, round) =>
    let (collected, outcome) := round.collect
    let w := collected.effects.foldl (fun w n => w.tell n)
      { w with round := some (t, collected.state) }
    match outcome with
    | none => w
    | some result => ({ w with round := none } : World).finish t (.resolved result)

/-- Something happens. -/
def happen (h : Happening) (w : World) : World :=
  let addr (i : PoolId) : Address := ((w.pool? i).map Pool.addr).getD default
  match h with
  | .move m => w.move m
  | .connect t i =>
    let (network, result) := w.network.connect (addr i)
    ({ w with network } : World).move (.pool i (.connected t result))
  | .ping t i link =>
    let (network, alive) := w.network.ping (addr i) link
    ({ w with network } : World).move (.pool i (.pinged t alive))
  | .request t i link r =>
    let (network, result) := w.network.request (addr i) link r
    ({ w with network } : World).move (.replied t result)
  | .direct t i link r =>
    let (network, result) := w.network.request (addr i) link r
    ({ w with network } : World).finish t (.replied result)
  | .evict i => w.evict i
  | .refresh k => w.refreshDue k
  | .told i j role => w.onRound (Round.answer i j role)
  | .broke i reason => w.onRound fun round => ⟨round.breakOff i reason, []⟩
  | .collect => w.collect
  | .rested t => w.finish t .rested

/-- The next thing happens that is due, at the present moment if anything is, else at the time for
which the agenda has the next entry, if that is no later than `limit`. -/
def advance? (limit : Option Nat) (w : World) : Option World :=
  match w.ready with
  | h :: r => some ((({ w with ready := r } : World).happen h).dropPools)
  | [] =>
    match w.agenda with
    | [] => none
    | (at', h) :: r =>
      match limit with
      | some l => if at' ≤ l then some (due at' h r) else none
      | none => some (due at' h r)
where
  due (at' : Nat) (h : Happening) (r : List (Nat × Happening)) : World :=
    { w with now := max w.now at', agenda := r, ready := [h] }

/-- Lets things happen until something is done, or nothing is due, or the fuel is used up. -/
def runFor (done : World → Bool) (limit : World → Option Nat) : (fuel : Nat) → World → World
  | 0, w => w
  | fuel + 1, w =>
    if w.ready.isEmpty && done w then w
    else
      match w.advance? (limit w) with
      | none => w
      | some w => runFor done limit fuel w

/-- More happenings than any scenario has. -/
def fuel : Nat := 0x4000000000000

/-- Lets everything happen that is due at the present moment. -/
def settle (w : World) : World :=
  runFor (fun _ => false) (fun w => some w.now) fuel w.dropPools

/-- Lets things happen until something is done, as the clock goes on. -/
def runUntil (done : World → Bool) (w : World) : World :=
  runFor done (fun _ => none) fuel w.dropPools

/-! ## Operations -/

/-- How the operation with a ticket ended. -/
def endings? (t : Ticket) (w : World) : List Ending :=
  (w.endings.filter (·.1 = t)).map (·.2)

/-- How a borrower fared. -/
def borrowed? (t : Ticket) (w : World) : Option (Except Fault (PoolId × Link)) :=
  (w.endings? t).findSome? fun
    | .lent i link => some (.ok (i, link))
    | .failed f => some (.error f)
    | _ => none

def returned? (t : Ticket) (w : World) : Option Unit :=
  (w.endings? t).findSome? fun
    | .returned => some ()
    | _ => none

def swept? (t : Ticket) (w : World) : Option Nat :=
  (w.endings? t).findSome? fun
    | .swept n => some n
    | _ => none

def refreshed? (t : Ticket) (w : World) : Option (Except Fault Unit) :=
  (w.endings? t).findSome? fun
    | .refreshed r => some r
    | _ => none

def replied? (t : Ticket) (w : World) : Option (Except Fault Reply) :=
  (w.endings? t).findSome? fun
    | .replied r => some r
    | _ => none

def resolved? (t : Ticket) (w : World) : Option (Except Fault (List ResolvedGroup)) :=
  (w.endings? t).findSome? fun
    | .resolved r => some r
    | _ => none

/-- Waits for the end of an operation. -/
def await (ending? : World → Option α) (w : World) : Option α × World :=
  let w := w.runUntil fun w => (ending? w).isSome
  (ending? w, w)

/-- Starts an operation under a new ticket. -/
def start (m : Ticket → Client.Move) (w : World) : Ticket × World :=
  let (t, w) := w.issue
  (t, w.move (m t))

/-- Stops a borrower that has no connection yet. -/
def cancelBorrow (i : PoolId) (t : Ticket) (w : World) : World :=
  (w.forget t).move (.pool i (.abandon t))

/-- Lets time pass. -/
def pass (ms : Nat) (w : World) : World :=
  let (t, w) := w.issue
  (w.later ms (.rested t)).runUntil fun w => w.endings.any fun e => e.1 = t

/-- Sends a request over a borrowed connection. -/
def ask (i : PoolId) (link : Link) (r : Request) (w : World) :
    Option (Except Fault Reply) × World :=
  let (t, w) := w.issue
  (w.proceed (w.network.delayOf r) (.direct t i link r)).await (replied? t)

/-- Asks the members of groups for their roles. -/
def resolve (sets : List ReplicaSet) (w : World) :
    Option (Except Fault (List ResolvedGroup)) × World :=
  let (t, w) := w.issue
  let round := Round.start sets
  let w := round.effects.foldl (fun w n => w.tell n) { w with round := some (t, round.state) }
  let w := w.probeAll .told .broke 0 sets
  (if round.state.isReady then w.soon .collect else w).await (resolved? t)

/-- Starts a task that refreshes the router periodically. -/
def refreshEvery (period : Nat) (w : World) : Ticket × World :=
  let (name, w) := w.issue
  let ticker := Ticker.start .shifted period w.now
  (name, ({ w with refreshers := w.refreshers ++ [⟨name, ticker, none, false⟩] } : World).later
    period (.refresh name))

/-- Stops a task that refreshes the router periodically, in the middle of a refresh if need be. -/
def stopRefreshing (name : Ticket) (w : World) : World :=
  match w.refreshers.find? fun k : Refresher => k.name = name with
  | none => w
  | some k =>
    let w := { w with refreshers := w.refreshers.map fun k : Refresher =>
      if k.name = name then { k with finished := true, refresh := none } else k }
    match k.refresh with
    | some t => w.move (.abandonRefresh t)
    | none => w

/-- A world whose client has bare pools and routes nothing. -/
def bare (tuning : Config.PoolTuning) (background : Bool) : World :=
  { client := ⟨{
      config := ⟨[], tuning, {}, 0, ""⟩
      sets := []
      fleet := { tuning, background }
      current := ⟨0, [], none⟩
      generation := 0 }, []⟩ }

/-- Changes the pools apart from the router, and does what they ask for. -/
def onFleet (f : Fleet → Fleet.Reaction) (w : World) : World :=
  let r := f w.client.router.fleet
  let router := { w.client.router with fleet := r.state }
  ({ w with client := { w.client with router } } : World).onEffects r.effects

/-- The router of a configuration comes into the world, after the topology is resolved. -/
def launch (config : Config.Cluster) (w : World) : Except Fault Unit × World :=
  match Router.plan config with
  | .error f => (.error f, w)
  | .ok sets =>
    let (resolved, w) := (w.tell (Router.planNotice config sets)).resolve sets
    match resolved.getD (.error endlessFault) with
    | .error f => (.error f, w)
    | .ok groups =>
      match Router.ofResolved config true groups with
      | (.error f, effects) => (.error f, w.onEffects effects)
      | (.ok r, effects) => (.ok (), ({ w with client := ⟨r, []⟩ } : World).onEffects effects)

end World
end Shardway.Simulation
