import Shardway.Cli.Session
import Shardway.Reply.Wire
import Shardway.Simulation.World
import Std.Async.DNS
import Std.Async.Signal
import Std.Async.TCP
import Std.Async.Timer

/-!
The program: a session of the command line over sockets. Time, connections, pings and requests are
real; everything else happens as in a scripted world, whose agenda says what is due when.
-/
namespace Shardway.Live

open Simulation

abbrev Stream := Std.Async.TCP.Socket.Client

/-! ## Sockets -/

def millis (n : Nat) : Std.Time.Millisecond.Offset := .ofNat n

/-- Does something for at most a span of time. -/
def within (span : Span) (act : Std.Async.Async α) : IO (Option α) :=
  (Std.Async.Async.race (some <$> act) do
    Std.Async.sleep (millis span.ceilMillis)
    return none).block

/-- The endpoint with an address; a name is looked up. -/
def endpoint (a : Address) : Std.Async.Async Std.Net.SocketAddress := do
  let of : Std.Net.IPAddr → Std.Net.SocketAddress
    | .v4 ip => .v4 ⟨ip, a.port⟩
    | .v6 ip => .v6 ⟨ip, a.port⟩
  match Std.Net.IPv4Addr.ofString a.host with
  | some ip => return of (.v4 ip)
  | none =>
    match (← Std.Async.DNS.getAddrInfo a.host (toString a.port))[0]? with
    | some ip => return of ip
    | none => throw (IO.userError "failed to lookup address information")

def connect (n : Node) : IO (Except Fault Stream) := do
  try
    let stream ← within n.timeout do
      let stream ← Std.Async.TCP.Socket.Client.mk
      stream.connect (← endpoint n.addr)
      return stream
    match stream with
    | some stream => return .ok stream
    | none => return .error (.timeout s!"connect to {n.addr} after {n.timeout.text}")
  catch e => return .error (.connectionFailed s!"{n.addr}: {e}")

/-- Receives a reply behind the bytes that are there already. -/
partial def receive (stream : Stream) (got : Bytes) : Std.Async.Async (Except Fault Reply) := do
  match Reply.Wire.read got with
  | .done v _ => return Reply.Wire.outcome v
  | .malformed => return .error (.protocol "malformed reply")
  | .incomplete =>
    match ← stream.recv? 65536 with
    | some more => receive stream (got ++ more.toList)
    | none => return .error (.connectionFailed "the node closed the connection")

/-- Sends a request and waits for the reply. -/
def ask (n : Node) (stream : Stream) (r : Request) : IO (Except Fault Reply) := do
  try
    let reply ← within n.timeout do
      stream.send ⟨(Reply.Wire.writeRequest r).toArray⟩
      receive stream []
    return reply.getD (.error (.timeout s!"request to {n.addr} after {n.timeout.text}"))
  catch e => return .error (.connectionFailed (toString e))

def close (stream : Stream) : IO Unit := do
  try stream.shutdown.block catch _ => return

def probe (n : Node) : IO Role := do
  match ← connect n with
  | .error f => return Probe.role (.error f)
  | .ok stream =>
    let reply ← ask n stream Probe.request
    close stream
    return Probe.role reply

/-- Probes nodes all at the same time, and has each of them tell its role. -/
def probeAll (nodes : List Node) : IO Cast := do
  let tasks ← nodes.mapM fun n => IO.asTask (probe n) .dedicated
  (nodes.zip tasks).mapM fun (n, task) => do
    return (n.addr.text, [⟨0, .tells (← IO.ofExcept task.get)⟩])

/-! ## The world -/

structure Site where
  world : World := .bare {} true
  streams : List (Link × Stream) := []
  logLevel : String := "info"
  /-- Tells when the user breaks the session off. -/
  interrupt : Option (Std.Async.AsyncTask Int) := none

abbrev LiveM := StateT Site IO

def shows (logLevel : String) : Level → Bool
  | .info => logLevel ∉ ["off", "error", "warn"]
  | .warn => logLevel ∉ ["off", "error"]

/-- Changes the world, prints what is told, and closes the connections that are closed in it. -/
def change (f : World → World) : LiveM Unit := do
  let s ← get
  let world := (f { s.world with now := ← IO.monoMsNow }).dropPools
  for n in world.notices do
    if shows s.logLevel n.level then IO.println n.line
  let (live, closed) := s.streams.partition fun e => world.network.live.contains e.1
  for e in closed do close e.2
  set { s with world := { world with notices := [] }, streams := live }

/-- Asks over a connection of a pool. -/
def askOver (i : PoolId) (link : Link) (r : Request) : LiveM (Except Fault Reply) := do
  let s ← get
  match s.world.pool? i, s.streams.find? (·.1 = link) with
  | some p, some (_, stream) => ask p.node stream r
  | _, _ => return .error (.connectionFailed "no connection")

/-- Opens a connection for a pool. -/
def connectFor (t : Ticket) (i : PoolId) (n : Node) : LiveM Unit := do
  match ← connect n with
  | .error f => change (·.move (.pool i (.connected t (.error f))))
  | .ok stream =>
    let s ← get
    let (network, link) := s.world.network.connect n.addr
    for l in link.toOption do
      set { s with streams := (l, stream) :: s.streams }
    change fun w => { w with network }.move (.pool i (.connected t link))

/-- Something happens. -/
def happen (h : Happening) : LiveM Unit := do
  match h with
  | .connect t i =>
    for p in (← get).world.pool? i do connectFor t i p.node
  | .ping t i link =>
    let reply ← askOver i link [Network.pingWord]
    change (·.move (.pool i (.pinged t (Network.isPong reply))))
  | .request t i link r =>
    let reply ← askOver i link r
    change (·.move (.replied t reply))
  | h => change (·.happen h)

/-- How often a pause looks whether the user breaks the session off, in milliseconds. -/
def lookEvery : Nat := 20

/-- Waits for a time; false if the user breaks the session off. -/
partial def pauseUntil (time : Nat) : LiveM Bool := do
  let broken ← match (← get).interrupt with
    | some signal => IO.hasFinished signal
    | none => pure false
  let now ← IO.monoMsNow
  if broken then return false
  else if time ≤ now then return true
  else
    IO.sleep (min lookEvery (time - now)).toUInt32
    pauseUntil time

/-- Lets things happen until something is done, or a time has come; false if the user breaks the
session off. -/
partial def runUntil (done : World → Bool) (limit : Option Nat) : LiveM Bool := do
  let w := (← get).world
  match w.ready, w.agenda with
  | h :: r, _ =>
    modify fun s => { s with world := { w with ready := r } }
    happen h
    runUntil done limit
  | [], agenda =>
    if done w then return true
    else
      let next := agenda.head?.filter fun e => limit.all (e.1 ≤ ·)
      match next, limit with
      | some (time, h), _ =>
        if ← pauseUntil time then
          modify fun s => { s with world := { w with agenda := agenda.tail, ready := [h] } }
          runUntil done limit
        else return false
      | none, some time => pauseUntil time
      | none, none => return true

/-- Does something that ends in a result. -/
def await (m : Ticket → Client.Move) (ending? : Ticket → World → Option (Except Fault α)) :
    LiveM (Except Fault α) := do
  let t := (← get).world.tickets
  change fun w => (w.start m).2
  discard <| runUntil (fun w => (ending? t w).isSome) none
  return (ending? t (← get).world).getD (.error endlessFault)

/-- The index that is current after something succeeded. -/
def current (result : Except Fault Unit) : LiveM (Except Fault Index) := do
  let index := (← get).world.client.router.current
  return result.map fun _ => index

/-- The store over sockets. -/
def deployment (environment : List (String × String)) : Cli.Deployment LiveM where
  configuration path := do
    let content ← try some <$> IO.FS.readFile path catch _ => pure none
    return Config.Cluster.load (.ofPath path content) environment
  launch config := do
    let cast ← match config.check with
      | .ok _ => probeAll config.nodeList
      | .error _ => pure []
    let (result, world) := { (← get).world with now := ← IO.monoMsNow, cast }.launch config
    modify fun s => { s with world, logLevel := config.logLevel }
    change id
    current result
  refresh := do
    let cast ← probeAll (← get).world.client.router.config.nodeList
    change ({ · with cast })
    current (← await .refresh World.refreshed?)
  call key request := await (.call · key request 1) World.replied?
  shutdown := change (·.move .shutdown)
  now := IO.monoMsNow
  waitUntil time := do
    if (← get).interrupt.isNone then
      let signal ← (← Std.Async.Signal.Waiter.mk .sigint false).wait
      modify fun s => { s with interrupt := some signal }
    runUntil (fun _ => false) (some time)
  print lines := do
    let out ← IO.getStdout
    lines.forM fun l => out.putStrLn l
    out.flush
  report n := change (·.tell n)

/-- The variables of the environment, where the system shows them. -/
def environment : IO (List (String × String)) := do
  let bytes ← try IO.FS.readBinFile "/proc/self/environ" catch _ => pure .empty
  let entries := (String.fromUTF8? bytes).getD ""
  return (entries.splitOn "\x00").filterMap fun e =>
    match e.splitOn "=" with
    | name :: value@(_ :: _) => some (name, "=".intercalate value)
    | _ => none

/-- How many times a watch refreshes at most. -/
def watchRounds : Nat := 0x4000000000000000

end Shardway.Live

def main (args : List String) : IO UInt32 := do
  let d := Shardway.Live.deployment (← Shardway.Live.environment)
  let (outcome, _) ← (d.run Shardway.Live.watchRounds args).run {}
  for complaint in outcome.complaint do IO.eprintln complaint
  return outcome.code.toUInt32
