import Shardway.Pool.Fleet
import Shardway.Resolution

/-!
A scripted network: how long things take, which connections come about and which answer, and what
the nodes reply. And scripted nodes, which tell the roles that they are given.
-/
namespace Shardway.Simulation

/-- A request that reached a node. -/
structure Sent where
  target : Address
  link : Link
  request : Request
deriving DecidableEq, Repr

structure Network where
  /-- Delays in milliseconds. -/
  connectDelay : Nat := 0
  pingDelay : Nat := 0
  requestDelay : Nat := 0
  /-- Whether any connection answers. -/
  alive : Bool := true
  /-- The connections that do not answer. -/
  killed : List Link := []
  /-- Why connecting fails, by the address. -/
  refusals : List (String × Fault) := []
  /-- The reply to pings. -/
  pong : Reply := .simple "PONG"
  /-- The replies to other requests, one after the other. -/
  replies : List (Except Fault Reply) := []
  /-- How many connections were opened so far. They are numbered in this order. -/
  opened : Nat := 0
  live : List Link := []
  /-- The most connections that were open at a time. -/
  peak : Nat := 0
  /-- The requests that reached nodes since they were last looked at, the latest first. -/
  sent : List Sent := []

namespace Network

/-- The entry of `refusals` that stands for all other addresses. -/
def anyAddress : String := "*"

def refusal? (n : Network) (a : Address) : Option Fault :=
  ((n.refusals.find? (·.1 = a.text)).or (n.refusals.find? (·.1 = anyAddress))).map (·.2)

/-- Makes connecting fail, or lets it succeed again. -/
def setRefusal (address : String) (fault : Option Fault) (n : Network) : Network :=
  let others := n.refusals.filter (·.1 ≠ address)
  { n with refusals := match fault with
      | some f => (address, f) :: others
      | none => others }

/-- Why connecting to an address fails for a host without any network. -/
def offlineFault (a : Address) : Fault :=
  .connectionFailed s!"{a}: Network is unreachable (os error 101)"

/-- Connecting to an address is decided. -/
def connect (a : Address) (n : Network) : Network × Except Fault Link :=
  match n.refusal? a with
  | some f => (n, .error f)
  | none =>
    let live := n.opened :: n.live
    ({ n with opened := n.opened + 1, live, peak := max n.peak live.length }, .ok n.opened)

def close (link : Link) (n : Network) : Network := { n with live := n.live.erase link }

def answers (n : Network) (link : Link) : Bool := n.alive && link ∉ n.killed

/-- The fault of requests over a connection that does not answer. -/
def downFault : Fault := .connectionFailed "link down"

def pingWord : Bytes := Text.Utf8.encode "PING"

/-- The request that asks for the number of the connection. -/
def idRequest : Request := [Text.Utf8.encode "ID"]

def isPing (r : Request) : Bool := r.head? = some pingWord

def delayOf (n : Network) (r : Request) : Nat := if isPing r then n.pingDelay else n.requestDelay

/-- A request is decided. -/
def request (a : Address) (link : Link) (r : Request) (n : Network) :
    Network × Except Fault Reply :=
  if !n.answers link then (n, .error downFault)
  else if isPing r then (n, .ok n.pong)
  else
    let n := { n with sent := ⟨a, link, r⟩ :: n.sent }
    if r = idRequest then (n, .ok (.int (Int64.ofNat link)))
    else
      match n.replies with
      | [] => (n, .ok .nil)
      | v :: rest => ({ n with replies := rest }, v)

/-- A ping is good only if its reply is the simple text `PONG`. -/
def isPong : Except Fault Reply → Bool
  | .ok (.simple s) => s = "PONG"
  | _ => false

/-- A ping is decided. -/
def ping (a : Address) (link : Link) (n : Network) : Network × Bool :=
  let (n, reply) := n.request a link [pingWord]
  (n, isPong reply)

/-- A node is probed over a connection of its own, which is closed afterwards. -/
def probe (a : Address) (n : Network) : Network × Role :=
  match n.connect a with
  | (n, .error f) => (n, Probe.role (.error f))
  | (n, .ok link) =>
    let (n, reply) := n.request a link Probe.request
    (n.close link, Probe.role reply)

end Network

/-! ## Nodes -/

/-- What becomes of a probe. -/
inductive Fate
  | tells (r : Role)
  | hangs
  /-- The probing of the whole group breaks off. -/
  | breaks (reason : String)
deriving DecidableEq, Repr

/-- What a node does when it is probed. -/
structure Act where
  /-- After so many milliseconds. -/
  delay : Nat := 0
  fate : Fate
deriving DecidableEq, Repr

/-- What the nodes do, by address: one act for each probe, the last one for all that follow. -/
abbrev Cast := List (String × List Act)

namespace Cast

def unknown : Act := ⟨0, .tells (.unreachable "connection refused")⟩

/-- The next act of the node at an address. -/
def next (a : Address) (c : Cast) : Act × Cast :=
  match c.find? (·.1 = a.text) with
  | some (_, act :: second :: r) =>
    (act, c.map fun e => if e.1 = a.text then (e.1, second :: r) else e)
  | some (_, [act]) => (act, c)
  | _ => (unknown, c)

def set (address : String) (acts : List Act) (c : Cast) : Cast :=
  (address, acts) :: c.filter (·.1 ≠ address)

end Cast

/-- When and how a probe of a node ends that is bounded by its deadline. -/
def Act.settled (act : Act) (n : Node) : Nat × Fate :=
  let deadline := n.probeDeadline.ceilMillis
  match act.fate with
  | .hangs => (deadline, .tells n.timedOut)
  | fate => if act.delay ≤ deadline then (act.delay, fate) else (deadline, .tells n.timedOut)

end Shardway.Simulation
