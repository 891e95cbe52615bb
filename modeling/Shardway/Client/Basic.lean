import Shardway.Client.Retry
import Shardway.Router.Basic

/-!
The client: a router, and the calls in progress. A call routes by its key, borrows a connection from
the pool of the owning master, sends one request and returns the connection, as unhealthy only if the
fault may have left it in the middle of a reply.
-/
namespace Shardway

/-- What a call waits for. -/
inductive CallStage
  | borrowing (pool : PoolId)
  | running (pool : PoolId) (link : Link)
  /-- The return of its connection; the outcome is known already. -/
  | returning (pool : PoolId) (outcome : Except Fault Reply)
  /-- The end of a pause between two attempts. -/
  | pausing

structure Call where
  key : Bytes
  request : Request
  retry : Retry
  stage : CallStage

structure Client where
  router : Router
  calls : List (Ticket × Call) := []

namespace Client

/-- A client after a move, and what the move asks for or tells. -/
abbrev Reaction := Shardway.Reaction Effect Client

/-- The pause after the first attempt of a call. -/
def firstPause : Span := .ofMillis 50

def find? (t : Ticket) (c : Client) : Option Call := Pool.find? t c.calls

def without (t : Ticket) (c : Client) : Client := { c with calls := Pool.without t c.calls }

def put (t : Ticket) (call : Call) (c : Client) : Client :=
  { c with calls := Pool.putAt t call c.calls }

/-- An attempt of a call is over: either the call is, or it pauses for another attempt. -/
def settle (t : Ticket) (call : Call) (outcome : Except Fault Reply) (c : Client) : Reaction :=
  match outcome with
  | .ok v => ⟨c.without t, [.answered t (.ok v)]⟩
  | .error f =>
    match call.retry.next? f with
    | none => ⟨c.without t, [.answered t (.error f)]⟩
    | some next =>
      ⟨c.put t { call with retry := next, stage := .pausing },
        [.notice (call.retry.notice f), .pause t call.retry.pause]⟩

/-- What a call makes of something that a pool tells it. -/
def hear (i : PoolId) (e : Pool.Effect) (c : Client) : Reaction :=
  match e with
  | .lent t link =>
    match c.find? t with
    | some call => ⟨c.put t { call with stage := .running i link }, [.send t i link call.request]⟩
    | none => ⟨c, []⟩
  | .failed t f =>
    match c.find? t with
    | some call => c.settle t call (.error f)
    | none => ⟨c, []⟩
  | .returned t =>
    match c.find? t with
    | some call =>
      match call.stage with
      | .returning _ outcome => c.settle t call outcome
      | _ => ⟨c, []⟩
    | none => ⟨c, []⟩
  | _ => ⟨c, []⟩

/-- Passes effects on, each followed by what the calls make of it. -/
def hearAll : List Effect → Client → Reaction
  | [], c => ⟨c, []⟩
  | e :: r, c =>
    let heard : Reaction := match e with
      | .pool i e => c.hear i e
      | _ => ⟨c, []⟩
    ((⟨heard.state, e :: heard.effects⟩ : Reaction)).andThen (hearAll r)

/-- A move of the router. -/
def onRouter (f : Router → Router.Reaction) (c : Client) : Reaction :=
  let r := f c.router
  hearAll r.effects { c with router := r.state }

/-- A move of one of the pools. -/
def onPool (now : Nat) (i : PoolId) (m : Pool.Move) (c : Client) : Reaction :=
  c.onRouter (Router.stepPool now i m)

/-- A call begins an attempt: it routes by the index that is current now. -/
def attempt (now : Nat) (t : Ticket) (call : Call) (c : Client) : Reaction :=
  match c.router.route call.key with
  | .error f => c.settle t call (.error f)
  | .ok i => (c.put t { call with stage := .borrowing i }).onPool now i (.borrow t)

/-- A call comes that may make so many attempts; it makes at least one. -/
def call (now : Nat) (t : Ticket) (key : Bytes) (request : Request) (attempts : Nat) (c : Client) :
    Reaction :=
  c.attempt now t ⟨key, request, ⟨max attempts 1, 0, firstPause⟩, .pausing⟩

/-- The pause of a call is over. -/
def woken (now : Nat) (t : Ticket) (c : Client) : Reaction :=
  match c.find? t with
  | some call =>
    match call.stage with
    | .pausing => c.attempt now t call
    | _ => ⟨c, []⟩
  | none => ⟨c, []⟩

/-- The connection is to be kept after such an outcome. -/
def isHealthy : Except Fault Reply → Bool
  | .ok _ => true
  | .error f => !f.isConnectionFault

/-- The request of a call was answered, or failed. -/
def replied (now : Nat) (t : Ticket) (outcome : Except Fault Reply) (c : Client) : Reaction :=
  match c.find? t with
  | some call =>
    match call.stage with
    | .running i link =>
      (c.put t { call with stage := .returning i outcome }).onPool now i
        (.giveBack t link (isHealthy outcome))
    | _ => ⟨c, []⟩
  | none => ⟨c, []⟩

/-- Everything that can happen to a client. -/
inductive Move
  | call (t : Ticket) (key : Bytes) (request : Request) (attempts : Nat)
  | replied (t : Ticket) (outcome : Except Fault Reply)
  | woken (t : Ticket)
  | pool (i : PoolId) (m : Pool.Move)
  | refresh (t : Ticket)
  | resume (t : Ticket)
  | probed (t : Ticket) (i j : Nat) (role : Role)
  | brokeOff (t : Ticket) (i : Nat) (reason : String)
  | abandonRefresh (t : Ticket)
  | shutdown

/-- One move at a time in milliseconds. -/
def step (now : Nat) (m : Move) (c : Client) : Reaction :=
  match m with
  | .call t key request attempts => c.call now t key request attempts
  | .replied t outcome => c.replied now t outcome
  | .woken t => c.woken now t
  | .pool i m => c.onPool now i m
  | .refresh t => c.onRouter (Router.refresh t)
  | .resume t => c.onRouter (Router.resume t)
  | .probed t i j role => c.onRouter (Router.probed t i j role)
  | .brokeOff t i reason => c.onRouter (Router.brokeOff t i reason)
  | .abandonRefresh t => c.onRouter (Router.abandon t)
  | .shutdown => c.onRouter (Router.shutdown now)

end Client
end Shardway
