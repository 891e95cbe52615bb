import Shardway.Pool.Lending
import Shardway.Pool.Eviction

/-!
The moves of a pool: everything that can happen to it, as data. A run of a pool is a sequence of
moves in any order; a move of an operation that does not wait for it changes nothing.
-/
namespace Shardway.Pool

/-- Closes the idle connections, and from now on every connection that comes back. -/
def shutdown (p : Pool) : Reaction :=
  if p.closed then ⟨p, []⟩
  else
    let count := p.idle.length
    let q := { p.setIdle [] with closed := true }
    ⟨{ q with metrics := { q.metrics with closed := q.metrics.closed.add count.toUInt64 } },
      p.idle.map (.close ·.link) ++ p.queue.map .wake ++ [.notice (.poolShutDown p.addr count)]⟩

inductive Move
  | borrow (t : Ticket)
  | takeUp (t : Ticket)
  | expire (t : Ticket)
  | abandon (t : Ticket)
  | giveBack (t : Ticket) (link : Link) (healthy : Bool)
  | letGo (link : Link)
  | sweep (t : Ticket)
  /-- The ping that the operation waits for is over. -/
  | pinged (t : Ticket) (alive : Bool)
  /-- The connection that the operation waits for is there, or is not to be had. -/
  | connected (t : Ticket) (result : Except Fault Link)
  | shutdown

/-- The operation among those in progress that a ticket names. -/
inductive Waiting
  | borrow | giveBack | sweep
deriving DecidableEq, Repr

/-- Which operation waits under a ticket. -/
def waiting? (t : Ticket) (p : Pool) : Option Waiting :=
  if (find? t p.borrows).isSome then some .borrow
  else if (find? t p.returns).isSome then some .giveBack
  else if (find? t p.sweeps).isSome then some .sweep
  else none

/-- One move at a time in milliseconds. -/
def step (now : Nat) (m : Move) (p : Pool) : Reaction :=
  match m with
  | .borrow t => p.borrow t
  | .takeUp t => p.takeUp t
  | .expire t => p.expire t
  | .abandon t => p.abandon t
  | .giveBack t link healthy => p.giveBack now t link healthy
  | .letGo link => p.letGo link
  | .sweep t => p.sweep now t
  | .pinged t alive =>
    match p.waiting? t with
    | some .borrow => p.borrowPinged t alive
    | some .giveBack => p.returnPinged now t alive
    | some .sweep => p.sweepPinged now t alive
    | none => ⟨p, []⟩
  | .connected t result =>
    match p.waiting? t with
    | some .borrow => p.borrowConnected t result
    | some .sweep => p.sweepConnected now t result
    | _ => ⟨p, []⟩
  | .shutdown => p.shutdown

end Shardway.Pool
