import Shardway.Config.Basic
import Shardway.Metrics
import Shardway.Notice
import Shardway.Reaction

/-!
A pool of connections to one node. Permits bound the connections that are lent or in hand of an
operation; idle connections hold none. Returned connections join the idle ones at the back, so the
front is the one that has been idle longest.

An operation on a pool may wait: for a permit, for the answer to a ping, or for a connection to be
opened. The pool keeps for each operation in progress what it waits for, and every move of an
operation between two waits is one function from pools to reactions.
-/
namespace Shardway

/-- The number that names a connection. -/
abbrev Link := Nat

/-- The number that names an operation in progress. -/
abbrev Ticket := Nat

/-- An idle connection and the time, in milliseconds, since which it has been idle. -/
structure Parked where
  link : Link
  since : Nat
deriving DecidableEq, Repr, Inhabited

/-- What a borrower waits for. All but a queued one hold a permit. -/
inductive BorrowStage
  | queued
  /-- It has been given a permit and has not gone on yet. -/
  | granted
  | pinging (link : Link)
  | connecting
deriving DecidableEq, Repr, Inhabited

/-- What an eviction pass has done so far: how many connections it kept, which are the first idle
ones, and how many it closed. -/
structure Pass where
  kept : Nat := 0
  closed : Nat := 0
deriving DecidableEq, Repr, Inhabited

/-- What an eviction pass waits for. It holds a permit meanwhile. -/
inductive SweepStage
  /-- The ping of a connection; so many others may be examined after it. -/
  | pinging (entry : Parked) (left : Nat) (pass : Pass)
  /-- A new idle connection, after so many were closed. -/
  | connecting (closed : Nat)
deriving DecidableEq, Repr, Inhabited

structure Pool where
  node : Node
  tuning : Config.PoolTuning
  /-- The idle connections, the one that has been idle longest first. -/
  idle : List Parked := []
  /-- How many permits are free. -/
  free : Nat
  closed : Bool := false
  metrics : Metrics := {}
  /-- The connections with borrowers. -/
  lent : List Link := []
  /-- The borrowers that wait, first come first. -/
  borrows : List (Ticket × BorrowStage) := []
  /-- The returns that wait for a ping of their connection; each still holds its permit. -/
  returns : List (Ticket × Link) := []
  sweeps : List (Ticket × SweepStage) := []
deriving DecidableEq, Repr, Inhabited

namespace Pool

/-- What a pool asks for or tells. -/
inductive Effect
  /-- The borrower waits for a permit, as long as the tuning allows. -/
  | wait (t : Ticket)
  /-- The borrower can go on. -/
  | wake (t : Ticket)
  | ping (t : Ticket) (link : Link)
  | connect (t : Ticket)
  /-- The connection is closed. -/
  | close (link : Link)
  | notice (n : Notice)
  /-- The borrower has the connection. -/
  | lent (t : Ticket) (link : Link)
  /-- The borrower has nothing. -/
  | failed (t : Ticket) (fault : Fault)
  | returned (t : Ticket)
  /-- The eviction pass is over; it closed so many connections. -/
  | swept (t : Ticket) (closed : Nat)
deriving DecidableEq, Repr

/-- A pool after a move, and what the move asks for or tells. -/
abbrev Reaction := Shardway.Reaction Effect Pool

/-- An empty pool. -/
def ofNode (node : Node) (tuning : Config.PoolTuning) : Pool :=
  { node, tuning, free := tuning.maxTotal }

def addr (p : Pool) : Address := p.node.addr

/-- How many permits are held. -/
def inUse (p : Pool) : Nat := p.tuning.maxTotal - p.free

/-- The pool in one line. -/
def text (p : Pool) : String :=
  s!"ConnectionPool \x7b addr: HostPort \x7b host: {Text.quoted p.addr.host}, " ++
    s!"port: {p.addr.port} \x7d, idle: {p.idle.length}, active: {p.inUse}, closed: {p.closed} \x7d"

/-! ## Tickets -/

/-- What the operation with this ticket waits for. -/
def find? (t : Ticket) (l : List (Ticket × α)) : Option α := (l.find? (·.1 = t)).map (·.2)

def without (t : Ticket) (l : List (Ticket × α)) : List (Ticket × α) := l.filter (·.1 ≠ t)

/-- The list in which the operation waits for `a`. -/
def putAt (t : Ticket) (a : α) (l : List (Ticket × α)) : List (Ticket × α) :=
  without t l ++ [(t, a)]

/-- Hands a permit to the first borrower in the queue. -/
def grant? : List (Ticket × BorrowStage) → Option (Ticket × List (Ticket × BorrowStage))
  | [] => none
  | (t, .queued) :: r => some (t, (t, .granted) :: r)
  | e :: r => (grant? r).map fun (t, r) => (t, e :: r)

/-- The borrowers in the queue. -/
def queue (p : Pool) : List Ticket :=
  p.borrows.filterMap fun (t, s) => if s = .queued then some t else none

/-! ## Small moves -/

/-- Changes the idle connections, along with the gauge that follows their number. -/
def setIdle (p : Pool) (idle : List Parked) : Pool :=
  { p with idle, metrics := { p.metrics with idle := p.metrics.idle.set idle.length.toUInt64 } }

/-- Closes a connection that the pool has opened. -/
def discard (link : Link) (p : Pool) : Reaction :=
  ⟨{ p with metrics := { p.metrics with closed := p.metrics.closed.increment } }, [.close link]⟩

/-- Takes no more idle connections. -/
def isFull (p : Pool) : Bool := p.closed || p.tuning.maxIdle ≤ p.idle.length

/-- Puts a connection behind the idle ones, or closes it when there is no place for it. -/
def park (now : Nat) (link : Link) (p : Pool) : Reaction :=
  if p.isFull then p.discard link else ⟨p.setIdle (p.idle ++ [⟨link, now⟩]), []⟩

/-- Takes the idle connection that is lent next. -/
def takeIdle? (p : Pool) : Option (Parked × Pool) :=
  if p.tuning.lifo then p.idle.getLast?.map fun e => (e, p.setIdle p.idle.dropLast)
  else p.idle.head?.map fun e => (e, p.setIdle p.idle.tail)

/-- Gives a permit back: to the borrower that has waited longest, if one waits. -/
def release (p : Pool) : Reaction :=
  match if p.closed then none else grant? p.borrows with
  | some (t, borrows) => ⟨{ p with borrows }, [.wake t]⟩
  | none => ⟨{ p with free := p.free + 1 }, []⟩

/-- Takes a free permit. -/
def acquire (p : Pool) : Pool := { p with free := p.free - 1 }

def countValidationFailure (p : Pool) : Pool :=
  { p with metrics := { p.metrics with
      validationFailures := p.metrics.validationFailures.increment } }

def countBorrowFailure (p : Pool) : Pool :=
  { p with metrics := { p.metrics with borrowFailures := p.metrics.borrowFailures.increment } }

def countCreated (p : Pool) : Pool :=
  { p with metrics := { p.metrics with created := p.metrics.created.increment } }

/-- Closes a connection that failed its ping. -/
def reject (link : Link) (p : Pool) : Reaction := p.countValidationFailure.discard link

end Pool
end Shardway
