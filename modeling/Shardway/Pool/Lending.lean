import Shardway.Pool.Basic

/-!
Lending connections and taking them back.
-/
namespace Shardway.Pool

def closedFault (p : Pool) : Fault := .poolClosed p.addr.text

def exhaustedFault (p : Pool) : Fault := .poolExhausted p.addr.text p.tuning.maxWait

/-! ## Borrowing -/

/-- The borrower is done. -/
def leave (t : Ticket) (p : Pool) : Pool := { p with borrows := without t p.borrows }

/-- Makes the borrower wait. -/
def await (t : Ticket) (s : BorrowStage) (p : Pool) : Pool :=
  { p with borrows := putAt t s p.borrows }

/-- Hands a connection to the borrower. -/
def checkout (t : Ticket) (link : Link) (p : Pool) : Reaction :=
  let p := p.leave t
  ⟨{ p with
      lent := link :: p.lent
      metrics := { p.metrics with
        borrows := p.metrics.borrows.increment
        active := p.metrics.active.increment } },
    [.lent t link]⟩

/-- A borrower with a permit looks for a connection: an idle one, else a new one. -/
def lend (t : Ticket) (p : Pool) : Reaction :=
  match p.takeIdle? with
  | some (e, p) =>
    if p.tuning.testOnBorrow then ⟨p.await t (.pinging e.link), [.ping t e.link]⟩
    else p.checkout t e.link
  | none => ⟨p.await t .connecting, [.connect t]⟩

/-- The borrower goes away with a fault, which counts as a failure. -/
def turnAway (t : Ticket) (f : Fault) (p : Pool) : Reaction :=
  ⟨(p.leave t).countBorrowFailure, [.failed t f]⟩

/-- A borrower comes. -/
def borrow (t : Ticket) (p : Pool) : Reaction :=
  if p.closed then ⟨p, [.failed t p.closedFault]⟩
  else if 0 < p.free then p.acquire.lend t
  else if p.tuning.maxWaitMs = 0 then p.turnAway t p.exhaustedFault
  else ⟨p.await t .queued, [.wait t]⟩

/-- A borrower goes on that was given a permit, or that the closing of the pool has woken. -/
def takeUp (t : Ticket) (p : Pool) : Reaction :=
  match find? t p.borrows with
  | some .queued => if p.closed then ⟨p.leave t, [.failed t p.closedFault]⟩ else ⟨p, []⟩
  | some .granted =>
    if p.closed then (p.leave t).release.tell (.failed t p.closedFault) else p.lend t
  | _ => ⟨p, []⟩

/-- A borrower has waited for a permit as long as it may. -/
def expire (t : Ticket) (p : Pool) : Reaction :=
  match find? t p.borrows with
  | some .queued =>
    if p.closed then ⟨p.leave t, [.failed t p.closedFault]⟩ else p.turnAway t p.exhaustedFault
  | _ => ⟨p, []⟩

/-- The connection that a borrower had tested answered, or did not. -/
def borrowPinged (t : Ticket) (alive : Bool) (p : Pool) : Reaction :=
  match find? t p.borrows with
  | some (.pinging link) =>
    if alive then p.checkout t link else (p.reject link).andThen (lend t)
  | _ => ⟨p, []⟩

/-- The new connection for a borrower is open, or could not be opened. -/
def borrowConnected (t : Ticket) (result : Except Fault Link) (p : Pool) : Reaction :=
  match find? t p.borrows with
  | some .connecting =>
    match result with
    | .ok link => p.countCreated.checkout t link
    | .error f =>
      (((⟨p, [.notice (.connectFailed p.addr f)]⟩ : Reaction).andThen (turnAway t f))).andThen release
  | _ => ⟨p, []⟩

/-- A borrower gives up while it waits. A connection it had in hand is closed uncounted. -/
def abandon (t : Ticket) (p : Pool) : Reaction :=
  match find? t p.borrows with
  | some .queued => ⟨p.leave t, []⟩
  | some (.pinging link) => (⟨p.leave t, [.close link]⟩ : Reaction).andThen release
  | some _ => (p.leave t).release
  | none => ⟨p, []⟩

/-! ## Returning -/

/-- A connection comes back from its borrower. -/
def takeBack (link : Link) (p : Pool) : Pool :=
  { p with
    lent := p.lent.erase link
    metrics := { p.metrics with active := p.metrics.active.decrement } }

/-- The return is over; only now may another borrower have the permit, so that it finds the
connection. -/
def endReturn (t : Ticket) (p : Pool) : Reaction :=
  ({ p with returns := without t p.returns } : Pool).release.tell (.returned t)

/-- A borrower returns a connection. -/
def giveBack (now : Nat) (t : Ticket) (link : Link) (healthy : Bool) (p : Pool) : Reaction :=
  let p := p.takeBack link
  if !healthy || p.closed then (p.discard link).andThen (endReturn t)
  else if p.tuning.testOnReturn then
    ⟨{ p with returns := putAt t link p.returns }, [.ping t link]⟩
  else (p.park now link).andThen (endReturn t)

/-- A returned connection answered its ping, or did not. -/
def returnPinged (now : Nat) (t : Ticket) (alive : Bool) (p : Pool) : Reaction :=
  match find? t p.returns with
  | some link =>
    if alive then (p.park now link).andThen (endReturn t)
    else (p.reject link).andThen (endReturn t)
  | none => ⟨p, []⟩

/-- A borrower lets go of a connection without returning it. -/
def letGo (link : Link) (p : Pool) : Reaction := ((p.takeBack link).discard link).andThen release

end Shardway.Pool
