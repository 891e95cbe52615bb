import Shardway.Proofs.Pool.Ledger
import Shardway.Proofs.Pool.Tickets

/-!
# The account of a pool

`Pool.ledger` reads a pool as an account: each operation in progress that holds a permit is a hand,
and so is each borrower with a connection. In a `Coherent` pool the hand of an operation can be
singled out by its ticket.
-/

namespace Shardway

/-- What a borrower that waits has in hand. One in the queue has no permit, hence no hand. -/
def BorrowStage.hand? : BorrowStage → Option Pool.Hand
  | .queued => none
  | .granted => some .empty
  | .pinging link => some (.holds link)
  | .connecting => some .dialing

@[simp] theorem BorrowStage.hand?_queued : queued.hand? = none := rfl

@[simp] theorem BorrowStage.hand?_granted : granted.hand? = some .empty := rfl

@[simp] theorem BorrowStage.hand?_pinging (link : Link) :
    (pinging link).hand? = some (.holds link) := rfl

@[simp] theorem BorrowStage.hand?_connecting : connecting.hand? = some .dialing := rfl

/-- What an eviction pass that waits has in hand. -/
def SweepStage.hand : SweepStage → Pool.Hand
  | .pinging e .. => .holds e.link
  | .connecting _ => .dialing

@[simp] theorem SweepStage.hand_pinging (e : Parked) (left : Nat) (pass : Pass) :
    (pinging e left pass).hand = .holds e.link := rfl

@[simp] theorem SweepStage.hand_connecting (closed : Nat) : (connecting closed).hand = .dialing :=
  rfl

namespace Pool

/-! ## The account of a pool -/

def hands (p : Pool) : Multiset Hand :=
  ↑(p.lent.map Hand.lent) + ↑(p.borrows.filterMap (·.2.hand?)) +
    ↑(p.returns.map (Hand.holds ·.2)) + ↑(p.sweeps.map (·.2.hand))

@[simps]
def ledger (p : Pool) : Ledger where
  tuning := p.tuning
  free := p.free
  idle := p.idle
  hands := p.hands
  closed := p.closed
  metrics := p.metrics

/-- The pool without the return under this ticket. -/
def dropReturn (t : Ticket) (p : Pool) : Pool := { p with returns := without t p.returns }

/-- The pool without the eviction pass under this ticket. -/
def dropSweep (t : Ticket) (p : Pool) : Pool := { p with sweeps := without t p.sweeps }

/-- An eviction pass can only wait for the ping of `e`, with `left` more connections to examine,
when the tuning makes it ping. -/
structure Examined (now : Nat) (tuning : Config.PoolTuning) (e : Parked) (left : Nat) : Prop where
  testWhileIdle : tuning.testWhileIdle = true
  minEvictableIdleMs : 0 < tuning.minEvictableIdleMs
  left_lt : left < tuning.testsPerEviction
  since_le : e.since ≤ now

/-- No two operations of a kind share a ticket, and no connection has been idle since a time to
come. -/
structure Coherent (now : Nat) (p : Pool) : Prop where
  borrows : Distinct p.borrows
  returns : Distinct p.returns
  sweeps : Distinct p.sweeps
  since_le : ∀ e ∈ p.idle, e.since ≤ now
  examined : ∀ t e left pass, (t, .pinging e left pass) ∈ p.sweeps → Examined now p.tuning e left

variable {R : Nat → Parked → List Parked → Prop} {now : Nat} {p : Pool} {t : Ticket} {link : Link}

theorem Coherent.later {now' : Nat} (h : p.Coherent now) (hn : now ≤ now') : p.Coherent now' :=
  { h with
    since_le := fun e he => (h.since_le e he).trans hn
    examined := fun t e left pass hs =>
      let ⟨ht, hm, hl, he⟩ := h.examined t e left pass hs
      ⟨ht, hm, hl, he.trans hn⟩ }

theorem Coherent.setIdle {idle : List Parked} (h : p.Coherent now)
    (hi : ∀ e ∈ idle, e.since ≤ now) : (p.setIdle idle).Coherent now :=
  { h with since_le := hi }

theorem Coherent.leave (h : p.Coherent now) : (p.leave t).Coherent now :=
  { h with borrows := h.borrows.without }

theorem Coherent.await {s : BorrowStage} (h : p.Coherent now) : (p.await t s).Coherent now :=
  { h with borrows := h.borrows.putAt }

theorem Coherent.dropReturn (h : p.Coherent now) : (p.dropReturn t).Coherent now :=
  { h with returns := h.returns.without }

theorem Coherent.dropSweep (h : p.Coherent now) : (p.dropSweep t).Coherent now :=
  { h with
    sweeps := h.sweeps.without
    examined := fun u e left pass hs => h.examined u e left pass (List.mem_filter.mp hs).1 }

theorem Coherent.pause {s : SweepStage} (h : p.Coherent now)
    (hs : ∀ e left pass, s = .pinging e left pass → Examined now p.tuning e left) :
    (p.pause t s).Coherent now :=
  { h with
    sweeps := h.sweeps.putAt
    examined := fun u e left pass hu => by
      rcases mem_putAt hu with hu | hu
      · exact hs e left pass (Prod.mk.inj hu).2.symm
      · exact h.examined u e left pass hu }

/-! ## Operations as hands -/

/-- Where the rest of two accounts is the same, only the hands matter. -/
theorem ledger_eq_add {l : Ledger} {x : Multiset Hand}
    (hr : { l with hands := p.hands } = p.ledger) (hh : p.hands = x + l.hands) :
    p.ledger = l.add x := by
  rw [← hr, hh]
  rfl

theorem leave_eq_self (h : find? t p.borrows = none) : p.leave t = p := by
  rw [leave, without_of_find?_eq_none h]

theorem dropReturn_eq_self (h : find? t p.returns = none) : p.dropReturn t = p := by
  rw [dropReturn, without_of_find?_eq_none h]

theorem dropSweep_eq_self (h : find? t p.sweeps = none) : p.dropSweep t = p := by
  rw [dropSweep, without_of_find?_eq_none h]

theorem ledger_await (s : BorrowStage) :
    (p.await t s).ledger = (p.leave t).ledger.add ↑s.hand?.toList := by
  have : (p.await t s).hands = ↑s.hand?.toList + (p.leave t).hands := by
    simp only [hands, await, leave, putAt, List.filterMap_append, ← Multiset.coe_add]
    cases h : s.hand? <;> simp only [List.filterMap_cons, h, List.filterMap_nil, Option.toList_none,
      Option.toList_some, Multiset.coe_nil]
    all_goals abel
  exact ledger_eq_add rfl this

theorem ledger_putReturn :
    ({ p with returns := putAt t link p.returns } : Pool).ledger =
      (p.dropReturn t).ledger.add {.holds link} := by
  have : ({ p with returns := putAt t link p.returns } : Pool).hands =
      {.holds link} + (p.dropReturn t).hands := by
    simp only [hands, dropReturn, putAt, List.map_append, ← Multiset.coe_add,
      List.map_cons, List.map_nil, Multiset.coe_singleton]
    abel
  exact ledger_eq_add rfl this

theorem ledger_pause (s : SweepStage) :
    (p.pause t s).ledger = (p.dropSweep t).ledger.add {s.hand} := by
  have : (p.pause t s).hands = {s.hand} + (p.dropSweep t).hands := by
    simp only [hands, pause, dropSweep, putAt, List.map_append, ← Multiset.coe_add,
      List.map_cons, List.map_nil, Multiset.coe_singleton]
    abel
  exact ledger_eq_add rfl this

theorem Coherent.ledger_leave {s : BorrowStage} (h : p.Coherent now)
    (hs : find? t p.borrows = some s) : p.ledger = (p.leave t).ledger.add ↑s.hand?.toList := by
  have hp := (perm_without h.borrows hs).filterMap (·.2.hand?)
  have : p.hands = ↑s.hand?.toList + (p.leave t).hands := by
    simp only [hands, Pool.leave, Multiset.coe_eq_coe.mpr hp]
    cases h : s.hand? <;> simp only [List.filterMap_cons, h, Option.toList_none,
      Option.toList_some, Multiset.coe_nil, ← Multiset.cons_coe, ← Multiset.singleton_add]
    all_goals abel
  exact ledger_eq_add rfl this

theorem Coherent.ledger_dropReturn (h : p.Coherent now) (hs : find? t p.returns = some link) :
    p.ledger = (p.dropReturn t).ledger.add {.holds link} := by
  have hp := (perm_without h.returns hs).map (Hand.holds ·.2)
  have : p.hands = {.holds link} + (p.dropReturn t).hands := by
    simp only [hands, Pool.dropReturn, Multiset.coe_eq_coe.mpr hp, List.map_cons,
      ← Multiset.cons_coe, ← Multiset.singleton_add]
    abel
  exact ledger_eq_add rfl this

theorem Coherent.ledger_dropSweep {s : SweepStage} (h : p.Coherent now)
    (hs : find? t p.sweeps = some s) : p.ledger = (p.dropSweep t).ledger.add {s.hand} := by
  have hp := (perm_without h.sweeps hs).map (·.2.hand)
  have : p.hands = {s.hand} + (p.dropSweep t).hands := by
    simp only [hands, Pool.dropSweep, Multiset.coe_eq_coe.mpr hp, List.map_cons,
      ← Multiset.cons_coe, ← Multiset.singleton_add]
    abel
  exact ledger_eq_add rfl this

end Pool

end Shardway
