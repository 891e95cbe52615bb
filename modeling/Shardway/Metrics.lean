import Shardway.Document.Basic

/-!
Counters and gauges of 64 bits, and the ones that a connection pool keeps.
-/
namespace Shardway

/-- A number that only grows, and starts again at zero after the largest 64-bit number. -/
structure Counter where
  value : UInt64 := 0
deriving DecidableEq, Repr, Inhabited

namespace Counter

def add (c : Counter) (n : UInt64) : Counter := ⟨c.value + n⟩

def increment (c : Counter) : Counter := c.add 1

end Counter

/-- A number that follows a current value. -/
structure Gauge where
  value : UInt64 := 0
deriving DecidableEq, Repr, Inhabited

namespace Gauge

def set (_ : Gauge) (n : UInt64) : Gauge := ⟨n⟩

def increment (g : Gauge) : Gauge := ⟨g.value + 1⟩

/-- One less, but never below zero. -/
def decrement (g : Gauge) : Gauge := ⟨if g.value = 0 then 0 else g.value - 1⟩

end Gauge

/-- What a pool counts. -/
structure Metrics where
  created : Counter := {}
  closed : Counter := {}
  borrows : Counter := {}
  borrowFailures : Counter := {}
  validationFailures : Counter := {}
  evictions : Counter := {}
  active : Gauge := {}
  idle : Gauge := {}
deriving DecidableEq, Repr, Inhabited

def Metrics.document (m : Metrics) : Document :=
  .object [("connections_created", .nat m.created.value.toNat),
    ("connections_closed", .nat m.closed.value.toNat), ("borrows", .nat m.borrows.value.toNat),
    ("borrow_failures", .nat m.borrowFailures.value.toNat),
    ("validation_failures", .nat m.validationFailures.value.toNat),
    ("evictions", .nat m.evictions.value.toNat), ("active", .nat m.active.value.toNat),
    ("idle", .nat m.idle.value.toNat)]

end Shardway
