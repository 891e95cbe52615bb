import Shardway.Router.Basic

/-!
Custody: who holds the pools of a router. A pool is there as long as somebody holds it: by name,
through an index, through the router, or for work that it does. Once nobody does, its idle
connections are closed.
-/
namespace Shardway

/-- The index leads to the pool. -/
def Index.LeadsTo (x : Index) (i : PoolId) : Prop := ∃ slot ∈ x.slots, slot.pool = some i

instance (x : Index) (i : PoolId) : Decidable (x.LeadsTo i) :=
  inferInstanceAs (Decidable (∃ slot ∈ x.slots, slot.pool = some i))

/-- The pool is registered, or the current index leads to it. -/
def Router.Keeps (r : Router) (i : PoolId) : Prop :=
  i ∈ r.fleet.registered.map (·.2) ∨ r.current.LeadsTo i

instance (r : Router) (i : PoolId) : Decidable (r.Keeps i) :=
  inferInstanceAs (Decidable (i ∈ r.fleet.registered.map (·.2) ∨ r.current.LeadsTo i))

/-- A connection of the pool is lent, or an operation on it is in progress. -/
def Pool.AtWork (p : Pool) : Prop :=
  p.lent ≠ [] ∨ p.borrows ≠ [] ∨ p.returns ≠ [] ∨ p.sweeps ≠ []

instance (p : Pool) : Decidable p.AtWork :=
  inferInstanceAs (Decidable (p.lent ≠ [] ∨ p.borrows ≠ [] ∨ p.returns ≠ [] ∨ p.sweeps ≠ []))

structure Custody where
  /-- Whether somebody holds the router. -/
  router : Bool := true
  /-- The pools that somebody holds by name. -/
  pools : List PoolId := []
  /-- The older indexes that somebody holds. -/
  indexes : List Index := []
  /-- The pools that nobody holds any more. -/
  gone : List PoolId := []

namespace Custody

/-- The router is still there: somebody holds it, or a refresh of it is in progress. -/
def HasRouter (k : Custody) (r : Router) : Prop := k.router = true ∨ r.refreshes ≠ []

instance (k : Custody) (r : Router) : Decidable (k.HasRouter r) :=
  inferInstanceAs (Decidable (k.router = true ∨ r.refreshes ≠ []))

/-- Somebody holds the pool. -/
def Holds (k : Custody) (r : Router) (i : PoolId) (p : Pool) : Prop :=
  i ∈ k.pools ∨ (∃ x ∈ k.indexes, x.LeadsTo i) ∨ (k.HasRouter r ∧ r.Keeps i) ∨ p.AtWork

instance (k : Custody) (r : Router) (i : PoolId) (p : Pool) : Decidable (k.Holds r i p) :=
  inferInstanceAs (Decidable (i ∈ k.pools ∨ (∃ x ∈ k.indexes, x.LeadsTo i) ∨
    (k.HasRouter r ∧ r.Keeps i) ∨ p.AtWork))

/-- The pools that nobody holds, of those that are still there. -/
def unheld (k : Custody) (r : Router) : List (Pool × PoolId) :=
  r.fleet.pools.zipIdx.filter fun (p, i) => i ∉ k.gone ∧ ¬k.Holds r i p

/-- Lets every pool go that nobody holds. Nobody looks at what is left of it. -/
def release (k : Custody) (r : Router) : Reaction Effect Custody :=
  ⟨{ k with gone := k.gone ++ (k.unheld r).map (·.2) },
    (k.unheld r).flatMap fun (p, i) => p.idle.map fun e => .pool i (.close e.link)⟩

end Custody
end Shardway
