import Shardway.Proofs.Router.Updates

/-!
# The tuning of pools

Every pool of a router has been opened with the tuning of the router's configuration, and keeps it.
-/

namespace Shardway

namespace Fleet

/-- All pools have this tuning, and so have those that are still to be opened. -/
structure Tuned (t : Config.PoolTuning) (f : Fleet) : Prop where
  tuning : f.tuning = t
  pools : ∀ p ∈ f.pools, p.tuning = t

variable {t : Config.PoolTuning} {f f' : Fleet}

theorem Tuned.gains (h : f.Tuned t) (ht : f'.tuning = f.tuning) {nodes : List Node}
    (hp : f'.pools = f.pools ++ nodes.map (Pool.ofNode · f.tuning)) : f'.Tuned t := by
  refine ⟨ht.trans h.tuning, fun p hm => ?_⟩
  rw [hp] at hm
  rcases List.mem_append.mp hm with hm | hm
  · exact h.pools p hm
  · obtain ⟨n, -, rfl⟩ := List.mem_map.mp hm
    exact h.tuning

theorem Tuned.set {p : Pool} (h : f.Tuned t) (i : PoolId) (hp : p.tuning = t) :
    ({ f with pools := f.pools.set i p } : Fleet).Tuned t := by
  refine ⟨h.tuning, fun q hm => ?_⟩
  rcases List.mem_or_eq_of_mem_set hm with hm | rfl
  · exact h.pools q hm
  · exact hp

theorem Tuned.step (h : f.Tuned t) (now : Nat) (i : PoolId) (m : Pool.Move) :
    (f.step now i m).state.Tuned t := by
  unfold Fleet.step
  split
  · exact h
  · rename_i p hp
    refine h.set i ?_
    rw [(p.step_frame now m).2.1]
    exact h.pools p (List.mem_of_getElem? hp)

theorem Tuned.shutdownEach (now : Nat) (ids : List PoolId) (h : f.Tuned t) :
    (f.shutdownEach now ids).state.Tuned t := by
  induction ids generalizing f with
  | nil => exact h
  | cons i ids ih => exact ih (h.step now i .shutdown)

end Fleet

namespace Router

variable {config : Config.Cluster} {r : Router} {resolved : List ResolvedGroup}

theorem tuned_ofResolved {background : Bool} {started : Router} {told : List Effect}
    (h : ofResolved config background resolved = (.ok started, told)) :
    started.fleet.Tuned config.pool := by
  obtain ⟨slots, opened, x, hs, -, rfl, -⟩ := ofResolved_eq_ok h
  have hg := gains_seat hs
  obtain ⟨nodes, hp⟩ := hg.pools
  have ht : ({ tuning := config.pool, background } : Fleet).Tuned config.pool :=
    ⟨rfl, fun p hm => absurd hm List.not_mem_nil⟩
  exact ht.gains hg.tuning hp

theorem Reachable.tuned (h : Reachable config r) : r.fleet.Tuned config.pool := by
  induction h with
  | launch _ _ _ hs => exact tuned_ofResolved hs
  | @step r now m hr ih =>
      rcases hr.running.step now m with hu | rfl | ⟨i, m, rfl⟩
      · obtain ⟨nodes, hp, ht⟩ := hu.gains
        exact ih.gains ht hp
      · unfold Router.step Router.shutdown
        dsimp only
        split
        · exact ih
        · exact Fleet.Tuned.shutdownEach now _ ⟨ih.tuning, ih.pools⟩
      · exact ih.step now i m

end Router

end Shardway
