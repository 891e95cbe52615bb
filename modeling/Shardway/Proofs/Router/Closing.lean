import Shardway.Proofs.Router.Registry

/-!
# Closed routers

A router that is shut down shuts down all pools that are registered, and registers none any more. No
later move opens a pool, or changes the index.
-/

namespace Shardway

/-! ## Pools -/

namespace Fleet

/-- The pool of this number was shut down. -/
def IsShutAt (i : PoolId) (f : Fleet) : Prop := ∃ p, f.pools[i]? = some p ∧ p.closed = true

/-- No pool was opened or registered, and none that was shut down is open again. -/
structure Rests (f g : Fleet) : Prop where
  registered : g.registered = f.registered
  closed : g.closed = f.closed
  nodes : g.pools.map (·.node) = f.pools.map (·.node)
  shut : ∀ i, f.IsShutAt i → g.IsShutAt i

variable {f g : Fleet} {i : PoolId} {now : Nat}

theorem Rests.refl : Rests f f := ⟨rfl, rfl, rfl, fun _ h => h⟩

theorem Rests.trans {g' : Fleet} (h : Rests f g) (h' : Rests g g') : Rests f g' where
  registered := h'.registered.trans h.registered
  closed := h'.closed.trans h.closed
  nodes := h'.nodes.trans h.nodes
  shut := fun i hi => h'.shut i (h.shut i hi)

theorem closed_step {p : Pool} (m : Pool.Move) (h : p.closed = true) :
    (p.step now m).state.closed = true := by
  by_cases hm : m = .shutdown
  · rw [hm, Pool.step, Pool.shutdown, if_pos h]
    exact h
  · rw [(p.step_frame now m).2.2 hm]
    exact h

theorem rests_step (f : Fleet) (now : Nat) (j : PoolId) (m : Pool.Move) :
    Rests f (f.step now j m).state where
  registered := step_registered now j m f
  closed := step_closed now j m f
  nodes := by
    unfold Fleet.step
    split
    · rfl
    · rename_i p hp
      obtain ⟨hj, rfl⟩ := List.getElem?_eq_some_iff.mp hp
      have hk : j < (f.pools.map (·.node)).length := by simpa using hj
      have hn : f.pools[j].node = (f.pools.map (·.node))[j] := by simp
      rw [Reaction.lift_state, List.map_set, (Pool.step_frame _ now m).1, hn,
        List.set_getElem_self]
  shut := fun i ⟨p, hp, hc⟩ => by
    unfold Fleet.step
    split
    · exact ⟨p, hp, hc⟩
    · rename_i q hq
      by_cases hij : j = i
      · subst hij
        cases hp.symm.trans hq
        exact ⟨_, List.getElem?_set_self (List.getElem?_eq_some_iff.mp hp).1, closed_step m hc⟩
      · exact ⟨p, (List.getElem?_set_ne hij).trans hp, hc⟩

theorem rests_shutdownEach (f : Fleet) (now : Nat) (ids : List PoolId) :
    Rests f (f.shutdownEach now ids).state := by
  induction ids generalizing f with
  | nil => exact .refl
  | cons j ids ih => exact (f.rests_step now j .shutdown).trans (ih _)

theorem rests_shutdownAll (f : Fleet) (now : Nat) :
    Rests { f with registered := [], closed := true } (f.shutdownAll now).state :=
  rests_shutdownEach _ now _

theorem isShutAt_step {p : Pool} (hp : f.pools[i]? = some p) :
    (f.step now i .shutdown).state.IsShutAt i := by
  refine ⟨p.shutdown.state, ?_, ?_⟩
  · unfold Fleet.step
    rw [hp]
    exact List.getElem?_set_self (List.getElem?_eq_some_iff.mp hp).1
  · unfold Pool.shutdown
    split
    · assumption
    · rfl

theorem isShutAt_shutdownEach {ids : List PoolId} {p : Pool} (hi : i ∈ ids)
    (hp : f.pools[i]? = some p) : (f.shutdownEach now ids).state.IsShutAt i := by
  induction ids generalizing f p with
  | nil => cases hi
  | cons j ids ih =>
      by_cases hij : i = j
      · subst hij
        exact (rests_shutdownEach _ now ids).shut i (isShutAt_step hp)
      · obtain ⟨q, hq, -⟩ := exists_pool_step now j .shutdown hp
        exact ih ((List.mem_cons.mp hi).resolve_left hij) hq

end Fleet

/-! ## Routers -/

namespace Router

/-- The router was shut down, and its registry with it. -/
structure IsShut (r : Router) : Prop where
  closed : r.closed = true
  fleet : r.fleet.closed = true
  registered : r.fleet.registered = []

/-- What the moves of a closed router leave as it is. -/
structure Rests (r q : Router) : Prop where
  closed : q.closed = r.closed
  fleet : r.fleet.Rests q.fleet
  current : q.current = r.current
  generation : q.generation = r.generation

/-- What has become of the router `r` after its shutdown. -/
structure ClosedDown (r q : Router) : Prop where
  /-- Every pool that was registered is shut down. -/
  shut : ∀ a i, (a, i) ∈ r.fleet.registered → q.fleet.IsShutAt i
  registered : q.fleet.registered = []
  /-- No pool was opened. -/
  pools : q.fleet.pools.map (·.node) = r.fleet.pools.map (·.node)
  current : q.current = r.current
  generation : q.generation = r.generation
  route : ∀ key, q.route key = .error .shutdown
  refresh : ∀ now t, q.step now (.refresh t) = ⟨q, [.refreshed t (.error .shutdown)]⟩

variable {config : Config.Cluster} {r r' : Router} {resolved : List ResolvedGroup} {now : Nat}

theorem Rests.refl : Rests r r := ⟨rfl, .refl, rfl, rfl⟩

theorem Rests.trans {q : Router} (h : Rests r r') (h' : Rests r' q) : Rests r q where
  closed := h'.closed.trans h.closed
  fleet := h.fleet.trans h'.fleet
  current := h'.current.trans h.current
  generation := h'.generation.trans h.generation

theorem Rests.isShut (h : Rests r r') (hr : r.IsShut) : r'.IsShut where
  closed := h.closed.trans hr.closed
  fleet := h.fleet.closed.trans hr.fleet
  registered := h.fleet.registered.trans hr.registered

theorem install_of_closed (h : r.closed = true) :
    r.install resolved = (.error .shutdown, ⟨r, []⟩) := by
  simp [Router.install, h]

theorem route_of_closed (h : r.closed = true) (key : Bytes) : r.route key = .error .shutdown := by
  simp [route, h]

theorem refresh_of_closed (h : r.closed = true) (t : Ticket) :
    r.refresh t = ⟨r, [.refreshed t (.error .shutdown)]⟩ := by
  simp [Router.refresh, h]

theorem Update.rests (h : Update r r') (hc : r.closed = true) : Rests r r' := by
  cases h with
  | refreshes _ => exact ⟨rfl, .refl, rfl, rfl⟩
  | install _ _ =>
      rw [install_of_closed hc]
      exact .refl

theorem Updates.rests (h : Updates r r') (hc : r.closed = true) : Rests r r' := by
  induction h with
  | refl => exact .refl
  | tail _ hu ih => exact ih.trans (hu.rests (ih.closed.trans hc))

theorem Reachable.rests_step (h : Reachable config r) (hc : r.closed = true) (now : Nat)
    (m : Move) : Rests r (r.step now m).state := by
  rcases h.running.step now m with hu | rfl | ⟨i, m, rfl⟩
  · exact hu.rests hc
  · have hs : r.shutdown now = ⟨r, []⟩ := by simp [Router.shutdown, hc]
    rw [Router.step, hs]
    exact .refl
  · exact ⟨rfl, r.fleet.rests_step now i m, rfl, rfl⟩

theorem isShut_shutdown (h : r.closed = true → r.IsShut) : (r.shutdown now).state.IsShut := by
  unfold Router.shutdown
  split
  · exact h ‹_›
  · have hr := r.fleet.rests_shutdownAll now
    exact ⟨rfl, hr.closed, hr.registered⟩

theorem Reachable.isShut (h : Reachable config r) (hc : r.closed = true) : r.IsShut := by
  induction h with
  | launch _ _ _ hs => exact absurd (hc.symm.trans (allOpen_ofResolved hs).1) (by simp)
  | @step r now m hr ih =>
      by_cases ho : r.closed = true
      · exact (hr.rests_step ho now m).isShut (ih ho)
      · rcases hr.running.step now m with hu | rfl | ⟨i, m, rfl⟩
        · exact absurd (hu.closed_eq.symm.trans hc) ho
        · exact isShut_shutdown ih
        · exact absurd hc ho

theorem isShutAt_shutdown {a : Address} {i : PoolId} (h : Reachable config r)
    (hm : (a, i) ∈ r.fleet.registered) : (r.shutdown now).state.fleet.IsShutAt i := by
  unfold Router.shutdown
  split
  · rename_i hc
    rw [(h.isShut hc).registered] at hm
    cases hm
  · rename_i hc
    obtain ⟨p, hp, -⟩ := (h.aligned (by simpa using hc)).tidy.pool a i hm
    exact Fleet.isShutAt_shutdownEach (List.mem_map_of_mem hm) hp

theorem shutdown_frame (r : Router) (now : Nat) :
    (r.shutdown now).state.current = r.current ∧
      (r.shutdown now).state.generation = r.generation ∧
      (r.shutdown now).state.fleet.pools.map (·.node) = r.fleet.pools.map (·.node) := by
  unfold Router.shutdown
  split
  · exact ⟨rfl, rfl, rfl⟩
  · exact ⟨rfl, rfl, (r.fleet.rests_shutdownAll now).nodes⟩

theorem Reachable.closedDown (h : Reachable config r) (hr : Rests (r.shutdown now).state r') :
    ClosedDown r r' := by
  obtain ⟨hc, hg, hp⟩ := r.shutdown_frame now
  have hs := hr.isShut (isShut_shutdown h.isShut)
  exact {
    shut := fun a i hm => hr.fleet.shut i (isShutAt_shutdown h hm)
    registered := hs.registered
    pools := hr.fleet.nodes.trans hp
    current := hr.current.trans hc
    generation := hr.generation.trans hg
    route := route_of_closed hs.closed
    refresh := fun _ t => refresh_of_closed hs.closed t }

end Router

end Shardway
