import Shardway.Pool.Fleet
import Shardway.Proofs.Pool.Actors

/-!
# Pools by address

What the moves of a fleet do to its registry and to its pools.
-/

namespace Shardway.Fleet

/-- Each registered pool is one of a node that has its address. -/
structure Tidy (nodes : List Node) (f : Fleet) : Prop where
  isOpen : f.closed = false
  nodup : (f.registered.map (·.1)).Nodup
  pool : ∀ a i, (a, i) ∈ f.registered → ∃ p, f.pools[i]? = some p ∧ p.addr = a ∧ p.node ∈ nodes

variable {nodes : List Node} {f : Fleet} {a : Address} {i : PoolId} {n : Node}

theorem mem_of_get? (h : f.get? a = some i) : (a, i) ∈ f.registered := by
  obtain ⟨⟨b, j⟩, hf, rfl⟩ := Option.map_eq_some_iff.mp h
  have hb : b = a := by simpa using List.find?_some hf
  exact hb ▸ List.mem_of_find?_eq_some hf

theorem notMem_of_get? (h : f.get? a = none) : a ∉ f.registered.map (·.1) := by
  intro hm
  obtain ⟨e, he, rfl⟩ := List.mem_map.mp hm
  have := List.find?_eq_none.mp (Option.map_eq_none_iff.mp h) e he
  simp at this

theorem get?_of_mem (h : (f.registered.map (·.1)).Nodup) (hm : (a, i) ∈ f.registered) :
    f.get? a = some i := by
  cases hg : f.get? a with
  | none => exact absurd (List.mem_map_of_mem hm) (notMem_of_get? hg)
  | some j =>
      have hj := mem_of_get? hg
      have := List.inj_on_of_nodup_map h hm hj rfl
      cases this
      rfl

theorem Tidy.get?_eq (h : f.Tidy nodes) (hm : (a, i) ∈ f.registered) : f.get? a = some i :=
  get?_of_mem h.nodup hm

theorem mem_addresses : a ∈ f.addresses ↔ ∃ i, (a, i) ∈ f.registered := by
  simp [addresses]

/-- The fleet gains new pools, and registers them for some of these addresses. -/
structure Gains (addrs : List Address) (f g : Fleet) : Prop where
  kept : f.registered ⊆ g.registered
  gained : ∀ a i, (a, i) ∈ g.registered → (a, i) ∈ f.registered ∨ a ∈ addrs
  tuning : g.tuning = f.tuning
  pools : ∃ nodes : List Node, g.pools = f.pools ++ nodes.map (Pool.ofNode · f.tuning)

theorem nodup_openPool (h : (f.registered.map (·.1)).Nodup) (hg : f.get? n.addr = none) :
    ((f.openPool n).state.registered.map (·.1)).Nodup := by
  simp only [Fleet.openPool, List.map_append, List.map_cons, List.map_nil]
  rw [← List.concat_eq_append]
  exact h.concat (notMem_of_get? hg)

theorem nodup_retainOnly (h : (f.registered.map (·.1)).Nodup) (keep : List Address) :
    ((f.retainOnly keep).registered.map (·.1)).Nodup :=
  (List.filter_sublist.map _).nodup h

theorem Tidy.openPool (h : f.Tidy nodes) (hn : n ∈ nodes) (hg : f.get? n.addr = none) :
    (f.openPool n).state.Tidy nodes where
  isOpen := h.isOpen
  nodup := nodup_openPool h.nodup hg
  pool := fun a i hm => by
    rcases List.mem_append.mp hm with hm | hm
    · obtain ⟨p, hp, hr⟩ := h.pool a i hm
      exact ⟨p, List.getElem?_append_left (List.getElem?_eq_some_iff.mp hp).1 ▸ hp, hr⟩
    · cases List.mem_singleton.mp hm
      exact ⟨.ofNode n f.tuning, by simp [Fleet.openPool], rfl, hn⟩

theorem Gains.refl {as : List Address} : Gains as f f :=
  ⟨List.Subset.refl _, fun _ _ => .inl, rfl, [], by simp⟩

theorem gains_openPool : Gains [n.addr] f (f.openPool n).state where
  kept := by simp [openPool]
  gained := fun a i hm => by
    refine (List.mem_append.mp hm).imp id fun hm => ?_
    cases List.mem_singleton.mp hm
    exact List.mem_singleton_self _
  tuning := rfl
  pools := ⟨[n], rfl⟩

theorem get?_openPool_of_ne (h : a ≠ n.addr) : (f.openPool n).state.get? a = f.get? a := by
  simp [get?, openPool, List.find?_append, Ne.symm h]

theorem gains_getOrOpen {r : Reaction} (ho : f.getOrOpen n = .ok (i, r)) :
    Gains [n.addr] f r.state := by
  unfold getOrOpen at ho
  split at ho
  · cases ho
  · split at ho
    · cases ho
      exact .refl
    · cases ho
      exact gains_openPool

theorem Tidy.getOrOpen {r : Reaction} (h : f.Tidy nodes) (hn : n ∈ nodes)
    (ho : f.getOrOpen n = .ok (i, r)) :
    r.state.Tidy nodes ∧ (n.addr, i) ∈ r.state.registered := by
  unfold Fleet.getOrOpen at ho
  split at ho
  · cases ho
  · split at ho
    · rename_i hg
      cases ho
      exact ⟨h, mem_of_get? hg⟩
    · rename_i hg
      cases ho
      exact ⟨h.openPool hn hg, by simp [Fleet.openPool]⟩

theorem Tidy.retainOnly (h : f.Tidy nodes) (keep : List Address) : (f.retainOnly keep).Tidy nodes where
  isOpen := h.isOpen
  nodup := nodup_retainOnly h.nodup keep
  pool := fun a i hm => h.pool a i (List.mem_filter.mp hm).1

/-- A move of one pool leaves every pool where it was, with its node. -/
theorem exists_pool_step {p : Pool} (now : Nat) (j : PoolId) (m : Pool.Move)
    (hp : f.pools[i]? = some p) :
    ∃ q, (f.step now j m).state.pools[i]? = some q ∧ q.node = p.node := by
  unfold Fleet.step
  split
  · exact ⟨p, hp, rfl⟩
  · rename_i q hq
    by_cases hij : j = i
    · subst hij
      cases hq.symm.trans hp
      exact ⟨_, List.getElem?_set_self (List.getElem?_eq_some_iff.mp hq).1, (p.step_frame now m).1⟩
    · exact ⟨p, (List.getElem?_set_ne hij).trans hp, rfl⟩

theorem step_registered (now : Nat) (j : PoolId) (m : Pool.Move) (f : Fleet) :
    (f.step now j m).state.registered = f.registered := by
  unfold Fleet.step
  split <;> rfl

theorem step_closed (now : Nat) (j : PoolId) (m : Pool.Move) (f : Fleet) :
    (f.step now j m).state.closed = f.closed := by
  unfold Fleet.step
  split <;> rfl

theorem Tidy.step (h : f.Tidy nodes) (now : Nat) (j : PoolId) (m : Pool.Move) :
    (f.step now j m).state.Tidy nodes where
  isOpen := (step_closed now j m f).trans h.isOpen
  nodup := (step_registered now j m f).symm ▸ h.nodup
  pool := fun a i hi => by
    obtain ⟨p, hp, ha, hx⟩ := h.pool a i (step_registered now j m f ▸ hi)
    obtain ⟨q, hq, hn⟩ := exists_pool_step now j m hp
    refine ⟨q, hq, ?_, hn ▸ hx⟩
    rw [Pool.addr, hn]
    exact ha

theorem Gains.trans {as bs : List Address} {g g' : Fleet} (h : Gains as f g) (h' : Gains bs g g') :
    Gains (as ++ bs) f g' where
  kept := List.Subset.trans h.kept h'.kept
  gained := fun a i hm => by
    rcases h'.gained a i hm with hm | hm
    · exact (h.gained a i hm).imp id (List.mem_append_left _)
    · exact .inr (List.mem_append_right _ hm)
  tuning := h'.tuning.trans h.tuning
  pools := by
    obtain ⟨ns, hn⟩ := h.pools
    obtain ⟨ns', hn'⟩ := h'.pools
    exact ⟨ns ++ ns', by simp [hn', hn, h.tuning]⟩

/-- None of the pools, registered or not, was shut down. -/
def AllOpen (f : Fleet) : Prop := ∀ p ∈ f.pools, p.closed = false

theorem AllOpen.gains {g : Fleet} {ns : List Node} (h : f.AllOpen)
    (hn : g.pools = f.pools ++ ns.map (Pool.ofNode · f.tuning)) : g.AllOpen := by
  intro p hp
  rw [hn] at hp
  rcases List.mem_append.mp hp with hp | hp
  · exact h p hp
  · obtain ⟨n, -, rfl⟩ := List.mem_map.mp hp
    rfl

theorem AllOpen.step (h : f.AllOpen) (now : Nat) (j : PoolId) {m : Pool.Move}
    (hm : m ≠ .shutdown) : (f.step now j m).state.AllOpen := by
  unfold Fleet.step
  split
  · exact h
  · rename_i q hq
    intro p hp
    rcases List.mem_or_eq_of_mem_set hp with hp | rfl
    · exact h p hp
    · exact ((q.step_frame now m).2.2 hm).trans (h q (List.mem_of_getElem? hq))

end Shardway.Fleet
