import Shardway.Proofs.Router.Registry

/-!
# Where keys lead

As long as a router is not shut down, every key leads to the pool of the elected master of its
group, or to the fault that names the group, if that has no master.
-/

namespace Shardway

namespace Index

theorem mem_of_slotAt? {x : Index} {h : UInt64} {slot : Slot} (hs : x.slotAt? h = some slot) :
    slot ∈ x.slots := by
  unfold slotAt? at hs
  split at hs
  · obtain ⟨i, -, hi⟩ := Option.bind_eq_some_iff.mp hs
    exact List.mem_of_getElem? hi
  · obtain ⟨g, -, hg⟩ := Option.bind_eq_some_iff.mp hs
    exact List.mem_of_find?_eq_some hg

end Index

namespace Router

/-- By this index the key leads to a pool of the elected master of the group that owns it. No other
member of any group has the master's address. -/
structure Chosen (config : Config.Cluster) (pools : List Pool) (index : Index) (key : Bytes)
    (i : PoolId) (m : Node) : Prop where
  slot : ∃ slot, index.slotFor? key = some slot ∧ slot.group.master = some m ∧ slot.pool = some i ∧
    slot.group.id = m.group
  owner : ownerOf config.routing (groupIds config) (keyHash key) = some m.group
  pool : ∃ p, pools[i]? = some p ∧ p.addr = m.addr
  standby : ∀ g ∈ index.groups, ∀ n ∈ g.replicas ++ g.unreachable, n.addr ≠ m.addr
  rivals : ∀ g ∈ index.groups, g.masterAddr? = some m.addr → g.id = m.group

variable {config : Config.Cluster} {r : Router} {slot : Slot} {m : Node} {key : Bytes}

theorem Chosen.mono {pools pools' : List Pool} {index : Index} {i : PoolId}
    (h : Chosen config pools index key i m)
    (hp : ∀ (i : PoolId) (p : Pool), pools[i]? = some p →
      ∃ q, pools'[i]? = some q ∧ q.addr = p.addr) : Chosen config pools' index key i m := by
  obtain ⟨p, hi, ha⟩ := h.pool
  obtain ⟨q, hq, hqa⟩ := hp i p hi
  exact { h with pool := ⟨q, hq, hqa.trans ha⟩ }

/-- Every key has a slot, which is that of its owner. -/
theorem Steady.exists_slot (h : r.Steady config) (hc : config.check = .ok ()) (key : Bytes) :
    ∃ slot ∈ r.current.slots, r.current.slotFor? key = some slot ∧
      ownerOf config.routing (groupIds config) (keyHash key) = some slot.group.id := by
  obtain ⟨hn, hv⟩ := usable_of_check hc
  obtain ⟨g, hg⟩ := Option.isSome_iff_exists.mp (ownerOf_isSome (h := keyHash key) hn hv)
  have hs := h.current.map_slotAt? (h := keyHash key)
  rw [hg] at hs
  obtain ⟨slot, hslot, rfl⟩ := Option.map_eq_some_iff.mp hs
  exact ⟨slot, Index.mem_of_slotAt? hslot, hslot, hg⟩

theorem Steady.slot_unique {slot' : Slot} (h : r.Steady config) (hm : slot ∈ r.current.slots)
    (hm' : slot' ∈ r.current.slots) (hg : slot.group.id = slot'.group.id) : slot = slot' := by
  have hi : (Index.ids r.current.slots).Nodup :=
    nodup_of_pairwise_lt (h.current.slots ▸ ReplicaSet.pairwise_ofNodes _)
  exact List.inj_on_of_nodup_map hi hm hm' hg

/-- In its own group or in another one, nobody beside the master has its address. -/
theorem Aligned.standby_ne (h : r.Aligned config) (hs : r.Steady config)
    (hc : config.check = .ok ()) (hm : slot ∈ r.current.slots) (hg : slot.group.master = some m) :
    ∀ g ∈ r.current.groups, ∀ n ∈ g.replicas ++ g.unreachable, n.addr ≠ m.addr := by
  intro g hgr n hn ha
  obtain ⟨slot', hm', rfl⟩ := List.mem_map.mp hgr
  obtain ⟨hmn, hmg⟩ := mem_nodeList_of_isElected (hs.sets ▸ h.elected slot hm) hg
  obtain ⟨set, hset, roles, he⟩ := hs.sets ▸ h.elected slot' hm'
  rw [he] at hn
  obtain ⟨hns, hne⟩ := standby_elect hn
  obtain ⟨hnn, hng⟩ := ReplicaSet.areOf_ofNodes _ set hset n hns
  -- A node with the same address is in the same group, so the slots are the same.
  have hid : slot.group.id = slot'.group.id := by
    rw [← hmg, ← Config.group_eq_of_addr_eq hc hnn hmn ha, hng, he]
    rfl
  have hss := hs.slot_unique hm hm' hid
  subst hss
  exact hne m (he ▸ hg) ha

theorem Aligned.chosen (h : r.Aligned config) (hs : r.Steady config) (hc : config.check = .ok ())
    (hslot : r.current.slotFor? key = some slot) (hg : slot.group.master = some m) :
    ∃ i, slot.pool = some i ∧ Chosen config r.fleet.pools r.current key i m := by
  have hm : slot ∈ r.current.slots := Index.mem_of_slotAt? hslot
  obtain ⟨i, p, hi, -, hp, ha, -⟩ := h.pool_of_master hs hc hm hg
  obtain ⟨hmn, hmg⟩ := mem_nodeList_of_isElected (hs.sets ▸ h.elected slot hm) hg
  have ho := hs.current.map_slotAt? (h := keyHash key)
  have hslot' : r.current.slotAt? (keyHash key) = some slot := hslot
  rw [hslot', Option.map_some] at ho
  refine ⟨i, hi, ⟨slot, hslot, hg, hi, hmg.symm⟩, hmg ▸ ho.symm, ⟨p, hp, ha⟩,
    h.standby_ne hs hc hm hg, fun g hgr hga => ?_⟩
  obtain ⟨slot', hm', rfl⟩ := List.mem_map.mp hgr
  obtain ⟨m', hg', ha'⟩ := Option.map_eq_some_iff.mp hga
  obtain ⟨hmn', hmg'⟩ := mem_nodeList_of_isElected (hs.sets ▸ h.elected slot' hm') hg'
  rw [← hmg']
  exact Config.group_eq_of_addr_eq hc hmn' hmn ha'

theorem route_of_slot (ho : r.closed = false) (hs : r.current.slotFor? key = some slot) :
    r.route key = match slot.pool with
      | none => .error (.noMaster slot.group.id)
      | some i => .ok i := by
  have hs : r.current.slotAt? (keyHash key) = some slot := hs
  cases hp : slot.pool <;> simp [route, ho, Index.route, Index.routeAt, hs, hp]

/-- Every key leads to the pool of the master of its group, or to the fault that names the group. -/
theorem Aligned.route (h : r.Aligned config) (hs : r.Steady config) (hc : config.check = .ok ())
    (key : Bytes) :
    ∃ slot ∈ r.current.slots, r.current.slotFor? key = some slot ∧
      ownerOf config.routing (groupIds config) (keyHash key) = some slot.group.id ∧
      ((slot.group.master = none ∧ r.route key = .error (.noMaster slot.group.id)) ∨
        ∃ m i, slot.group.master = some m ∧ r.route key = .ok i ∧
          Chosen config r.fleet.pools r.current key i m) := by
  obtain ⟨slot, hm, hslot, ho⟩ := hs.exists_slot hc key
  refine ⟨slot, hm, hslot, ho, ?_⟩
  rw [route_of_slot h.isOpen hslot]
  cases hg : slot.group.master with
  | none =>
      have hp := h.isSome_pool hm
      rw [ResolvedGroup.hasMaster, hg] at hp
      have hn : slot.pool = none := by simpa using hp
      exact .inl ⟨rfl, by rw [hn]⟩
  | some m =>
      obtain ⟨i, hi, hch⟩ := h.chosen hs hc hslot hg
      exact .inr ⟨m, i, rfl, by rw [hi], hch⟩

theorem Reachable.chosen_of_route {i : PoolId} (h : Reachable config r)
    (hr : r.route key = .ok i) : ∃ m, Chosen config r.fleet.pools r.current key i m := by
  have ho : r.closed = false := by
    cases hc : r.closed with
    | false => rfl
    | true => simp [Router.route, hc] at hr
  obtain ⟨slot, -, -, -, ⟨-, he⟩ | ⟨m, j, -, hj, hc⟩⟩ := (h.aligned ho).route h.steady h.check key
  · cases hr.symm.trans he
  · cases hr.symm.trans hj
    exact ⟨m, hc⟩

end Router

end Shardway
