import Shardway.Proofs.Config.Owners
import Shardway.Proofs.Router.Updates
import Shardway.Proofs.Topology.Election

/-!
# The registry of pools

As long as a router is not shut down, its registry holds one pool for each master of its current
index and no other pool.
-/

namespace Shardway

/-! ## Slots -/

/-- The slot has the registered pool of its group's master, if there is a master. -/
def Slot.LeadsTo (registered : List (Address × PoolId)) (s : Slot) : Prop :=
  match s.group.master with
  | none => s.pool = none
  | some m => ∃ i, s.pool = some i ∧ (m.addr, i) ∈ registered

theorem Slot.LeadsTo.mono {registered registered' : List (Address × PoolId)} {s : Slot}
    (h : s.LeadsTo registered) (hm : ∀ m i, s.group.master = some m → (m.addr, i) ∈ registered →
      (m.addr, i) ∈ registered') : s.LeadsTo registered' := by
  unfold LeadsTo at h ⊢
  cases hg : s.group.master with
  | none => simpa [hg] using h
  | some m =>
      rw [hg] at h
      obtain ⟨i, hi, hr⟩ := h
      exact ⟨i, hi, hm m i hg hr⟩

theorem Index.slots_of_build {routing : Config.Routing} {generation : Nat} {slots : List Slot}
    {x : Index} (ha : (Index.ids slots).Pairwise (· < ·))
    (h : build keyHash routing generation slots = .ok x) : x.slots = slots := by
  obtain ⟨-, hs, -⟩ := parts_of_build h
  rw [hs, mergeSort_of_ascending ha]

theorem Index.generation_of_build {routing : Config.Routing} {generation : Nat} {slots : List Slot}
    {x : Index} (h : build keyHash routing generation slots = .ok x) :
    x.generation = generation := (parts_of_build h).1

theorem Index.mem_masterAddresses {x : Index} {a : Address} :
    a ∈ x.masterAddresses ↔ ∃ slot ∈ x.slots, ∃ m, slot.group.master = some m ∧ m.addr = a := by
  simp [masterAddresses, groups, ResolvedGroup.masterAddr?, List.mem_filterMap]

namespace Router

variable {config : Config.Cluster} {r r' : Router} {t : Ticket} {resolved : List ResolvedGroup}

theorem tidy_seat {nodes : List Node} {f : Fleet} {slots : List Slot} {opened : Fleet.Reaction}
    (h : f.Tidy nodes) (hm : ∀ g ∈ resolved, ∀ m, g.master = some m → m ∈ nodes)
    (hs : seat resolved f = (.ok slots, opened)) :
    opened.state.Tidy nodes ∧ ∀ slot ∈ slots, slot.LeadsTo opened.state.registered := by
  induction resolved generalizing f slots opened with
  | nil =>
      cases hs
      exact ⟨h, by simp⟩
  | cons g resolved ih =>
      have hr : ∀ g ∈ resolved, ∀ m, g.master = some m → m ∈ nodes := fun g hg =>
        hm g (List.mem_cons_of_mem _ hg)
      rcases seat_cons hs with ⟨_, hg, hs', rfl⟩ | ⟨m, _, _, _, _, hg, ho, hs', rfl, rfl⟩
      · obtain ⟨ht, hl⟩ := ih h hr hs'
        refine ⟨ht, fun slot hslot => ?_⟩
        rcases List.mem_cons.mp hslot with rfl | hslot
        · simp [Slot.LeadsTo, hg]
        · exact hl slot hslot
      · obtain ⟨hf, hi⟩ := h.getOrOpen (hm g List.mem_cons_self m hg) ho
        obtain ⟨ht, hl⟩ := ih hf hr hs'
        refine ⟨ht, fun slot hslot => ?_⟩
        rcases List.mem_cons.mp hslot with rfl | hslot
        · simpa [Slot.LeadsTo, hg] using (gains_seat hs').kept hi
        · exact hl slot hslot

/-! ## Agreement -/

/-- The registry agrees with the current index. -/
structure Aligned (config : Config.Cluster) (r : Router) : Prop where
  isOpen : r.closed = false
  tidy : r.fleet.Tidy config.nodeList
  elected : ∀ slot ∈ r.current.slots, IsElected r.sets slot.group
  slots : ∀ slot ∈ r.current.slots, slot.LeadsTo r.fleet.registered
  registered : ∀ a i, (a, i) ∈ r.fleet.registered → a ∈ r.current.masterAddresses

/-- What is seated for elected groups of a configuration. -/
structure Seated (config : Config.Cluster) (sets : List ReplicaSet) (f : Fleet)
    (resolved : List ResolvedGroup) (slots : List Slot) (opened : Fleet) : Prop where
  tidy : opened.Tidy config.nodeList
  gains : Fleet.Gains (resolved.filterMap (·.masterAddr?)) f opened
  groups : slots.map (·.group) = resolved
  leads : ∀ slot ∈ slots, slot.LeadsTo opened.registered
  elected : ∀ slot ∈ slots, IsElected sets slot.group

theorem mem_nodeList_of_isElected {g : ResolvedGroup} {m : Node}
    (h : IsElected (ReplicaSet.ofNodes config.nodeList) g) (hm : g.master = some m) :
    m ∈ config.nodeList ∧ m.group = g.id := by
  obtain ⟨set, hset, roles, rfl⟩ := h
  exact ReplicaSet.areOf_ofNodes _ set hset m (master_mem_elect hm)

theorem seated_of_seat {f : Fleet} {slots : List Slot} {opened : Fleet.Reaction}
    (hf : f.Tidy config.nodeList)
    (he : ∀ g ∈ resolved, IsElected (ReplicaSet.ofNodes config.nodeList) g)
    (hs : seat resolved f = (.ok slots, opened)) :
    Seated config (ReplicaSet.ofNodes config.nodeList) f resolved slots opened.state := by
  obtain ⟨ht, hl⟩ :=
    tidy_seat hf (fun g hg m hm => (mem_nodeList_of_isElected (he g hg) hm).1) hs
  have hg := map_group_seat hs
  exact ⟨ht, gains_seat hs, hg, hl, fun slot hslot => he _ (hg ▸ List.mem_map_of_mem hslot)⟩

/-- What an open router makes of a round that ends well: it puts an index of the next generation in
place. -/
structure Installed (config : Config.Cluster) (r : Router) (resolved : List ResolvedGroup) (x : Index)
    (opened : Fleet) : Prop where
  seated : Seated config r.sets r.fleet resolved x.slots opened
  generation : x.generation = r.generation + 1
  result : (r.install resolved).1 = .ok ()
  state : (r.install resolved).2.state = { r with
    generation := r.generation + 1
    current := x
    fleet := opened.retainOnly x.masterAddresses }

theorem Aligned.installed {round : Round} (h : r.Aligned config) (hs : r.Steady config)
    (hn : groupIds config ≠ []) (hr : Round.Runs r.sets round)
    (ho : round.collect.2 = some (.ok resolved)) :
    ∃ x opened, Installed config r resolved x opened := by
  have he : ∀ g ∈ resolved, IsElected (ReplicaSet.ofNodes config.nodeList) g :=
    hs.sets ▸ hr.elects.outcome ho
  have hid : resolved.map (·.id) = groupIds config := by
    rw [hr.sane.map_id_outcome (hs.sets ▸ ReplicaSet.pairwise_ofNodes _) ho, hs.sets]
    rfl
  obtain ⟨slots, opened, hseat⟩ := exists_seat h.tidy.isOpen resolved
  have hi : Index.ids slots = groupIds config := ids_of_seat hid hseat
  have ha : (Index.ids slots).Pairwise (· < ·) := hi ▸ ReplicaSet.pairwise_ofNodes _
  obtain ⟨x, hx⟩ := Index.exists_build keyHash r.config.routing (r.generation + 1) (hi ▸ hn)
    (nodup_of_pairwise_lt ha)
  have hx' : x.slots = slots := Index.slots_of_build ha hx
  refine ⟨x, opened.state, ?_, Index.generation_of_build hx, ?_, ?_⟩
  · rw [hs.sets, hx']
    exact seated_of_seat h.tidy he hseat
  · rw [install_of_seat h.isOpen hseat hx]
  · rw [install_of_seat h.isOpen hseat hx]

theorem Aligned.install {round : Round} (h : r.Aligned config) (hs : r.Steady config)
    (hn : groupIds config ≠ []) (hr : Round.Runs r.sets round)
    (ho : round.collect.2 = some (.ok resolved)) :
    (r.install resolved).2.state.Aligned config := by
  obtain ⟨x, opened, hS, -, -, hst⟩ := h.installed hs hn hr ho
  rw [hst]
  refine ⟨h.isOpen, hS.tidy.retainOnly _, hS.elected, fun slot hslot => ?_, fun a i hm => ?_⟩
  · refine (hS.leads slot hslot).mono fun m i hm hi => List.mem_filter.mpr ⟨hi, ?_⟩
    exact decide_eq_true (Index.mem_masterAddresses.mpr ⟨slot, hslot, m, hm, rfl⟩)
  · exact of_decide_eq_true (List.mem_filter.mp hm).2

theorem aligned_ofResolved {background : Bool} {started : Router} {told : List Effect}
    (he : ∀ g ∈ resolved, IsElected (ReplicaSet.ofNodes config.nodeList) g)
    (hid : resolved.map (·.id) = groupIds config)
    (h : ofResolved config background resolved = (.ok started, told)) :
    started.Aligned config := by
  obtain ⟨slots, opened, x, hseat, hx, rfl, -⟩ := ofResolved_eq_ok h
  have hf : ({ tuning := config.pool, background } : Fleet).Tidy config.nodeList :=
    ⟨rfl, by simp, by simp⟩
  have hS := seated_of_seat hf he hseat
  have hi : Index.ids slots = groupIds config := ids_of_seat hid hseat
  have hx' : x.slots = slots := Index.slots_of_build (hi ▸ ReplicaSet.pairwise_ofNodes _) hx
  refine ⟨rfl, hS.tidy, hx' ▸ hS.elected, hx' ▸ hS.leads, fun a i hm => ?_⟩
  have hg := (hS.gains.gained a i hm).resolve_left List.not_mem_nil
  rw [← hS.groups, ← hx'] at hg
  exact hg

theorem Aligned.update (h : r.Aligned config) (hs : r.Steady config)
    (hn : groupIds config ≠ []) (hu : Update r r') : r'.Aligned config := by
  cases hu with
  | refreshes _ => exact { h with }
  | install hr ho => exact h.install hs hn hr ho

theorem Steady.update (h : r.Steady config) (hu : Update r r') : r'.Steady config := by
  cases hu with
  | refreshes hr => exact { h with rounds := fun t round ht => (hr t round ht).sane }
  | install hr ho =>
      refine h.install ?_
      rw [hr.sane.map_id_outcome (h.sets ▸ ReplicaSet.pairwise_ofNodes _) ho, h.sets]
      rfl

theorem Aligned.updates (h : r.Aligned config) (hs : r.Steady config)
    (hn : groupIds config ≠ []) (hu : Updates r r') : r'.Aligned config := by
  have : r'.Aligned config ∧ r'.Steady config := by
    induction hu with
    | refl => exact ⟨h, hs⟩
    | tail _ hu ih => exact ⟨ih.1.update ih.2 hn hu, ih.2.update hu⟩
  exact this.1

theorem Aligned.pool (h : r.Aligned config) (now : Nat) (i : PoolId) (m : Pool.Move) :
    (r.stepPool now i m).state.Aligned config where
  isOpen := h.isOpen
  tidy := h.tidy.step now i m
  elected := h.elected
  slots := by
    simp only [stepPool, Reaction.lift_state, Fleet.step_registered]
    exact h.slots
  registered := by
    simp only [stepPool, Reaction.lift_state, Fleet.step_registered]
    exact h.registered

/-- As long as a router is not shut down, its registry agrees with its current index. -/
theorem Reachable.aligned (h : Reachable config r) (ho : r.closed = false) : r.Aligned config := by
  induction h with
  | launch hp hr hw hs =>
      obtain ⟨-, rfl⟩ := plan_eq_ok hp
      refine aligned_ofResolved (hr.elects.outcome hw) ?_ hs
      rw [hr.sane.map_id_outcome (ReplicaSet.pairwise_ofNodes _) hw]
      rfl
  | @step r now m hr ih =>
      have hn := (usable_of_check hr.check).1
      rcases hr.running.step now m with hu | rfl | ⟨i, m, rfl⟩
      · exact (ih (hu.closed_eq ▸ ho)).updates hr.steady hn hu
      · exact absurd (ho.symm.trans (closed_shutdown r now)) Bool.false_ne_true
      · exact (ih ho).pool now i m

/-! ## Serving -/

/-- A move that does not shut anything down. -/
def Move.Serves : Move → Prop
  | .shutdown => False
  | .pool _ .shutdown => False
  | _ => True

/-- The routers that a configuration can lead to while nothing is shut down. -/
inductive Serving (config : Config.Cluster) : Router → Prop
  | launch {sets : List ReplicaSet} {round : Round} {background : Bool}
      {resolved : List ResolvedGroup} {started : Router} {told : List Effect} :
      plan config = .ok sets → Round.Runs sets round → round.collect.2 = some (.ok resolved) →
      ofResolved config background resolved = (.ok started, told) → Serving config started
  | step {r : Router} {m : Move} (now : Nat) :
      Serving config r → m.Serves → Serving config (r.step now m).state

theorem Serving.reachable (h : Serving config r) : Reachable config r := by
  induction h with
  | launch hp hr ho hs => exact .launch hp hr ho hs
  | step now _ _ ih => exact .step now _ ih

theorem allOpen_ofResolved {background : Bool} {started : Router} {told : List Effect}
    (h : ofResolved config background resolved = (.ok started, told)) :
    started.closed = false ∧ started.fleet.AllOpen := by
  obtain ⟨slots, opened, x, hs, -, rfl, -⟩ := ofResolved_eq_ok h
  obtain ⟨ns, hn⟩ := (gains_seat hs).pools
  have ho : ({ tuning := config.pool, background } : Fleet).AllOpen := by simp [Fleet.AllOpen]
  exact ⟨rfl, ho.gains hn⟩

theorem Serving.allOpen (h : Serving config r) : r.closed = false ∧ r.fleet.AllOpen := by
  induction h with
  | launch _ _ _ hs => exact allOpen_ofResolved hs
  | @step r m now hr hm ih =>
      rcases hr.reachable.running.step now m with hu | rfl | ⟨i, m, rfl⟩
      · obtain ⟨ns, hn, -⟩ := hu.gains
        exact ⟨hu.closed_eq.trans ih.1, ih.2.gains hn⟩
      · exact hm.elim
      · refine ⟨ih.1, ih.2.step now i ?_⟩
        rintro rfl
        exact hm.elim

/-! ## What the slots lead to -/

theorem Aligned.isSome_pool {slot : Slot} (h : r.Aligned config) (hm : slot ∈ r.current.slots) :
    slot.pool.isSome = slot.group.hasMaster := by
  have hl := h.slots slot hm
  unfold Slot.LeadsTo at hl
  unfold ResolvedGroup.hasMaster
  cases hg : slot.group.master with
  | none => simp_all
  | some m =>
      rw [hg] at hl
      obtain ⟨i, hi, -⟩ := hl
      rw [hi]
      rfl

theorem Aligned.pool_of_master {slot : Slot} {m : Node} (h : r.Aligned config)
    (hs : r.Steady config) (hc : config.check = .ok ()) (hm : slot ∈ r.current.slots)
    (hg : slot.group.master = some m) :
    ∃ i p, slot.pool = some i ∧ r.fleet.get? m.addr = some i ∧ r.fleet.pools[i]? = some p ∧
      p.addr = m.addr ∧ p.node.group = slot.group.id := by
  have hl := h.slots slot hm
  unfold Slot.LeadsTo at hl
  rw [hg] at hl
  obtain ⟨i, hi, hr⟩ := hl
  obtain ⟨p, hp, ha, hn⟩ := h.tidy.pool _ i hr
  obtain ⟨hmn, hmg⟩ := mem_nodeList_of_isElected (hs.sets ▸ h.elected slot hm) hg
  exact ⟨i, p, hi, h.tidy.get?_eq hr, hp, ha,
    (Config.group_eq_of_addr_eq hc hn hmn ha).trans hmg⟩

theorem Aligned.nodup_pools (h : r.Aligned config) (hs : r.Steady config)
    (hc : config.check = .ok ()) : (r.current.slots.filterMap (·.pool)).Nodup := by
  have hi : (Index.ids r.current.slots).Nodup :=
    nodup_of_pairwise_lt (hs.current.slots ▸ ReplicaSet.pairwise_ofNodes _)
  have hg (slot : Slot) (hslot : slot ∈ r.current.slots) (i : PoolId) (hp : slot.pool = some i) :
      ∃ p, r.fleet.pools[i]? = some p ∧ p.node.group = slot.group.id := by
    have hm := h.isSome_pool hslot
    rw [hp] at hm
    obtain ⟨m, hm⟩ := Option.isSome_iff_exists.mp hm.symm
    obtain ⟨j, p, hj, -, hq, -, hn⟩ := h.pool_of_master hs hc hslot hm
    cases hp.symm.trans hj
    exact ⟨p, hq, hn⟩
  refine List.pairwise_filterMap.mpr ((List.pairwise_map.mp hi).imp_of_mem ?_)
  rintro a b ha hb hne i hia _ hjb rfl
  obtain ⟨p, hp, hpa⟩ := hg a ha i hia
  obtain ⟨q, hq, hqb⟩ := hg b hb i hjb
  cases hp.symm.trans hq
  exact hne (hpa.symm.trans hqb)

theorem Aligned.mem_addresses {a : Address} (h : r.Aligned config) :
    a ∈ r.fleet.addresses ↔ a ∈ r.current.masterAddresses := by
  rw [Fleet.mem_addresses]
  constructor
  · rintro ⟨i, hi⟩
    exact h.registered a i hi
  · intro ha
    obtain ⟨slot, hslot, m, hm, rfl⟩ := Index.mem_masterAddresses.mp ha
    have hl := h.slots slot hslot
    unfold Slot.LeadsTo at hl
    rw [hm] at hl
    obtain ⟨i, -, hi⟩ := hl
    exact ⟨i, hi⟩

end Router

end Shardway
