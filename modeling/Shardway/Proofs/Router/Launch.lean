import Shardway.Proofs.Router.Finality
import Shardway.Proofs.Router.Snapshots
import Shardway.Proofs.Topology.Partition
import Shardway.Proofs.Topology.Timing

/-!
# Usable topologies

A router starts just when its configuration is valid and every group has a member that answers.
Later on it needs no such member: a refresh puts in place whatever it has found.
-/

namespace Shardway

/-- No two groups of some nodes have one id. -/
theorem ReplicaSet.place_inj {nodes : List Node} {set set' : ReplicaSet} {i k : Nat}
    (hk : (ofNodes nodes)[k]? = some set) (hi : (ofNodes nodes)[i]? = some set')
    (hid : set.id = set'.id) : k = i := by
  have hlt : k < ((ofNodes nodes).map (·.id)).length := by
    simpa using (List.getElem?_eq_some_iff.mp hk).1
  refine (List.getElem?_inj hlt (nodup_of_pairwise_lt (pairwise_ofNodes nodes))).mp ?_
  rw [List.getElem?_map, List.getElem?_map, hk, hi, Option.map_some, Option.map_some, hid]

namespace Router

open Simulation

variable {config : Config.Cluster} {acts : Nat → Nat → Act} {background : Bool}
  {resolved : List ResolvedGroup} {g : ResolvedGroup}

/-! ## Groups that answer -/

/-- A member of the group has told by its deadline that it is there. -/
def Reached (config : Config.Cluster) (acts : Nat → Nat → Act) (id : GroupId) : Prop :=
  ∃ i j n, Round.member? (ReplicaSet.ofNodes config.nodeList) i j = some n ∧ n.group = id ∧
    ((acts i j).heard n).isReachable = true

/-- The group is the first one that is not reached. -/
structure FirstSilent (config : Config.Cluster) (acts : Nat → Nat → Act) (id : GroupId) : Prop where
  configured : ∃ e ∈ config.nodes, e.group = id
  silent : ¬Reached config acts id
  le : ∀ e ∈ config.nodes, ¬Reached config acts e.group → id ≤ e.group

/-- Every configured node is asked in some place. -/
theorem exists_member {n : Node} (hn : n ∈ config.nodeList) :
    ∃ i j, Round.member? (ReplicaSet.ofNodes config.nodeList) i j = some n := by
  obtain ⟨set, hset, -, hm⟩ := ReplicaSet.exists_mem_ofNodes hn
  obtain ⟨i, hi⟩ := List.mem_iff_getElem?.mp hset
  obtain ⟨j, hj⟩ := List.mem_iff_getElem?.mp hm
  exact ⟨i, j, by rw [Round.member?, hi, Option.bind_some, hj]⟩

theorem map_id_elected (sets : List ReplicaSet) (acts : Nat → Nat → Act) :
    (Round.elected sets acts).map (·.id) = sets.map (·.id) := by
  refine List.ext_getElem? fun i => ?_
  cases hi : sets[i]? <;> simp [Round.elected, hi, elect]

theorem reached_iff (hg : g ∈ Round.elected (ReplicaSet.ofNodes config.nodeList) acts) :
    g.isReachable = true ↔ Reached config acts g.id := by
  obtain ⟨i, hi, rfl⟩ := List.mem_mapIdx.mp hg
  rw [isReachable_elect List.length_mapIdx]
  constructor
  · rintro ⟨role, hrole, hr⟩
    obtain ⟨j, hj, rfl⟩ := List.mem_mapIdx.mp hrole
    refine ⟨i, j, _, ?_, ?_, hr⟩
    · simp [Round.member?, hi, hj]
    · exact (ReplicaSet.areOf_ofNodes _ _ (List.getElem_mem hi) _ (List.getElem_mem hj)).2
  · rintro ⟨k, j, n, hm, hid, hr⟩
    obtain ⟨set, hset, hn⟩ := Option.bind_eq_some_iff.mp hm
    obtain ⟨hk, rfl⟩ := List.getElem?_eq_some_iff.mp hset
    obtain ⟨hj, rfl⟩ := List.getElem?_eq_some_iff.mp hn
    have hmem := ReplicaSet.areOf_ofNodes _ _ (List.getElem_mem hk) _ (List.getElem_mem hj)
    obtain rfl := ReplicaSet.place_inj hset (List.getElem?_eq_getElem hi)
      (hmem.2.symm.trans hid)
    exact ⟨_, List.mem_mapIdx.mpr ⟨j, hj, rfl⟩, hr⟩

theorem exists_mem_elected (acts : Nat → Nat → Act) {id : GroupId}
    (h : ∃ e ∈ config.nodes, e.group = id) :
    ∃ g ∈ Round.elected (ReplicaSet.ofNodes config.nodeList) acts, g.id = id := by
  have hid := mem_groupIds.mpr h
  rw [groupIds, ← map_id_elected _ acts] at hid
  exact List.mem_map.mp hid

theorem reached_of_find? (h : (Round.elected (ReplicaSet.ofNodes config.nodeList) acts).find?
      (!·.isReachable) = none) : ∀ e ∈ config.nodes, Reached config acts e.group := by
  intro e he
  obtain ⟨g, hg, hid⟩ := exists_mem_elected acts ⟨e, he, rfl⟩
  rw [← hid]
  exact (reached_iff hg).mp (by simpa using List.find?_eq_none.mp h g hg)

theorem firstSilent_of_find? (h : (Round.elected (ReplicaSet.ofNodes config.nodeList) acts).find?
      (!·.isReachable) = some g) : FirstSilent config acts g.id := by
  obtain ⟨hg, before, after, he, hb⟩ := List.find?_eq_some_iff_append.mp h
  have hids := map_id_elected (ReplicaSet.ofNodes config.nodeList) acts
  have hmem : g ∈ Round.elected (ReplicaSet.ofNodes config.nodeList) acts := by simp [he]
  refine ⟨mem_groupIds.mp ?_, fun hr => ?_, fun e hn hs => ?_⟩
  · rw [groupIds, ← hids]
    exact List.mem_map_of_mem hmem
  · simp [(reached_iff hmem).mpr hr] at hg
  · obtain ⟨g', hg', hid⟩ := exists_mem_elected acts ⟨e, hn, rfl⟩
    rw [← hid] at hs ⊢
    -- Groups before the first one are reached, and those behind it have greater ids.
    have hup := ReplicaSet.pairwise_ofNodes config.nodeList
    rw [← hids, he, List.map_append, List.map_cons] at hup
    have hlt := (List.pairwise_cons.mp (List.pairwise_append.mp hup).2.1).1
    rcases List.mem_append.mp (he ▸ hg') with hm | hm
    · exact absurd ((reached_iff hg').mp (by simpa using hb g' hm)) hs
    · rcases List.mem_cons.mp hm with rfl | hm
      · exact UInt32.le_refl _
      · exact UInt32.le_of_lt (hlt _ (List.mem_map_of_mem hm))

/-! ## Pools of masters -/

variable {f : Fleet} {slots : List Slot} {opened : Fleet.Reaction}

theorem openPool_of_getOrOpen {n : Node} {i : PoolId} {r : Fleet.Reaction}
    (hn : n.addr ∉ f.registered.map (·.1)) (h : f.getOrOpen n = .ok (i, r)) :
    i = f.pools.length ∧ r = f.openPool n := by
  unfold Fleet.getOrOpen at h
  split at h
  · cases h
  · split at h
    · rename_i hg
      exact absurd (List.mem_map_of_mem (Fleet.mem_of_get? hg)) hn
    · cases h
      exact ⟨rfl, rfl⟩

/-- Masters at different addresses that have no pool yet get one each. -/
theorem pools_seat (hn : (f.registered.map (·.1) ++ resolved.filterMap (·.masterAddr?)).Nodup)
    (h : seat resolved f = (.ok slots, opened)) :
    opened.state.pools = f.pools ++ (resolved.filterMap (·.master)).map (Pool.ofNode · f.tuning) ∧
      slots.filterMap (·.pool) =
        List.range' f.pools.length (resolved.filterMap (·.master)).length := by
  induction resolved generalizing f slots opened with
  | nil =>
      cases h
      simp
  | cons g resolved ih =>
      rcases seat_cons h with ⟨_, hg, hs, rfl⟩ | ⟨m, _, _, _, _, hg, ho, hs, rfl, rfl⟩
      · simpa [hg] using ih (by simpa [ResolvedGroup.masterAddr?, hg] using hn) hs
      · have hn : (f.registered.map (·.1) ++
            m.addr :: resolved.filterMap (·.masterAddr?)).Nodup := by
          simpa [ResolvedGroup.masterAddr?, hg] using hn
        -- The address is a new one, so the pool is not one that is there already.
        have hm : m.addr ∉ f.registered.map (·.1) := fun hm =>
          (List.nodup_append'.mp hn).2.2 hm List.mem_cons_self
        obtain ⟨rfl, rfl⟩ := openPool_of_getOrOpen hm ho
        obtain ⟨hp, hl⟩ := ih (by simpa [Fleet.openPool] using hn) hs
        simp [hg, hp, hl, Fleet.openPool, List.range'_succ]

/-- No two groups of a usable configuration have a master at one address. -/
theorem nodup_masters (hc : config.check = .ok ())
    (he : ∀ g ∈ resolved, IsElected (ReplicaSet.ofNodes config.nodeList) g)
    (hid : (resolved.map (·.id)).Nodup) : (resolved.filterMap (·.masterAddr?)).Nodup := by
  refine List.pairwise_filterMap.mpr ((List.pairwise_map.mp hid).imp_of_mem ?_)
  rintro a b ha hb hne _ hx _ hy rfl
  obtain ⟨m, hm, rfl⟩ := Option.map_eq_some_iff.mp hx
  obtain ⟨n, hn, hmn⟩ := Option.map_eq_some_iff.mp hy
  obtain ⟨hml, hmg⟩ := mem_nodeList_of_isElected (he a ha) hm
  obtain ⟨hnl, hng⟩ := mem_nodeList_of_isElected (he b hb) hn
  exact hne (hmg.symm.trans ((Config.group_eq_of_addr_eq hc hml hnl hmn.symm).trans hng))

/-! ## Launches -/

/-- There is one slot for each configured group. -/
structure HasSlots (config : Config.Cluster) (x : Index) : Prop where
  ascending : (Index.ids x.slots).Pairwise (· < ·)
  mem_iff : ∀ id, id ∈ Index.ids x.slots ↔ ∃ e ∈ config.nodes, e.group = id

theorem Steady.hasSlots {r : Router} (h : r.Steady config) : HasSlots config r.current where
  ascending := h.current.slots ▸ ReplicaSet.pairwise_ofNodes _
  mem_iff id := by
    rw [show Index.ids r.current.slots = groupIds config from h.current.slots]
    exact mem_groupIds

/-- A router that has just been set up over the groups as their members answered. -/
structure Fresh (config : Config.Cluster) (acts : Nat → Nat → Act) (r : Router) : Prop where
  isOpen : r.closed = false
  generation : r.generation = 1
  current : r.current.generation = 1
  hasSlots : HasSlots config r.current
  groups : r.current.groups = Round.elected (ReplicaSet.ofNodes config.nodeList) acts
  /-- There is one pool for each master. -/
  pools : r.fleet.pools = (r.current.groups.filterMap (·.master)).map (Pool.ofNode · config.pool)
  slots : r.current.slots.filterMap (·.pool) = List.range r.fleet.pools.length
  isSome_pool : ∀ slot ∈ r.current.slots, slot.pool.isSome = slot.group.hasMaster

/-- The launches of a router while its nodes act in this way: what each returns, and what it asks
for and tells once the groups are resolved. -/
inductive Launches (config : Config.Cluster) (background : Bool) (acts : Nat → Nat → Act) :
    Except Fault Router × List Effect → Prop
  | refused {fault : Fault} : plan config = .error fault →
      Launches config background acts (.error fault, [])
  | broken {sets : List ReplicaSet} {s : Round.Timed} {fault : Fault} : plan config = .ok sets →
      Round.Timed.Steps sets acts (.start sets) s → s.result = some (.error fault) →
      Launches config background acts (.error fault, [])
  | resolved {sets : List ReplicaSet} {s : Round.Timed} {resolved : List ResolvedGroup} :
      plan config = .ok sets → Round.Timed.Steps sets acts (.start sets) s →
      s.result = some (.ok resolved) →
      Launches config background acts (ofResolved config background resolved)

/-- What a launch comes to. -/
inductive Launched (config : Config.Cluster) (acts : Nat → Nat → Act) :
    Except Fault Router × List Effect → Prop
  | refused {fault : Fault} : config.check = .error fault → Launched config acts (.error fault, [])
  | unreachable {id : GroupId} : config.check = .ok () → FirstSilent config acts id →
      Launched config acts (.error (unreachableFault id), [])
  | starts {r : Router} {es : List Effect} : config.check = .ok () →
      (∀ e ∈ config.nodes, Reached config acts e.group) → Fresh config acts r →
      Launched config acts (.ok r, es ++ [.notice (.routerReady r.current.size r.fleet.size)])

theorem fresh_ofResolved {started : Router} {told : List Effect} (hc : config.check = .ok ())
    (he : ∀ g ∈ resolved, IsElected (ReplicaSet.ofNodes config.nodeList) g)
    (hr : resolved = Round.elected (ReplicaSet.ofNodes config.nodeList) acts)
    (h : ofResolved config background resolved = (.ok started, told)) :
    Fresh config acts started := by
  have hid : resolved.map (·.id) = groupIds config := by rw [hr, map_id_elected, groupIds]
  have hup : (groupIds config).Pairwise (· < ·) := ReplicaSet.pairwise_ofNodes _
  obtain ⟨-, hn⟩ := Story.serial_ofResolved h
  have ha := aligned_ofResolved he hid h
  have hg := groups_ofResolved hid h
  obtain ⟨slots, opened, x, hseat, hx, rfl, -⟩ := ofResolved_eq_ok h
  have hslots : x.slots = slots := Index.slots_of_build (ids_of_seat hid hseat ▸ hup) hx
  have hnd := nodup_masters hc he (hid ▸ nodup_of_pairwise_lt hup)
  obtain ⟨hp, hl⟩ := pools_seat (by simpa using hnd) hseat
  refine ⟨ha.isOpen, hn.generation, hn.current.trans hn.generation,
    (steady_ofResolved hid h).hasSlots, hg.trans hr, ?_, ?_, fun slot hm => ha.isSome_pool hm⟩
  · rw [hp, hg]
    rfl
  · rw [hslots, hl, hp, List.range_eq_range']
    simp

theorem check_of_plan {fault : Fault} (h : plan config = .error fault) :
    config.check = .error fault := by
  unfold plan at h
  cases hc : config.check <;> rw [hc] at h <;> cases h
  rfl

theorem Launches.launched {x : Except Fault Router × List Effect}
    (hb : ∀ reason, ¬Round.Breaks (ReplicaSet.ofNodes config.nodeList) acts reason)
    (h : Launches config background acts x) : Launched config acts x := by
  have hs := ReplicaSet.pairwise_ofNodes config.nodeList
  cases h with
  | refused hp => exact .refused (check_of_plan hp)
  | broken hp hst hx =>
      obtain ⟨-, rfl⟩ := plan_eq_ok hp
      obtain ⟨r, hr, ho⟩ := ((Round.Timed.timely_start _ acts).steps hs hst).result _ hx
      cases (hr.result hs ho).2 hb
  | @resolved sets s resolved hp hst hx =>
      obtain ⟨hc, rfl⟩ := plan_eq_ok hp
      obtain ⟨r, hr, ho⟩ := ((Round.Timed.timely_start _ acts).steps hs hst).result _ hx
      obtain ⟨-, heq⟩ := hr.outcome hs ho
      cases hf : resolved.find? (!·.isReachable) with
      | some g =>
          simp only [ofResolved, hf]
          exact .unreachable hc (firstSilent_of_find? (heq ▸ hf))
      | none =>
          -- Of reachable groups, neither seating nor the index can fail.
          have hid : resolved.map (·.id) = groupIds config := by rw [heq, map_id_elected, groupIds]
          obtain ⟨started, told, hx⟩ := exists_ofResolved config background resolved
            (usable_of_check hc).1 hid fun g hg => by simpa using List.find?_eq_none.mp hf g hg
          have hfresh := fresh_ofResolved hc (hr.runs.elects.outcome ho) heq hx
          obtain ⟨slots, opened, x, -, -, rfl, rfl⟩ := ofResolved_eq_ok hx
          rw [hx]
          exact .starts hc (reached_of_find? (heq ▸ hf)) hfresh

theorem exists_launches (config : Config.Cluster) (background : Bool) (acts : Nat → Nat → Act) :
    ∃ x, Launches config background acts x := by
  have hs := ReplicaSet.pairwise_ofNodes config.nodeList
  cases hp : plan config with
  | error fault => exact ⟨_, .refused hp⟩
  | ok sets =>
      obtain ⟨-, rfl⟩ := plan_eq_ok hp
      obtain ⟨s, hst, hx⟩ := ((Round.Timed.timely_start _ acts).inevitable hs).exists_reached
      obtain ⟨x, hx⟩ := Option.isSome_iff_exists.mp hx
      cases x with
      | error fault => exact ⟨_, .broken hp hst hx⟩
      | ok resolved => exact ⟨_, .resolved hp hst hx⟩

/-- A router that has started has its story before it. -/
theorem Launches.runs {r : Router} {es : List Effect}
    (h : Launches config background acts (.ok r, es)) : Story.Runs config { router := r } := by
  generalize hx : (Except.ok r, es) = x at h
  cases h with
  | refused _ => cases hx
  | broken _ _ _ => cases hx
  | resolved hp hst ho =>
      obtain ⟨-, rfl⟩ := plan_eq_ok hp
      obtain ⟨round, hr, ho⟩ := ((Round.Timed.timely_start _ acts).steps
        (ReplicaSet.pairwise_ofNodes _) hst).result _ ho
      exact .launch hp hr.runs ho hx.symm

theorem Launched.ok_iff {x : Except Fault Router × List Effect}
    (h : Launched config acts x) : (∃ r, x.1 = .ok r) ↔
      config.check = .ok () ∧ ∀ e ∈ config.nodes, Reached config acts e.group := by
  cases h with
  | refused hc => simp [hc]
  | unreachable hc hf =>
      obtain ⟨e, he, hid⟩ := hf.configured
      refine iff_of_false (by simp) fun ⟨_, hr⟩ => hf.silent (hid ▸ hr e he)
  | starts hc hr _ => exact iff_of_true ⟨_, rfl⟩ ⟨hc, hr⟩

/-! ## Refreshes -/

/-- Why a refresh may fail: its own round has broken off, or the router is closed. -/
inductive Excused (past : List Event) (r : Router) (t : Ticket) : Fault → Prop
  | broken {i : Nat} {reason : String} :
      .broke t i reason ∈ past → Excused past r t (Round.brokenOffFault reason)
  | closed : r.closed = true → Excused past r t .shutdown

/-- Every refresh that has failed is excused. -/
def Excuses (past : List Event) (r : Router) : Prop :=
  ∀ t fault, .told (.refreshed t (.error fault)) ∈ past → Excused past r t fault

variable {past es : List Event} {r r' : Router} {t : Ticket} {fault : Fault} {round : Round}
  {rest : List (Ticket × RefreshStage)}

theorem Excused.mono (h : Excused past r t fault) (hc : r.closed = true → r'.closed = true) :
    Excused (past ++ es) r' t fault := by
  cases h with
  | broken hi => exact .broken (List.mem_append_left _ hi)
  | closed ho => exact .closed (hc ho)

theorem closed_of_turn (h : Story.Turn past r es r') (hc : r.closed = true) : r'.closed = true := by
  cases h with
  | other _ _ _ _ ho => exact ho hc
  | renew ho => cases hc.symm.trans ho
  | _ => exact hc

/-- What fails in a turn has broken off, or found the router closed. -/
theorem excused_of_turn (hu : Underway past r) (h : Story.Turn past r es r')
    (hf : .told (.refreshed t (.error fault)) ∈ es) : Excused (past ++ es) r' t fault := by
  cases h with
  | idle hi =>
      cases List.mem_singleton.mp hf
      exact hi.elim
  | refuse hc =>
      obtain ⟨rfl, rfl⟩ : t = _ ∧ fault = .shutdown := by simpa using hf
      exact .closed hc
  | @fail t' round rest f hr hfail =>
      obtain ⟨rfl, rfl⟩ : t = t' ∧ fault = f := by simpa using hf
      cases hfail with
      | closed hc _ => exact .closed hc
      | broken hb =>
          obtain ⟨i, reason, rfl, hi⟩ := hu.broken hr hb
          exact .broken (List.mem_append_left _ hi)
  | _ => simp at hf

theorem Excuses.turn (h : Excuses past r) (hu : Underway past r) (ht : Story.Turn past r es r') :
    Excuses (past ++ es) r' := by
  intro t fault hf
  rcases List.mem_append.mp hf with hf | hf
  · exact (h t fault hf).mono (closed_of_turn ht)
  · exact excused_of_turn hu ht hf

namespace Story

variable {s : Story}

theorem excuses_turns (h : Excuses past r) (hu : Underway past r) (ht : Turns past r es r') :
    Excuses (past ++ es) r' := by
  induction ht with
  | refl => rwa [List.append_nil]
  | tail hts ht ih =>
      rw [← List.append_assoc]
      exact ih.turn (underway_turns hu hts) ht

theorem Runs.excuses (h : Runs config s) : Excuses s.past s.router := by
  induction h with
  | launch => simp [Excuses]
  | next now h ha ih =>
      exact excuses_turns ih h.underway (turns_next h.reachable h.serial.1.tickets ha now)

/-- With this move the refresh puts these groups in place. -/
structure Renews (s : Story) (now : Nat) (t : Ticket) (resolved : List ResolvedGroup) : Prop where
  told : .renewed t (s.next now (.resume t)).router.current ∈ s.news now (.resume t)
  isOpen : (s.next now (.resume t)).router.closed = false
  groups : (s.next now (.resume t)).router.current.groups = resolved

theorem resume_of_ok (ht : (r.refreshes.map (·.1)).Nodup)
    (hr : r.refreshes = (t, .probing round) :: rest)
    (hc : round.collect.2 = some (.ok resolved)) :
    r.resume t = Reaction.andThen
      ⟨{ r with refreshes := (t, .probing round.collect.1.state) :: rest },
        round.collect.1.effects.map .notice⟩
      fun q => (q.install resolved).2.andThen (Router.endRefresh t (q.install resolved).1) := by
  rcases hcol : round.collect with ⟨collected, outcome⟩
  rw [hcol] at hc
  cases hc
  simp only [Router.resume, hr, if_true, hcol, setStage_eq _ hr ht]

/-- A refresh whose round ends well puts an index in place and is over. -/
theorem Runs.installs (h : Runs config s) (ho : s.router.closed = false)
    (hr : s.router.refreshes = (t, .probing round) :: rest)
    (hc : round.collect.2 = some (.ok resolved)) :
    ∃ x opened, Installed config
        { s.router with refreshes := (t, .probing round.collect.1.state) :: rest }
        resolved x opened ∧
      (s.router.resume t).state = { s.router with
        generation := s.router.generation + 1
        current := x
        fleet := opened.retainOnly x.masterAddresses
        refreshes := rest } ∧
      .refreshed t (.ok ()) ∈ (s.router.resume t).effects := by
  have hk := h.reachable
  have ht := h.serial.1.tickets
  have hs := hk.steady.setCollected hr
  rw [setStage_eq _ hr ht] at hs
  have ha : ({ s.router with refreshes := (t, .probing round.collect.1.state) :: rest } :
      Router).Aligned config := { hk.aligned ho with }
  obtain ⟨x, opened, hI⟩ := ha.installed hs (usable_of_check hk.check).1
    (hk.running t round (hr ▸ List.mem_cons_self)) hc
  have hresume := resume_of_ok ht hr hc
  refine ⟨x, opened, hI, ?_, ?_⟩
  · simp only [hresume, Reaction.andThen_state, endRefresh_state, hI.state, List.tail_cons]
  · simp only [hresume, Reaction.andThen_effects, hI.result, Router.endRefresh,
      Reaction.tell_effects]
    simp

theorem Runs.renews (h : Runs config s) (ho : s.router.closed = false)
    (hr : s.router.refreshes = (t, .probing round) :: rest)
    (hc : round.collect.2 = some (.ok resolved)) (now : Nat) : s.Renews now t resolved := by
  obtain ⟨x, opened, hI, hstate, htold⟩ := h.installs ho hr hc
  have hstate : (s.next now (.resume t)).router = _ := hstate
  refine ⟨List.mem_append_right _ (List.mem_map.mpr ⟨_, htold, rfl⟩), ?_, ?_⟩
  · rw [hstate]
    exact ho
  · rw [hstate]
    exact hI.seated.groups

/-- A router that has started needs no member that answers. -/
structure Lenient (config : Config.Cluster) (s : Story) : Prop where
  excuses : Excuses s.past s.router
  renews : ∀ t round rest resolved, s.router.closed = false →
    s.router.refreshes = (t, .probing round) :: rest → round.collect.2 = some (.ok resolved) →
    ∀ now, s.Renews now t resolved
  hasSlots : HasSlots config s.router.current
  /-- A group of which no member answered stays where it is, with no master. -/
  masterless : s.router.closed = false → ∀ slot ∈ s.router.current.slots,
    slot.group.isReachable = false → slot.group.master = none ∧ slot.pool = none

theorem Runs.lenient (h : Runs config s) : Lenient config s where
  excuses := h.excuses
  renews := fun _ _ _ _ ho hr hc now => h.renews ho hr hc now
  hasSlots := h.reachable.steady.hasSlots
  masterless := fun ho slot hslot hr => by
    have hm : slot.group.master = none := by
      simp only [ResolvedGroup.isReachable, Bool.or_eq_false_iff] at hr
      simpa using hr.1
    have hp := (h.reachable.aligned ho).isSome_pool hslot
    refine ⟨hm, ?_⟩
    simpa [ResolvedGroup.hasMaster, hm] using hp

end Story

/-- A launch whose probes do not break off comes to its end, and in one of three ways. If the
configuration is not valid, it returns what the check says. If a group has no member that has told
by its deadline that it is there, it returns a fault that names the first such group. In both cases
it has opened no pool. Otherwise, and only then, it returns a router of generation 1, with one slot
for each configured group and one pool for each group with a master. A group does not need a master,
and later on not even a member that answers: a refresh fails only when its own round breaks off or
the router is closed, and what it puts in place has a slot for every group again, if without a
master. -/
theorem launch_usable (config : Config.Cluster) (background : Bool) (acts : Nat → Nat → Act) :
    (∀ n ∈ config.nodeList,
      ∃ i j, Round.member? (ReplicaSet.ofNodes config.nodeList) i j = some n) ∧
    Inevitably (Round.Timed.Step (ReplicaSet.ofNodes config.nodeList) acts) (·.result.isSome)
      (.start (ReplicaSet.ofNodes config.nodeList)) ∧
    (∃ x, Launches config background acts x) ∧
    (∀ r es, Launches config background acts (.ok r, es) → Story.Runs config { router := r }) ∧
    ((∀ reason, ¬Round.Breaks (ReplicaSet.ofNodes config.nodeList) acts reason) →
      ∀ x, Launches config background acts x → Launched config acts x ∧
        ((∃ r, x.1 = .ok r) ↔
          config.check = .ok () ∧ ∀ e ∈ config.nodes, Reached config acts e.group)) ∧
    ∀ s, Story.Runs config s → s.Lenient config := by
  refine ⟨fun n hn => exists_member hn, ?_, exists_launches config background acts,
    fun r es h => h.runs, fun hb x h => ?_, fun s h => h.lenient⟩
  · exact (Round.Timed.timely_start _ acts).inevitable (ReplicaSet.pairwise_ofNodes _)
  · exact ⟨h.launched hb, (h.launched hb).ok_iff⟩

/-- One group has a replica alone, and the other one a master. -/
def loneActs : Nat → Nat → Act
  | 0, _ => ⟨3, .tells (.replica none)⟩
  | _, _ => ⟨0, .tells .master⟩

def silentActs (_ _ : Nat) : Act := ⟨0, .hangs⟩

/-- A refresh by which both groups have lost their only node. -/
def blackout : List (Nat × Move) :=
  [(1, .probed 0 1 0 (.unreachable "refused")), (2, .probed 0 0 0 (.unreachable "refused"))]

/-- The groups after a blackout. -/
def darkGroups : List ResolvedGroup :=
  [⟨1, none, [], [⟨⟨"a", 7000⟩, 1, .ofMillis 2000⟩]⟩,
    ⟨2, none, [], [⟨⟨"b", 7000⟩, 2, .ofMillis 2000⟩]⟩]

/-- The round of that refresh. -/
def darkRound : Round :=
  (((Round.start (ReplicaSet.ofNodes pair.nodeList)).state.answer 1 0
    (.unreachable "refused")).state.answer 0 0 (.unreachable "refused")).state

theorem launch_usable_pair :
    (∃ r es, Launches pair true loneActs (.ok r, es) ∧ r.generation = 1 ∧
      r.fleet.pools.map (·.addr) = [⟨"b", 7000⟩]) ∧
    (∀ x, Launches pair true silentActs x → x = (.error (unreachableFault 1), [])) ∧
    ∃ s, Story.Runs pair s ∧ s.router.current.groups = darkGroups ∧
      ∀ slot ∈ s.router.current.slots, slot.pool = none := by
  refine ⟨?_, fun x hx => ?_, ?_⟩
  · have hb : ∀ reason, ¬Round.Breaks (ReplicaSet.ofNodes pair.nodeList) loneActs reason :=
      Round.not_breaks fun i j reason => by unfold loneActs; split <;> simp
    obtain ⟨-, -, ⟨⟨x, es⟩, hx⟩, -, hl, -⟩ := launch_usable pair true loneActs
    obtain ⟨hl, hok⟩ := hl hb _ hx
    obtain ⟨r, rfl⟩ := hok.mpr ⟨rfl, by
      simp only [pair, List.forall_mem_cons]
      exact ⟨⟨0, 0, _, rfl, rfl, rfl⟩, ⟨1, 0, _, rfl, rfl, rfl⟩, by simp⟩⟩
    cases hl with
    | starts _ _ hfresh =>
        refine ⟨r, _, hx, hfresh.generation, ?_⟩
        rw [hfresh.pools, hfresh.groups]
        rfl
  · have hb : ∀ reason, ¬Round.Breaks (ReplicaSet.ofNodes pair.nodeList) silentActs reason :=
      Round.not_breaks fun i j reason => by simp [silentActs]
    have hs (id : GroupId) : ¬Reached pair silentActs id := by
      rintro ⟨i, j, n, -, -, hr⟩
      cases hr
    obtain ⟨-, -, -, -, hl, -⟩ := launch_usable pair true silentActs
    cases (hl hb x hx).1 with
    | refused hc => cases hc
    | starts _ hr _ => exact absurd (hr ⟨"a", 7000, 1, 2000⟩ (by decide)) (hs _)
    | @unreachable id _ hf =>
        obtain ⟨e, he, rfl⟩ := hf.configured
        have hle := hf.le ⟨"a", 7000, 1, 2000⟩ (by decide) (hs _)
        simp only [pair, List.mem_cons, List.not_mem_nil, or_false] at he
        rcases he with rfl | rfl
        · rfl
        · exact absurd hle (by decide)
  · obtain ⟨started, told, hs, h⟩ := Story.exists_twofold
    have h' : Story.Runs pair ((Story.twofold started).play blackout) :=
      h.leads (Story.leads_play (by simp [blackout]))
    have hr : (ofResolved pair false pairGroups).1.toOption.map (fun r =>
        (((Story.twofold r).play blackout).router.closed,
          ((Story.twofold r).play blackout).router.refreshes)) =
        some (false, [(0, .probing darkRound), (1, .waiting)]) := by cbv
    rw [hs] at hr
    obtain ⟨ho, hq⟩ := Prod.mk.inj (Option.some.inj hr)
    obtain ⟨-, -, -, -, -, hl⟩ := launch_usable pair true loneActs
    have hn := (hl _ h').renews 0 darkRound _ darkGroups ho hq (by decide) 3
    have h3 := h'.next 3 (m := .resume 0) trivial
    refine ⟨_, h3, hn.groups, fun slot hslot => ?_⟩
    refine ((hl _ h3).masterless hn.isOpen slot hslot ?_).2
    have hg : slot.group ∈ darkGroups := hn.groups ▸ List.mem_map_of_mem hslot
    exact (by decide : ∀ g ∈ darkGroups, g.isReachable = false) _ hg

end Router

end Shardway
