import Shardway.Simulation.Terminal
import Shardway.Proofs.Router.Snapshots
import Shardway.Proofs.Simulation.Worlds
import Shardway.Proofs.Topology.Timing

/-!
# What could crash

A semaphore crashes if it is to have too many permits, a ticker without a period, and a queue when
something is put in past its end. Of a configuration that passes the check, all of this is in order
but for two things: the check sets no bound on the connections of a pool, and a watch may be asked
for without a period.
-/

namespace Shardway

/-! ## Deadlines -/

namespace Config

variable {config : Cluster}

theorem timeoutMs_le_of_check {e : NodeEntry} (h : config.check = .ok ()) (he : e ∈ config.nodes) :
    e.timeoutMs ≤ longestTimeoutMs := by
  unfold Cluster.check at h
  split at h
  · cases h
  · rename_i hf
    unfold Cluster.flaw? at hf
    split at hf
    · cases hf
    · simp only [Option.or_eq_none_iff] at hf
      have hn := List.findSome?_eq_none_iff.mp hf.1 e he
      unfold NodeEntry.flaw? at hn
      split at hn
      · cases hn
      · split at hn
        · cases hn
        · split at hn
          · cases hn
          · omega

/-- The deadline of a node is not cut down to the longest span. -/
theorem probeDeadline_of_check {n : Node} (h : config.check = .ok ()) (hn : n ∈ config.nodeList) :
    n.probeDeadline.nanos = n.timeout.nanos * 2 + probeGrace.nanos ∧
      n.probeDeadline.nanos ≤ Span.longest.nanos := by
  obtain ⟨e, he, rfl⟩ := List.mem_map.mp hn
  have ht := timeoutMs_le_of_check h he
  simp only [longestTimeoutMs] at ht
  simp only [Node.probeDeadline, NodeEntry.node, Span.ofMillis, probeGrace, Span.longest]
  omega

end Config

/-! ## Stores in which every node calls itself master -/

/-- If every member calls itself master, every group has one. -/
theorem hasMaster_elect {set : ReplicaSet} {roles : List Role} (hm : set.members ≠ [])
    (hl : roles.length = set.members.length) (hr : ∀ role ∈ roles, role = .master) :
    (elect set roles).hasMaster := by
  obtain ⟨id, members⟩ := set
  cases members with
  | nil => exact absurd rfl hm
  | cons n members =>
      cases roles with
      | nil => cases hl
      | cons role roles =>
          cases hr role List.mem_cons_self
          rfl

open Simulation Round.Timed in
theorem Round.exists_masters (nodes : List Node) :
    ∃ round resolved, Runs (ReplicaSet.ofNodes nodes) round ∧
      round.collect.2 = some (.ok resolved) ∧ ∀ g ∈ resolved, g.hasMaster := by
  let acts : Nat → Nat → Act := fun _ _ => ⟨0, .tells .master⟩
  have hs := ReplicaSet.pairwise_ofNodes nodes
  have ht := timely_start (ReplicaSet.ofNodes nodes) acts
  obtain ⟨s, hst, hx⟩ := (ht.inevitable hs).exists_reached
  obtain ⟨x, hx⟩ := Option.isSome_iff_exists.mp hx
  obtain ⟨r, hr, ho⟩ := (ht.steps hs hst).result x hx
  have hb : ∀ reason, ¬Breaks (ReplicaSet.ofNodes nodes) acts reason :=
    not_breaks fun i j reason => by simp [acts]
  refine ⟨r, _, hr.runs, (hr.result hs ho).2 hb ▸ ho, fun g hg => ?_⟩
  obtain ⟨i, hi, rfl⟩ := List.mem_mapIdx.mp hg
  have hm : (ReplicaSet.ofNodes nodes)[i].members ≠ [] :=
    ReplicaSet.members_ne_nil (List.getElem_mem hi)
  refine hasMaster_elect hm (by simp) fun role hm => ?_
  obtain ⟨j, hj, rfl⟩ := List.mem_mapIdx.mp hm
  simp [acts, Act.heard]

theorem Router.exists_pool_ofResolved {config : Config.Cluster} {background : Bool} {round : Round}
    {resolved : List ResolvedGroup} {started : Router} {told : List Effect}
    (h : config.check = .ok ())
    (hr : Round.Runs (ReplicaSet.ofNodes config.nodeList) round)
    (ho : round.collect.2 = some (.ok resolved)) (hm : ∀ g ∈ resolved, g.hasMaster)
    (hs : ofResolved config background resolved = (.ok started, told)) :
    ∃ p ∈ started.fleet.pools, p.tuning = config.pool := by
  have hid := hr.sane.map_id_outcome (ReplicaSet.pairwise_ofNodes _) ho
  have ha : started.Aligned config := aligned_ofResolved (hr.elects.outcome ho) hid hs
  have hg : started.current.groups ≠ [] := by
    rw [groups_ofResolved hid hs]
    rintro rfl
    exact (usable_of_check h).1 hid.symm
  obtain ⟨g, hg⟩ := List.exists_mem_of_ne_nil _ hg
  obtain ⟨slot, hslot, rfl⟩ := List.mem_map.mp hg
  rw [groups_ofResolved hid hs] at hg
  obtain ⟨m, hmaster⟩ := Option.isSome_iff_exists.mp (hm _ hg)
  obtain ⟨i, p, -, -, hp, -⟩ := ha.pool_of_master (steady_ofResolved hid hs) h hslot hmaster
  exact ⟨p, List.mem_of_getElem? hp, (tuned_ofResolved hs).pools p (List.mem_of_getElem? hp)⟩

/-! ## Sessions -/

namespace Cli.Deployment

variable {σ : Type}

theorem run_bind_eq {α β : Type} (x : StateM σ α) (f : α → StateM σ β) (s : σ) :
    (x >>= f).run s = (f (x.run s).1).run (x.run s).2 := rfl

theorem run_pure_eq {α : Type} (a : α) (s : σ) : (pure a : StateM σ α).run s = (a, s) := rfl

/-- A watch that has begun does not end otherwise than well. -/
theorem watch_outcome (d : Deployment (StateM σ)) (rounds : Nat) (ticker : Ticker) (x : Watch)
    (s : σ) : ((d.watch rounds ticker x).run s).1 = .success := by
  induction rounds generalizing ticker x s with
  | zero => rfl
  | succ rounds ih =>
      rw [watch, run_bind_eq]
      rcases (d.waitUntil ticker.due).run s with ⟨goes, s⟩
      cases goes with
      | false => rfl
      | true =>
          rw [if_neg (by simp), run_bind_eq, run_bind_eq]
          rcases (d.refresh.run (d.now.run s).2) with ⟨result, s'⟩
          cases result with
          | error f => exact ih _ _ _
          | ok x => exact ih _ _ _

/-- A session comes to a ticker without a period exactly if it has a store and is to watch it in no
time. -/
theorem take_watch_iff (d : Deployment (StateM σ)) (rounds : Nat) (config : Config.Cluster)
    (interval : Span) (s : σ) :
    ((d.take rounds config (.watch interval)).run s).1 = .noPeriod ↔
      (∃ x, ((d.launch config).run s).1 = .ok x) ∧ interval = .zero := by
  rw [take, run_bind_eq]
  rcases (d.launch config).run s with ⟨launched, s⟩
  cases launched with
  | error f =>
      rw [proceed, run_pure_eq]
      simp [Outcome.failure, Outcome.noPeriod]
  | ok x =>
      dsimp only [proceed]
      rw [run_bind_eq]
      split
      · rename_i hz
        rw [run_pure_eq]
        simp [hz]
      · rename_i hz
        rw [run_bind_eq, watch_outcome]
        simp [hz, Outcome.success, Outcome.noPeriod]

end Cli.Deployment

namespace Simulation.World

variable {config : Config.Cluster} {w : World}

/-! ## Worlds -/

/-- The most permits that a semaphore can have. -/
def maxPermits : Nat := 0x1FFFFFFFFFFFFFFF

/-- All that needs a period has one, every key has a slot among those of the current index, and
deadlines are spans as they are meant. -/
structure Safe (w : World) : Prop where
  evictors : ∀ e ∈ w.evictors, e.ticker.period ≠ 0
  refreshers : ∀ k ∈ w.refreshers, k.ticker.period ≠ 0
  slot : ∀ key, ∃ i < w.client.router.current.size,
    shardSlot key w.client.router.current.size = some i
  deadlines : ∀ set ∈ w.client.router.sets, ∀ n ∈ set.members,
    n.probeDeadline.nanos = n.timeout.nanos * 2 + probeGrace.nanos ∧
      n.probeDeadline.nanos ≤ Span.longest.nanos

theorem Runs.safe (h : Runs config w) : w.Safe := by
  have hf := h.fit
  refine ⟨hf.evictors, hf.refreshers, fun key => ?_, fun set hset n hn => ?_⟩
  · have hz : w.client.router.current.size ≠ 0 := by
      have hi := hf.router.steady.current.slots
      intro hz
      have hn : w.client.router.current.slots = [] := List.length_eq_zero_iff.mp hz
      rw [hn] at hi
      exact (Router.usable_of_check h.check).1 hi.symm
    exact ⟨_, Nat.mod_lt _ (Nat.pos_of_ne_zero hz), if_neg hz⟩
  · rw [hf.router.steady.sets] at hset
    exact Config.probeDeadline_of_check h.check (ReplicaSet.areOf_ofNodes _ set hset n hn).1

/-- Every configuration that passes the check can lead to a world with a pool in it. -/
theorem exists_runs (h : config.check = .ok ()) :
    ∃ w, Runs config w ∧ ∃ p ∈ w.client.router.fleet.pools, p.tuning = config.pool := by
  obtain ⟨round, resolved, hr, ho, hm⟩ := Round.exists_masters config.nodeList
  obtain ⟨hn, -⟩ := Router.usable_of_check h
  have hid := hr.sane.map_id_outcome (ReplicaSet.pairwise_ofNodes _) ho
  obtain ⟨started, told, hs⟩ := Router.exists_ofResolved config true resolved hn hid fun g hg => by
    simpa [ResolvedGroup.isReachable] using .inl (hm g hg)
  have hp : Router.plan config = .ok (ReplicaSet.ofNodes config.nodeList) := by
    rw [Router.plan, h]
    rfl
  have hf := Paced.onEffects (P := (· = started)) told
    (w := { World.bare {} true with client := ⟨started, []⟩ })
    ⟨rfl, by simp [World.bare], by simp [World.bare]⟩
  refine ⟨_, .launch (w := .bare {} true) rfl rfl hp hr ho hs, ?_⟩
  rw [hf.router]
  exact Router.exists_pool_ofResolved h hr ho hm hs

/-- Of a configuration that passes the check, every precondition is met but for two: there is
nothing that bounds the connections of a pool, or that keeps a watch from having no period. -/
theorem preconditions_met (hc : config.check = .ok ()) :
    (∀ w, Runs config w → w.Safe) ∧
      (∀ (p q : Pool) (kept : Nat) (e : Parked), p.repark? kept e = some q →
        ∃ i ≤ p.idle.length, q.idle = p.idle.insertIdx i e) ∧
      ((∀ w, Runs config w → ∀ p ∈ w.client.router.fleet.pools, p.tuning.maxTotal ≤ maxPermits) ↔
        config.pool.maxTotal ≤ maxPermits) ∧
      ∀ (σ : Type) (d : Cli.Deployment (StateM σ)) (rounds : Nat) (interval : Span) (s : σ),
        ((d.take rounds config (.watch interval)).run s).1 = .noPeriod ↔
          (∃ x, ((d.launch config).run s).1 = .ok x) ∧ interval = .zero := by
  refine ⟨fun w h => h.safe, fun p q kept e hq => ?_, ⟨fun h => ?_, fun h w hw p hp => ?_⟩,
    fun σ d rounds interval s => d.take_watch_iff rounds config interval s⟩
  · obtain ⟨-, rfl⟩ := Pool.repark?_eq_some hq
    exact ⟨_, Nat.min_le_right _ _, rfl⟩
  · obtain ⟨w, hw, p, hp, ht⟩ := exists_runs hc
    exact ht ▸ h w hw p hp
  · rw [hw.fit.router.tuned.pools p hp]
    exact h

theorem preconditions_met_pair :
    Router.pair.check = .ok () ∧
      ∃ w, Runs Router.pair w ∧ w.Safe ∧
        (∃ p ∈ w.client.router.fleet.pools, p.tuning.maxTotal ≤ maxPermits) ∧
        ∀ (σ : Type) (d : Cli.Deployment (StateM σ)) (s : σ),
          ((d.take 1 Router.pair (.watch Cli.defaultInterval)).run s).1 ≠ .noPeriod := by
  have hc : Router.pair.check = .ok () := rfl
  obtain ⟨hs, -, hp, hi⟩ := preconditions_met hc
  obtain ⟨w, hw, p, hm, -⟩ := exists_runs hc
  refine ⟨hc, w, hw, hs w hw, ⟨p, hm, hp.mpr (by decide) w hw p hm⟩, fun σ d s h => ?_⟩
  exact absurd ((hi σ d 1 Cli.defaultInterval s).mp h).2 (by decide)

/-- A pool of this configuration may have more connections than a semaphore has permits. -/
def roomy : Config.Cluster :=
  { nodes := [⟨"a", 6301, 1, 2000⟩], pool := { maxTotal := 0x2000000000000000 } }

/-- A user before a store with one node. -/
def solitary : Terminal :=
  { world := { World.bare {} true with cast := [("a:6301", [⟨0, .tells .master⟩])] } }

theorem crashes_roomy :
    (roomy.check = .ok () ∧ ∃ w, Runs roomy w ∧
      ∃ p ∈ w.client.router.fleet.pools, maxPermits < p.tuning.maxTotal) ∧
    Cli.parse ["watch", "--interval", "0s"] = .ok (.run Cli.defaultConfig (.watch .zero)) ∧
      ((Terminal.deployment.take 1 { roomy with pool := {} } (.watch .zero)).run solitary).1 =
        .noPeriod := by
  have hc : roomy.check = .ok () := rfl
  obtain ⟨w, hw, p, hp, ht⟩ := exists_runs hc
  refine ⟨⟨hc, w, hw, p, hp, ?_⟩, ?_, ?_⟩
  · rw [ht]
    decide
  · decide +kernel
  · decide +kernel

end Simulation.World

end Shardway
