import Shardway.Router.Basic
import Shardway.Proofs.Router.Ownership
import Shardway.Proofs.Topology.Rounds

/-!
# Runs of a router

A router starts from one round of probes and then goes on by moves in any order. All along its
groups are those of its configuration, and so are those of its current index. Hence no key ever
changes its owner.
-/

namespace Shardway.Router

/-- What can happen to a router. -/
inductive Move
  | refresh (t : Ticket)
  | resume (t : Ticket)
  | probed (t : Ticket) (i j : Nat) (role : Role)
  | brokeOff (t : Ticket) (i : Nat) (reason : String)
  | abandon (t : Ticket)
  | shutdown
  | pool (i : PoolId) (m : Pool.Move)

/-- One move at a time in milliseconds. -/
def step (now : Nat) (m : Move) (r : Router) : Reaction :=
  match m with
  | .refresh t => r.refresh t
  | .resume t => r.resume t
  | .probed t i j role => r.probed t i j role
  | .brokeOff t i reason => r.brokeOff t i reason
  | .abandon t => r.abandon t
  | .shutdown => r.shutdown now
  | .pool i m => r.stepPool now i m

/-- The routers that a configuration can lead to. -/
inductive Reachable (config : Config.Cluster) : Router → Prop
  | launch {sets : List ReplicaSet} {round : Round} {background : Bool}
      {resolved : List ResolvedGroup} {started : Router} {told : List Effect} :
      plan config = .ok sets → Round.Runs sets round → round.collect.2 = some (.ok resolved) →
      ofResolved config background resolved = (.ok started, told) → Reachable config started
  | step {r : Router} (now : Nat) (m : Move) :
      Reachable config r → Reachable config (r.step now m).state

/-- The router after these moves, each at its time. -/
def play (moves : List (Nat × Move)) (r : Router) : Router :=
  moves.foldl (fun r (now, m) => (r.step now m).state) r

/-- The ids of the groups of a configuration. -/
def groupIds (config : Config.Cluster) : List GroupId :=
  (ReplicaSet.ofNodes config.nodeList).map (·.id)

/-- The router keeps to the groups of its configuration. -/
structure Steady (c : Config.Cluster) (r : Router) : Prop where
  config : r.config = c
  sets : r.sets = ReplicaSet.ofNodes c.nodeList
  current : r.current.Over c.routing (groupIds c)
  rounds : ∀ t round, (t, .probing round) ∈ r.refreshes → round.Sane r.sets

variable {config : Config.Cluster} {r : Router} {t : Ticket} {resolved : List ResolvedGroup}

theorem exists_of_bind_eq_ok {α β ε : Type} {x : Except ε α} {f : α → Except ε β} {b : β}
    (h : x.bind f = .ok b) : ∃ a, x = .ok a ∧ f a = .ok b := by
  cases x with
  | error e => cases h
  | ok a => exact ⟨a, rfl, h⟩

/-- Seating a group takes its master's pool, if it has a master. -/
inductive Seats (g : ResolvedGroup) (resolved : List ResolvedGroup) (f : Fleet) :
    Except Fault (List Slot) × Fleet.Reaction → Prop
  | masterless {slots : Except Fault (List Slot)} {opened : Fleet.Reaction} : g.master = none →
      seat resolved f = (slots, opened) → Seats g resolved f (slots.map (⟨g, none⟩ :: ·), opened)
  | fails {m : Node} {fault : Fault} : g.master = some m → f.getOrOpen m = .error fault →
      Seats g resolved f (.error fault, ⟨f, []⟩)
  | takes {m : Node} {id : PoolId} {first rest : Fleet.Reaction}
      {slots : Except Fault (List Slot)} :
      g.master = some m → f.getOrOpen m = .ok (id, first) →
      seat resolved first.state = (slots, rest) →
      Seats g resolved f
        (slots.map (⟨g, some id⟩ :: ·), ⟨rest.state, first.effects ++ rest.effects⟩)

theorem seats (g : ResolvedGroup) (resolved : List ResolvedGroup) (f : Fleet) :
    Seats g resolved f (seat (g :: resolved) f) := by
  unfold seat
  split
  · exact .masterless ‹_› rfl
  · rename_i m hg
    split
    · exact .fails hg ‹_›
    · exact .takes hg ‹_› rfl

theorem exists_of_map_eq_ok {α β ε : Type} {x : Except ε α} {f : α → β} {b : β}
    (h : x.map f = .ok b) : ∃ a, x = .ok a ∧ f a = b := by
  cases x with
  | error e => cases h
  | ok a =>
      cases h
      exact ⟨a, rfl, rfl⟩

theorem seat_cons {g : ResolvedGroup} {f : Fleet} {slots : List Slot} {opened : Fleet.Reaction}
    (h : seat (g :: resolved) f = (.ok slots, opened)) :
    (∃ slots', g.master = none ∧ seat resolved f = (.ok slots', opened) ∧
      slots = ⟨g, none⟩ :: slots') ∨
    ∃ m id first slots' rest, g.master = some m ∧ f.getOrOpen m = .ok (id, first) ∧
      seat resolved first.state = (.ok slots', rest) ∧ slots = ⟨g, some id⟩ :: slots' ∧
      opened = ⟨rest.state, first.effects ++ rest.effects⟩ := by
  have hs := seats g resolved f
  rw [h] at hs
  generalize hx : (Except.ok slots : Except Fault (List Slot)) = x at hs
  cases hs with
  | masterless hg hs =>
      obtain ⟨slots', rfl, rfl⟩ := exists_of_map_eq_ok hx.symm
      exact .inl ⟨slots', hg, hs, rfl⟩
  | fails => cases hx
  | takes hg ho hs =>
      obtain ⟨slots', rfl, rfl⟩ := exists_of_map_eq_ok hx.symm
      exact .inr ⟨_, _, _, slots', _, hg, ho, hs, rfl, rfl⟩

theorem map_group_seat {f : Fleet} {slots : List Slot} {opened : Fleet.Reaction}
    (h : seat resolved f = (.ok slots, opened)) : slots.map (·.group) = resolved := by
  induction resolved generalizing f slots opened with
  | nil =>
      cases h
      rfl
  | cons g resolved ih =>
      rcases seat_cons h with ⟨_, -, hs, rfl⟩ | ⟨_, _, _, _, _, -, -, hs, rfl, -⟩
      · rw [List.map_cons, ih hs]
      · rw [List.map_cons, ih hs]

theorem ids_of_seat {f : Fleet} {slots : List Slot} {opened : Fleet.Reaction}
    (hr : resolved.map (·.id) = groupIds config) (hs : seat resolved f = (.ok slots, opened)) :
    Index.ids slots = groupIds config := by
  rw [← hr, ← map_group_seat hs, List.map_map]
  rfl

theorem over_of_seat {f : Fleet} {slots : List Slot} {opened : Fleet.Reaction} {generation : Nat}
    {x : Index} (hr : resolved.map (·.id) = groupIds config)
    (hs : seat resolved f = (.ok slots, opened))
    (hb : Index.build keyHash config.routing generation slots = .ok x) :
    x.Over config.routing (groupIds config) := by
  have hi : Index.ids slots = groupIds config := ids_of_seat hr hs
  rw [← hi]
  refine Index.over_of_build ?_ hb
  rw [hi]
  exact ReplicaSet.pairwise_ofNodes _

/-- What it comes to to install resolved groups. -/
inductive Installs (r : Router) (resolved : List ResolvedGroup) :
    Except Fault Unit × Reaction → Prop
  | closed : r.closed = true → Installs r resolved (.error .shutdown, ⟨r, []⟩)
  | fails {slots : Except Fault (List Slot)} {opened : Fleet.Reaction} {fault : Fault} :
      seat resolved r.fleet = (slots, opened) → Installs r resolved (.error fault,
        ⟨{ r with generation := r.generation + 1, fleet := opened.state }, opened.effects⟩)
  | puts {slots : List Slot} {opened : Fleet.Reaction} {x : Index} :
      seat resolved r.fleet = (.ok slots, opened) →
      Index.build keyHash r.config.routing (r.generation + 1) slots = .ok x →
      Installs r resolved (.ok (),
        ⟨{ r with
            generation := r.generation + 1
            current := x
            fleet := opened.state.retainOnly x.masterAddresses },
          opened.effects ++ ((r.current.changes x).map .notice ++
            (opened.state.stale x.masterAddresses).map fun e => .notice (.poolRetired e.1))⟩)

theorem installs (resolved : List ResolvedGroup) (r : Router) :
    Installs r resolved (r.install resolved) := by
  unfold Router.install
  split
  · exact .closed ‹_›
  · rcases hs : seat resolved r.fleet with ⟨slots, opened⟩
    simp only [hs]
    split
    · exact .fails hs
    · rename_i x hb
      obtain ⟨slots, rfl, hb⟩ := exists_of_bind_eq_ok hb
      exact .puts hs hb

theorem install_of_seat {slots : List Slot} {opened : Fleet.Reaction} {x : Index}
    (ho : r.closed = false) (hs : seat resolved r.fleet = (.ok slots, opened))
    (hx : Index.build keyHash r.config.routing (r.generation + 1) slots = .ok x) :
    r.install resolved = (.ok (), ⟨{ r with
        generation := r.generation + 1
        current := x
        fleet := opened.state.retainOnly x.masterAddresses },
      opened.effects ++ ((r.current.changes x).map .notice ++
        (opened.state.stale x.masterAddresses).map fun e => .notice (.poolRetired e.1))⟩) := by
  simp only [Router.install, ho, Bool.false_eq_true, if_false, hs, Except.bind, hx]

theorem Steady.install (h : r.Steady config) (hr : resolved.map (·.id) = groupIds config) :
    (r.install resolved).2.state.Steady config := by
  have hi := installs resolved r
  generalize r.install resolved = x at hi ⊢
  cases hi with
  | closed => exact h
  | fails => exact { h with }
  | puts hs hb =>
      rw [h.config] at hb
      exact { h with current := over_of_seat hr hs hb }

theorem Steady.setStage {s : RefreshStage} (h : r.Steady config)
    (hs : ∀ round, s = .probing round → round.Sane r.sets) : (r.setStage t s).Steady config := by
  refine { h with rounds := fun u round hu => ?_ }
  obtain ⟨⟨v, s'⟩, hv, he⟩ := List.mem_map.mp hu
  split at he
  · cases he
    exact hs round rfl
  · cases he
    exact h.rounds _ round hv

/-- The refresh that probes has counted its verdicts. -/
theorem Steady.setCollected {round : Round} {rest : List (Ticket × RefreshStage)}
    (h : r.Steady config) (hr : r.refreshes = (t, .probing round) :: rest) :
    (r.setStage t (.probing round.collect.1.state)).Steady config :=
  h.setStage fun _ he => by
    cases he
    exact (h.rounds t round (hr ▸ List.mem_cons_self)).collect

theorem Steady.beginRound (h : r.Steady config) : (r.beginRound t).state.Steady config :=
  h.setStage fun _ hs => by
    cases hs
    exact Round.sane_start r.sets

theorem Steady.sub {refreshes : List (Ticket × RefreshStage)} (h : r.Steady config)
    (hs : refreshes ⊆ r.refreshes) : ({ r with refreshes } : Router).Steady config :=
  { h with rounds := fun t round ht => h.rounds t round (hs ht) }

theorem Steady.wakeFirst (h : r.Steady config) : r.wakeFirst.state.Steady config := by
  unfold Router.wakeFirst
  split <;> exact h

theorem Steady.endRefresh (h : r.Steady config) (t : Ticket) (result : Except Fault Unit) :
    (r.endRefresh t result).state.Steady config :=
  (h.sub (List.tail_sublist _).subset).wakeFirst

theorem Steady.refresh (h : r.Steady config) : (r.refresh t).state.Steady config := by
  have hw : ({ r with refreshes := r.refreshes ++ [(t, .waiting)] } : Router).Steady config := by
    refine { h with rounds := fun u round hu => ?_ }
    rcases List.mem_append.mp hu with hu | hu
    · exact h.rounds u round hu
    · cases List.mem_singleton.mp hu
  unfold Router.refresh
  split
  · exact h
  · dsimp only
    split
    · exact hw.beginRound
    · exact hw

theorem Steady.resume (h : r.Steady config) : (r.resume t).state.Steady config := by
  unfold Router.resume
  split
  · split
    · exact h.beginRound
    · exact h
  · rename_i u round rest hr
    split
    · rename_i hu
      cases hu
      have hs : round.Sane r.sets := h.rounds t round (hr ▸ List.mem_cons_self)
      have ht : (r.setStage t (.probing round.collect.1.state)).Steady config := h.setCollected hr
      -- A round that ends well has counted every group of the configuration.
      have ho (resolved : List ResolvedGroup) (ho : round.collect.2 = some (.ok resolved)) :
          resolved.map (·.id) = groupIds config := by
        rw [hs.map_id_outcome (h.sets ▸ ReplicaSet.pairwise_ofNodes _) ho, h.sets]
        rfl
      rcases hc : round.collect with ⟨collected, outcome⟩
      rw [hc] at ht ho
      dsimp only
      split
      · exact ht
      · rename_i f
        exact ht.endRefresh t (.error f)
      · rename_i resolved
        have hi := ht.install (ho resolved rfl)
        exact hi.endRefresh t ((r.setStage t (.probing collected.state)).install resolved).1
    · exact h
  · exact h

theorem Steady.onRound {f : Round → Round.Reaction} (h : r.Steady config)
    (hf : ∀ round, round.Sane r.sets → (f round).state.Sane r.sets) :
    (r.onRound t f).state.Steady config := by
  unfold Router.onRound
  split
  · rename_i u round rest hr
    split
    · have hs : round.Sane r.sets := h.rounds u round (hr ▸ List.mem_cons_self)
      exact h.setStage fun _ he => by
        cases he
        exact hf round hs
    · exact h
  · exact h

theorem Steady.abandon (h : r.Steady config) : (r.abandon t).state.Steady config := by
  unfold Router.abandon
  split
  · rename_i u s rest hr
    split
    · exact (h.sub (hr ▸ List.subset_cons_self _ _)).wakeFirst
    · exact h.sub List.filter_sublist.subset
  · exact h

theorem Steady.shutdown {now : Nat} (h : r.Steady config) :
    (r.shutdown now).state.Steady config := by
  unfold Router.shutdown
  split
  · exact h
  · exact { h with }

theorem Steady.step (h : r.Steady config) (now : Nat) (m : Move) :
    (r.step now m).state.Steady config := by
  cases m with
  | refresh t => exact h.refresh
  | resume t => exact h.resume
  | probed t i j role => exact h.onRound fun round hr => hr.answer
  | brokeOff t i reason => exact h.onRound fun round hr => hr.breakOff
  | abandon t => exact h.abandon
  | shutdown => exact h.shutdown
  | pool i m => exact { h with }

/-- A router that starts has seated its groups, and has nothing in progress. -/
theorem ofResolved_eq_ok {background : Bool} {r : Router} {told : List Effect}
    (h : ofResolved config background resolved = (.ok r, told)) :
    ∃ slots opened x, seat resolved { tuning := config.pool, background } = (.ok slots, opened) ∧
      Index.build keyHash config.routing 1 slots = .ok x ∧
      r = {
        config
        sets := ReplicaSet.ofNodes config.nodeList
        fleet := opened.state
        current := x
        generation := 1 } ∧
      told = opened.effects ++ [.notice (.routerReady x.size opened.state.size)] := by
  unfold ofResolved at h
  split at h
  · cases h
  · rcases hs : seat resolved { tuning := config.pool, background } with ⟨slots, opened⟩
    rw [hs] at h
    dsimp only at h
    split at h
    · cases h
    · rename_i x hx
      obtain ⟨slots, rfl, hx⟩ := exists_of_bind_eq_ok hx
      cases h
      exact ⟨slots, opened, x, rfl, hx, rfl, rfl⟩

theorem steady_ofResolved {background : Bool} {told : List Effect}
    (hr : resolved.map (·.id) = groupIds config)
    (h : ofResolved config background resolved = (.ok r, told)) : r.Steady config := by
  obtain ⟨slots, opened, x, hs, hb, rfl, -⟩ := ofResolved_eq_ok h
  exact ⟨rfl, rfl, over_of_seat hr hs hb, by simp⟩

/-- A registry that is not closed has or opens a pool for every master. -/
theorem exists_seat {f : Fleet} (hf : f.closed = false) (resolved : List ResolvedGroup) :
    ∃ slots opened, seat resolved f = (.ok slots, opened) := by
  induction resolved generalizing f with
  | nil => exact ⟨_, _, rfl⟩
  | cons g resolved ih =>
      have hs := seats g resolved f
      cases hg : g.master with
      | none =>
          obtain ⟨slots, opened, hs⟩ := ih hf
          exact ⟨_, _, by rw [seat, hg, hs]; rfl⟩
      | some m =>
          obtain ⟨id, opened, ho, hc⟩ : ∃ id opened, f.getOrOpen m = .ok (id, opened) ∧
              opened.state.closed = false := by
            unfold Fleet.getOrOpen
            rw [if_neg (by simp [hf])]
            split
            · exact ⟨_, _, rfl, hf⟩
            · exact ⟨_, _, rfl, hf⟩
          obtain ⟨slots, rest, hs⟩ := ih hc
          exact ⟨_, _, by simp only [seat, hg, ho, hs]; rfl⟩

/-- A router starts if all of its groups are resolved and have a member that answered. -/
theorem exists_ofResolved (config : Config.Cluster) (background : Bool)
    (resolved : List ResolvedGroup) (hn : groupIds config ≠ [])
    (hr : resolved.map (·.id) = groupIds config) (ha : ∀ g ∈ resolved, g.isReachable) :
    ∃ r told, ofResolved config background resolved = (.ok r, told) := by
  have hf : resolved.find? (!·.isReachable) = none :=
    List.find?_eq_none.mpr fun g hg => by simp [ha g hg]
  obtain ⟨slots, opened, hs⟩ :=
    exists_seat (f := { tuning := config.pool, background }) rfl resolved
  have hi : Index.ids slots = groupIds config := ids_of_seat hr hs
  have ho : (Index.ids slots).Pairwise (· < ·) := hi ▸ ReplicaSet.pairwise_ofNodes _
  obtain ⟨x, hx⟩ := Index.exists_build keyHash config.routing 1 (hi ▸ hn) (nodup_of_pairwise_lt ho)
  have hb :
      (Except.ok slots : Except Fault _).bind (Index.build keyHash config.routing 1) = .ok x := hx
  unfold ofResolved
  rw [hf, hs]
  dsimp only
  rw [hb]
  exact ⟨_, _, rfl⟩

theorem plan_eq_ok {sets : List ReplicaSet} (h : plan config = .ok sets) :
    config.check = .ok () ∧ sets = ReplicaSet.ofNodes config.nodeList := by
  unfold plan at h
  cases hc : config.check with
  | error f => rw [hc] at h; cases h
  | ok u => rw [hc] at h; cases h; exact ⟨rfl, rfl⟩

theorem Reachable.steady (h : Reachable config r) : r.Steady config := by
  induction h with
  | launch hp hr ho hs =>
      obtain ⟨-, rfl⟩ := plan_eq_ok hp
      refine steady_ofResolved ?_ hs
      rw [hr.sane.map_id_outcome (ReplicaSet.pairwise_ofNodes _) ho]
      rfl
  | step now m _ ih => exact ih.step now m

theorem Reachable.check (h : Reachable config r) : config.check = .ok () := by
  induction h with
  | launch hp _ _ _ => exact (plan_eq_ok hp).1
  | step _ _ _ ih => exact ih

theorem Reachable.play (h : Reachable config r) (moves : List (Nat × Move)) :
    Reachable config (r.play moves) := by
  induction moves generalizing r with
  | nil => exact h
  | cons m moves ih => exact ih (h.step m.1 m.2)

/-! ## Owners -/

theorem mem_groupIds {g : GroupId} : g ∈ groupIds config ↔ ∃ e ∈ config.nodes, e.group = g := by
  simp [groupIds, ReplicaSet.mem_map_id_ofNodes, Config.Cluster.nodeList, Config.NodeEntry.node]

/-- A configuration that passes the check has groups, and points on a ring. -/
theorem usable_of_check (h : config.check = .ok ()) :
    groupIds config ≠ [] ∧ config.routing.Valid := by
  unfold Config.Cluster.check at h
  split at h
  · cases h
  · rename_i hf
    unfold Config.Cluster.flaw? at hf
    split at hf
    · cases hf
    · rename_i hn
      obtain ⟨e, he⟩ := List.exists_mem_of_ne_nil _ hn
      refine ⟨List.ne_nil_of_mem (mem_groupIds.mpr ⟨e, he, rfl⟩), fun hs => ?_⟩
      simp only [Option.or_eq_none_iff] at hf
      obtain ⟨-, -, hr, -⟩ := hf
      unfold Config.Routing.flaw? at hr
      split at hr
      · cases hr
      · rename_i hv
        exact Nat.pos_of_ne_zero fun h0 => hv ⟨hs, h0⟩

/-- Two routers whose configurations have the same groups and route in the same way give every key
the same owner, one of those groups, whatever happened to each of them. -/
theorem owner_eq {c c' : Config.Cluster} {r r' : Router} (h : Reachable c r)
    (h' : Reachable c' r') (hr : c.routing = c'.routing)
    (hg : ∀ g, (∃ e ∈ c.nodes, e.group = g) ↔ ∃ e ∈ c'.nodes, e.group = g) (key : Bytes) :
    ∃ g, (∃ e ∈ c.nodes, e.group = g) ∧ (r.current.slotFor? key).map (·.group.id) = some g ∧
      (r'.current.slotFor? key).map (·.group.id) = some g := by
  have hi : groupIds c = groupIds c' :=
    eq_of_mem_iff (ReplicaSet.pairwise_ofNodes _) (ReplicaSet.pairwise_ofNodes _) fun g => by
      have := hg g
      rwa [← mem_groupIds, ← mem_groupIds] at this
  obtain ⟨hn, hv⟩ := usable_of_check h.check
  obtain ⟨g, ho⟩ := Option.isSome_iff_exists.mp (ownerOf_isSome (h := keyHash key) hn hv)
  refine ⟨g, mem_groupIds.mp (mem_of_ownerOf ho), ?_, ?_⟩
  · rw [Index.slotFor?, h.steady.current.map_slotAt?, ho]
  · rw [Index.slotFor?, h'.steady.current.map_slotAt?, ← hi, ← hr, ho]

/-- Two groups with a node each. -/
def pair : Config.Cluster := { nodes := [⟨"a", 7000, 1, 2000⟩, ⟨"b", 7000, 2, 2000⟩] }

/-- The same groups the other way round, one of them with a second node. -/
def trio : Config.Cluster :=
  { nodes := [⟨"b", 7000, 2, 2000⟩, ⟨"a", 7000, 1, 2000⟩, ⟨"c", 7000, 2, 500⟩] }

/-- Both nodes of `pair` are masters. -/
def pairGroups : List ResolvedGroup :=
  [⟨1, some ⟨⟨"a", 7000⟩, 1, .ofMillis 2000⟩, [], []⟩,
    ⟨2, some ⟨⟨"b", 7000⟩, 2, .ofMillis 2000⟩, [], []⟩]

/-- The second node of a group of `trio` is a replica. -/
def trioGroups : List ResolvedGroup :=
  [⟨1, some ⟨⟨"a", 7000⟩, 1, .ofMillis 2000⟩, [], []⟩,
    ⟨2, some ⟨⟨"b", 7000⟩, 2, .ofMillis 2000⟩, [⟨⟨"c", 7000⟩, 2, .ofMillis 500⟩], []⟩]

theorem exists_launch_pair :
    ∃ sets round started told, plan pair = .ok sets ∧ Round.Runs sets round ∧
      round.collect.2 = some (.ok pairGroups) ∧
      ofResolved pair false pairGroups = (.ok started, told) := by
  obtain ⟨started, told, hs⟩ :=
    exists_ofResolved pair false pairGroups (by decide) (by decide) (by decide)
  exact ⟨_, _, started, told, rfl, (Round.Runs.start.answer 1 0 .master).answer 0 0 .master, rfl,
    hs⟩

theorem exists_launch_trio :
    ∃ sets round started told, plan trio = .ok sets ∧ Round.Runs sets round ∧
      round.collect.2 = some (.ok trioGroups) ∧
      ofResolved trio false trioGroups = (.ok started, told) := by
  obtain ⟨started, told, hs⟩ :=
    exists_ofResolved trio false trioGroups (by decide) (by decide) (by decide)
  exact ⟨_, _, started, told, rfl,
    ((Round.Runs.start.answer 1 1 (.replica none)).answer 0 0 .master).answer 1 0 .master, rfl, hs⟩

/-- A refresh by which one group has lost its only node, and the other one has a new master. -/
def failover : List (Nat × Move) :=
  [(0, .refresh 0), (2, .probed 0 1 1 .master), (3, .probed 0 0 0 (.unreachable "refused")),
    (4, .probed 0 1 0 (.replica none)), (4, .resume 0)]

theorem owner_eq_failover :
    ∃ r r' : Router, Reachable pair r ∧ Reachable trio (r'.play failover) ∧
      ∀ key, ∃ g, (∃ e ∈ pair.nodes, e.group = g) ∧
        (r.current.slotFor? key).map (·.group.id) = some g ∧
        ((r'.play failover).current.slotFor? key).map (·.group.id) = some g := by
  obtain ⟨_, _, _, _, hp, hn, ho, hs⟩ := exists_launch_pair
  obtain ⟨_, _, _, _, hp', hn', ho', hs'⟩ := exists_launch_trio
  have h := Reachable.launch hp hn ho hs
  have h' := (Reachable.launch hp' hn' ho' hs').play failover
  have hg : groupIds pair = groupIds trio := by decide
  exact ⟨_, _, h, h', owner_eq h h' rfl fun g => by rw [← mem_groupIds, hg, mem_groupIds]⟩

end Shardway.Router
