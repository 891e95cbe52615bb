import Shardway.Simulation.Scene
import Shardway.Proofs.Client.Runs
import Shardway.Proofs.Router.Tuning

/-!
# Runs of a world

Whatever happens in the world of a client, the router keeps to its configuration, and every ticker
of a background task has a period.
-/

namespace Shardway.Simulation.World

variable {P : Router → Prop} {config : Config.Cluster} {w w' : World}

/-! ## What is kept -/

/-- The router is of this kind, and all tickers have a period. -/
structure Paced (P : Router → Prop) (w : World) : Prop where
  router : P w.client.router
  evictors : ∀ e ∈ w.evictors, e.ticker.period ≠ 0
  refreshers : ∀ k ∈ w.refreshers, k.ticker.period ≠ 0

theorem Paced.later (h : w.Paced P) (delay : Nat) (x : Happening) : (w.later delay x).Paced P :=
  ⟨h.router, h.evictors, h.refreshers⟩

theorem Paced.soon (h : w.Paced P) (x : Happening) : (w.soon x).Paced P :=
  ⟨h.router, h.evictors, h.refreshers⟩

theorem Paced.issue (h : w.Paced P) : w.issue.2.Paced P :=
  ⟨h.router, h.evictors, h.refreshers⟩

theorem Paced.finish (h : w.Paced P) (t : Ticket) (e : Ending) : (w.finish t e).Paced P :=
  ⟨h.router, h.evictors, h.refreshers⟩

theorem Paced.tell (h : w.Paced P) (n : Notice) : (w.tell n).Paced P :=
  ⟨h.router, h.evictors, h.refreshers⟩

theorem Paced.setRound (h : w.Paced P) (round : Option (Ticket × Round)) :
    ({ w with round } : World).Paced P := ⟨h.router, h.evictors, h.refreshers⟩

theorem Paced.tellAll (h : w.Paced P) (ns : List Notice) :
    (ns.foldl (fun w n => w.tell n) w).Paced P := by
  induction ns generalizing w with
  | nil => exact h
  | cons n ns ih => exact ih (h.tell n)

theorem Paced.queue (h : w.Paced P) (delay : Nat) (x : Happening) :
    (w.queue delay x).Paced P := by
  unfold World.queue
  split
  · exact h.soon x
  · exact h.later delay x

theorem Paced.proceed (h : w.Paced P) (delay : Nat) (x : Happening) :
    (w.proceed delay x).Paced P := by
  unfold World.proceed
  split
  · exact ⟨h.router, h.evictors, h.refreshers⟩
  · exact h.later delay x

/-! ## Tickers -/

theorem advance_period (now : Nat) (k : Ticker) : (k.advance now).period = k.period := by
  unfold Ticker.advance
  split <;> rfl

theorem Paced.mapEvictors {f : Evictor → Evictor} (h : w.Paced P)
    (hf : ∀ e, (f e).ticker.period = e.ticker.period) :
    ({ w with evictors := w.evictors.map f } : World).Paced P := by
  refine ⟨h.router, fun e he => ?_, h.refreshers⟩
  obtain ⟨x, hx, rfl⟩ := List.mem_map.mp he
  rw [hf]
  exact h.evictors x hx

theorem Paced.mapRefreshers {f : Refresher → Refresher} (h : w.Paced P)
    (hf : ∀ k, (f k).ticker.period = k.ticker.period) :
    ({ w with refreshers := w.refreshers.map f } : World).Paced P := by
  refine ⟨h.router, h.evictors, fun k hk => ?_⟩
  obtain ⟨x, hx, rfl⟩ := List.mem_map.mp hk
  rw [hf]
  exact h.refreshers x hx

theorem Paced.endEviction (h : w.Paced P) (t : Ticket) (closed : Nat) :
    (w.endEviction t closed).Paced P := by
  unfold World.endEviction
  split
  · exact h.finish t _
  · exact (h.mapEvictors fun e => by split <;> rfl).queue _ _

theorem Paced.endRefresh (h : w.Paced P) (t : Ticket) (result : Except Fault Unit) :
    (w.endRefresh t result).Paced P := by
  unfold World.endRefresh
  split
  · exact h.finish t _
  · have hm := h.mapRefreshers (f := fun k => if k.refresh = some t then { k with refresh := none }
      else k) fun k => by split <;> rfl
    cases result with
    | ok u => exact hm.queue _ _
    | error f => exact (hm.tell _).queue _ _

theorem Paced.refreshEvery (h : w.Paced P) {period : Nat} (hp : period ≠ 0) :
    (w.refreshEvery period).2.Paced P := by
  have hw : ({ w.issue.2 with refreshers := w.refreshers ++
      [⟨w.tickets, .start .shifted period w.now, none, false⟩] } : World).Paced P := by
    refine ⟨h.router, h.evictors, fun k hk => ?_⟩
    rcases List.mem_append.mp hk with hk | hk
    · exact h.refreshers k hk
    · cases List.mem_singleton.mp hk
      exact hp
  exact hw.later _ _

/-! ## Effects -/

theorem Paced.probeMembers {told : Nat → Role → Happening} {broke : String → Happening}
    (nodes : List Node) (j : Nat) (h : w.Paced P) :
    (probeMembers told broke j nodes w).Paced P := by
  induction nodes generalizing j w with
  | nil => exact h
  | cons n nodes ih =>
      unfold World.probeMembers
      rcases w.cast.next n.addr with ⟨act, cast⟩
      have hc : ({ w with cast } : World).Paced P := ⟨h.router, h.evictors, h.refreshers⟩
      dsimp only
      split
      · split
        · exact hc.soon _
        · exact ih _ (hc.later _ _)
      · exact ih _ (hc.queue _ _)
      · exact ih _ hc

theorem Paced.probeAll {told : Nat → Nat → Role → Happening} {broke : Nat → String → Happening}
    (sets : List ReplicaSet) (i : Nat) (h : w.Paced P) :
    (probeAll told broke i sets w).Paced P := by
  induction sets generalizing i w with
  | nil => exact h
  | cons s sets ih => exact ih _ (h.probeMembers s.members 0)

theorem Paced.onPoolEffect (h : w.Paced P) (i : PoolId) (e : Pool.Effect) :
    (w.onPoolEffect i e).Paced P := by
  cases e with
  | wait t =>
      unfold World.onPoolEffect
      dsimp only
      split
      · exact h.later _ _
      · exact h
  | wake t =>
      have hf : (w.forgetExpiry t).Paced P := ⟨h.router, h.evictors, h.refreshers⟩
      exact hf.soon _
  | ping t link => exact h.proceed _ _
  | connect t => exact h.proceed _ _
  | close link => exact ⟨h.router, h.evictors, h.refreshers⟩
  | notice n => exact h.tell n
  | lent t link => exact h.finish t _
  | failed t f => exact h.finish t _
  | returned t => exact h.finish t _
  | swept t closed => exact h.endEviction t closed

theorem Paced.onEffect (h : w.Paced P) (e : Effect) : (w.onEffect e).Paced P := by
  cases e with
  | notice n => exact h.tell n
  | opened i =>
      unfold World.onEffect
      dsimp only
      split
      · exact h
      · rename_i hn
        have hw : ({ w with evictors := w.evictors ++ [⟨i, .start .kept
            w.client.router.fleet.tuning.evictionIntervalMs w.now, none⟩] } : World).Paced P := by
          refine ⟨h.router, fun e he => ?_, h.refreshers⟩
          rcases List.mem_append.mp he with he | he
          · exact h.evictors e he
          · cases List.mem_singleton.mp he
            exact fun h0 => hn (.inl h0)
        exact hw.later _ _
  | pool i e => exact h.onPoolEffect i e
  | probe t => exact h.probeAll _ 0
  | resume t => exact h.soon _
  | refreshed t result => exact h.endRefresh t result
  | send t i link r => exact h.proceed _ _
  | pause t span => exact h.queue _ _
  | answered t result => exact h.finish t _

theorem Paced.onEffects (es : List Effect) (h : w.Paced P) : (w.onEffects es).Paced P := by
  induction es generalizing w with
  | nil => exact h
  | cons e es ih => exact ih (h.onEffect e)

/-- The router is one that the configuration can lead to, and all tickers have a period. -/
abbrev Fit (config : Config.Cluster) : World → Prop := Paced (Router.Reachable config)

theorem Paced.move (h : w.Fit config) (m : Client.Move) : (w.move m).Fit config := by
  refine Paced.onEffects _ ⟨?_, h.evictors, h.refreshers⟩
  rcases w.client.step_router w.now m with hr | ⟨m', -, hr⟩
  · exact hr ▸ h.router
  · exact hr ▸ .step w.now m' h.router

/-! ## Happenings -/

theorem Paced.evict (h : w.Fit config) (i : PoolId) : (w.evict i).Fit config := by
  unfold World.evict
  split
  · exact h
  · split
    · exact h
    · have hm := h.issue.mapEvictors (f := fun e => if e.pool = i then
          { e with sweep := some w.tickets, ticker := e.ticker.advance w.now } else e) (by
        intro e
        split
        · exact advance_period _ _
        · rfl)
      exact hm.move _

theorem Paced.refreshDue (h : w.Fit config) (name : Ticket) : (w.refreshDue name).Fit config := by
  unfold World.refreshDue
  split
  · exact h
  · dsimp only
    split
    · exact h
    · split
      · exact h.mapRefreshers fun k => by split <;> rfl
      · have hm := h.mapRefreshers (f := fun k => if k.name = name then
            { k with refresh := some w.tickets, ticker := k.ticker.advance w.now } else k) (by
          intro k
          split
          · exact advance_period _ _
          · rfl)
        have hi := hm.issue
        exact hi.move _

theorem Paced.onRound (h : w.Fit config) (f : Round → Round.Reaction) :
    (w.onRound f).Fit config := by
  unfold World.onRound
  split
  · exact h
  · rename_i t round _
    have ht : ((f round).effects.foldl (fun (w : World) n => w.tell n)
        { w with round := some (t, (f round).state) }).Fit config :=
      (h.setRound _).tellAll _
    dsimp only
    split
    · exact ht.soon _
    · exact ht

theorem Paced.collect (h : w.Fit config) : w.collect.Fit config := by
  unfold World.collect
  split
  · exact h
  · rename_i t round _
    rcases round.collect with ⟨collected, outcome⟩
    have ht : (collected.effects.foldl (fun (w : World) n => w.tell n)
        { w with round := some (t, collected.state) }).Fit config :=
      (h.setRound _).tellAll _
    dsimp only
    split
    · exact ht
    · exact (ht.setRound none).finish _ _

theorem Paced.happen (h : w.Fit config) (x : Happening) : (w.happen x).Fit config := by
  have hn (network : Network) : ({ w with network } : World).Fit config :=
    ⟨h.router, h.evictors, h.refreshers⟩
  cases x with
  | move m => exact h.move m
  | connect t i => exact (hn _).move _
  | ping t i link => exact (hn _).move _
  | request t i link r => exact (hn _).move _
  | direct t i link r => exact (hn _).finish t _
  | evict i => exact h.evict i
  | refresh k => exact h.refreshDue k
  | told i j role => exact h.onRound _
  | broke i reason => exact h.onRound _
  | collect => exact h.collect
  | rested t => exact h.finish t _

theorem Paced.dropPools (h : w.Fit config) : w.dropPools.Fit config :=
  Paced.onEffects _ ⟨h.router, h.evictors, h.refreshers⟩

theorem Paced.stopRefreshing (h : w.Fit config) (name : Ticket) :
    (w.stopRefreshing name).Fit config := by
  unfold World.stopRefreshing
  split
  · exact h
  · have hm := h.mapRefreshers (f := fun k => if k.name = name then
      { k with finished := true, refresh := none } else k) fun k => by split <;> rfl
    dsimp only
    split
    · exact hm.move _
    · exact hm

theorem Paced.asClient {s : Scene} (h : s.world.Fit config) : s.asClient.world.Fit config := by
  unfold Scene.asClient
  dsimp only
  split
  · exact h
  · rename_i hp
    exact (h.refreshEvery hp).tell _

/-! ## Runs -/

/-- The worlds that a configuration can lead to. -/
inductive Runs (config : Config.Cluster) : World → Prop
  /-- A router comes into a world without background tasks. -/
  | launch {w : World} {sets : List ReplicaSet} {round : Round} {background : Bool}
      {resolved : List ResolvedGroup} {started : Router} {told : List Effect} :
      w.evictors = [] → w.refreshers = [] →
      Router.plan config = .ok sets → Round.Runs sets round →
      round.collect.2 = some (.ok resolved) →
      Router.ofResolved config background resolved = (.ok started, told) →
      Runs config (({ w with client := ⟨started, []⟩ } : World).onEffects told)
  /-- A client refreshes the router in the background. -/
  | serve {w : World} : Runs config w → Runs config (Scene.asClient { world := w }).world
  | stop {w : World} (name : Ticket) : Runs config w → Runs config (w.stopRefreshing name)
  | happen {w : World} (x : Happening) : Runs config w → Runs config (w.happen x)
  /-- Pools that nobody holds are let go. -/
  | drop {w : World} : Runs config w → Runs config w.dropPools
  /-- All else may change at any time: the clock, the network, what is due, and who holds what. -/
  | outside {w w' : World} : Runs config w → w'.client = w.client → w'.evictors = w.evictors →
      w'.refreshers = w.refreshers → Runs config w'

theorem Runs.fit (h : Runs config w) : w.Fit config := by
  induction h with
  | launch he hk hp hr ho hs =>
      refine Paced.onEffects _ ⟨.launch hp hr ho hs, ?_, ?_⟩
      · simp [he]
      · simp [hk]
  | serve _ ih => exact ih.asClient
  | stop name _ ih => exact ih.stopRefreshing name
  | happen x _ ih => exact ih.happen x
  | drop _ ih => exact ih.dropPools
  | outside _ hc he hk ih => exact ⟨hc ▸ ih.router, he ▸ ih.evictors, hk ▸ ih.refreshers⟩

theorem Runs.check (h : Runs config w) : config.check = .ok () := by
  induction h with
  | launch _ _ hp _ _ _ => exact (Router.plan_eq_ok hp).1
  | serve _ ih => exact ih
  | stop _ _ ih => exact ih
  | happen _ _ ih => exact ih
  | drop _ ih => exact ih
  | outside _ _ _ _ ih => exact ih

end Shardway.Simulation.World
