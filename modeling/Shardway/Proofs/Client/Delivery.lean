import Shardway.Proofs.Client.Attempts

/-!
# Requests and masters

All along the stories of a client, its requests go to elected masters only. Each move of the client
is one move of a pool at most, or one that opens or closes pools without any call hearing of it.
-/

namespace Shardway.Client

open Router (Chosen Reachable Updates Plain)

/-- The pools and the calls of a client, with all that has happened so far. -/
structure Tracked (config : Config.Cluster) (pools : List Pool) (c : Client) (now : Nat)
    (past : List Event) : Prop where
  sound : Sound pools now past
  orderly : Orderly config pools c past

variable {config : Config.Cluster} {pools : List Pool} {p : Pool} {i : PoolId} {c c' : Client}
  {past es : List Event} {t : Ticket} {link : Link} {now now' : Nat} {f : Fleet} {m : Pool.Move}

theorem Tracked.pass (h : Tracked config pools c now past) (hc : ∀ t, c'.find? t = c.find? t)
    (hn : now ≤ now') (hm : Mute es) (hs : ∀ t, Silent t es) :
    Tracked config pools c' now' (past ++ es) :=
  ⟨h.sound.pass hn hm, h.orderly.quiet hc h.orderly.waits (fun _ p hi => ⟨p, hi, rfl⟩) hs⟩

theorem Tracked.later (h : Tracked config pools c now past) (hn : now ≤ now') :
    Tracked config pools c now' past := by
  have hp : Tracked config pools c now' (past ++ []) :=
    h.pass (fun _ => rfl) hn (by simp [Mute]) (by simp [Silent])
  rwa [List.append_nil] at hp

/-! ## Moves of pools -/

theorem Tracked.move (h : Tracked config pools c now past) (hp : pools[i]? = some p)
    (hf : (f.pools[i]?).map Pool.addr = some p.addr) (hn : now ≤ now')
    (ha : Pool.Story.Admits ⟨p, now, poolPast i past⟩ m)
    (hb : ∀ t w, m.begun? = some (t, w) → ∀ call, c.find? t = some call →
      call.stage.awaits? = some (i, w)) :
    Tracked config (pools.set i (p.step now' m).state)
      (hearAll ((p.step now' m).effects.map (.pool i)) c).state now'
      (past ++ (p.inputs m).map (.came i m) ++
        (hearAll ((p.step now' m).effects.map (.pool i)) c).effects.map (Event.ofEffect f)) := by
  have ht := tells_hearAll hf (p.step now' m).effects c
  have hs := h.sound.move hp hn ha ht
  exact ⟨hs, h.orderly.move hp (ha.accepts.course now') hb rfl ht.came hs⟩

theorem onPool_of_none (hp : c.router.fleet.pools[i]? = none) : c.onPool now i m = ⟨c, []⟩ := by
  simp [onPool, onRouter, Router.stepPool, Fleet.step, hp, hearAll, Reaction.lift]

theorem onPool_of_some (hp : c.router.fleet.pools[i]? = some p) :
    c.onPool now i m = hearAll ((p.step now m).effects.map (.pool i))
      { c with router := { c.router with fleet := { c.router.fleet with
          pools := c.router.fleet.pools.set i (p.step now m).state } } } := by
  simp [onPool, onRouter, Router.stepPool, Fleet.step, hp, Reaction.lift]

theorem Tracked.onPool (h : Tracked config c.router.fleet.pools c now past) (hn : now ≤ now')
    (ha : ∀ p, c.router.fleet.pools[i]? = some p →
      Pool.Story.Admits ⟨p, now, poolPast i past⟩ m)
    (hb : ∀ t w, m.begun? = some (t, w) → ∀ call, c.find? t = some call →
      call.stage.awaits? = some (i, w)) :
    Tracked config (c.onPool now' i m).state.router.fleet.pools (c.onPool now' i m).state now'
      (past ++ arrived c.router.fleet.pools i m ++
        (c.onPool now' i m).effects.map (Event.ofEffect c.router.fleet)) := by
  unfold arrived
  cases hp : c.router.fleet.pools[i]? with
  | none =>
      rw [onPool_of_none hp, List.append_assoc]
      exact h.pass (fun _ => rfl) hn (by simp [Mute]) (by simp [Silent])
  | some p =>
      rw [onPool_of_some hp, hearAll_router]
      have hf : (c.router.fleet.pools[i]?).map Pool.addr = some p.addr := by rw [hp]; rfl
      have hc : Tracked config c.router.fleet.pools { c with router := { c.router with
          fleet := { c.router.fleet with
            pools := c.router.fleet.pools.set i (p.step now' m).state } } } now past :=
        ⟨h.sound, { h.orderly with }⟩
      exact hc.move hp hf hn (ha p hp) hb

/-! ## Moves of calls -/

/-- A call that waits on no pool begins an attempt. -/
theorem Tracked.attempt (call : Call) (h : Tracked config c.router.fleet.pools c now past)
    (hr : Reachable config c.router) (hn : now ≤ now')
    (hw : ∀ (i : PoolId) p w, c.router.fleet.pools[i]? = some p → ¬p.Waits t w) :
    Tracked config (c.attempt now' t call).state.router.fleet.pools (c.attempt now' t call).state
      now' (past ++ [.begun t call.key call.request c.router.current] ++
        (match c.router.route call.key with
          | .error _ => []
          | .ok i => arrived c.router.fleet.pools i (.borrow t)) ++
        (c.attempt now' t call).effects.map (Event.ofEffect c.router.fleet)) := by
  have hm : Mute [.begun t call.key call.request c.router.current] := by
    simp [Mute, Event.ofPool?]
  unfold Client.attempt
  cases hk : c.router.route call.key with
  | error e =>
      have hs := settles_settle t call (.error e) c
      have ho : Orderly config c.router.fleet.pools (c.settle t call (.error e)).state
          (past ++ [.begun t call.key call.request c.router.current]) :=
        h.orderly.begin hs.others hw fun call' i hf hb => absurd hb (hs.not_borrowing hf)
      rw [List.append_nil]
      refine ⟨?_, ?_⟩
      · rw [hs.router]
        exact (h.sound.pass hn hm).pass (Nat.le_refl _) hs.mute
      · rw [hs.router]
        exact ho.silent fun u => hs.silent
  | ok i =>
      obtain ⟨m, hch⟩ := hr.chosen_of_route hk
      have ho : Orderly config c.router.fleet.pools (c.put t { call with stage := .borrowing i })
          (past ++ [.begun t call.key call.request c.router.current]) := by
        refine h.orderly.begin (fun u hu => find?_put_of_ne hu) hw fun call' k hf hb => ?_
        cases find?_put.symm.trans hf
        cases hb
        exact ⟨rfl, rfl, m, hch⟩
      have hc : Tracked config c.router.fleet.pools (c.put t { call with stage := .borrowing i }) now'
          (past ++ [.begun t call.key call.request c.router.current]) :=
        ⟨h.sound.pass hn hm, ho⟩
      refine hc.onPool (Nat.le_refl _) (fun p hp => ⟨?_, by simp [Pool.inputs]⟩) ?_
      · exact Pool.waiting?_eq_none_of_not_waits fun w => hw i p w hp
      · intro u w hu call' hf
        cases hu
        cases find?_put.symm.trans hf
        rfl

/-- A call returns its connection. -/
theorem Tracked.giveBack {call : Call} (outcome : Except Fault Reply) (healthy : Bool)
    (h : Tracked config c.router.fleet.pools c now past) (hn : now ≤ now')
    (hc : c.find? t = some call) (hs : call.stage = .running i link)
    (hl : ∀ p, c.router.fleet.pools[i]? = some p → link ∈ p.lent) :
    Tracked config
      ((c.put t { call with stage := .returning i outcome }).onPool now' i
        (.giveBack t link healthy)).state.router.fleet.pools
      ((c.put t { call with stage := .returning i outcome }).onPool now' i
        (.giveBack t link healthy)).state now'
      (past ++ arrived c.router.fleet.pools i (.giveBack t link healthy) ++
        ((c.put t { call with stage := .returning i outcome }).onPool now' i
          (.giveBack t link healthy)).effects.map (Event.ofEffect c.router.fleet)) := by
  have hw (j : PoolId) (p : Pool) (w : Pool.Waiting) (hp : c.router.fleet.pools[j]? = some p) :
      ¬p.Waits t w := fun hw => by
    have := h.orderly.waits t call hc j p w hp hw
    rw [hs] at this
    cases this
  have ho : Orderly config c.router.fleet.pools
      (c.put t { call with stage := .returning i outcome }) past := by
    refine h.orderly.change (fun u hu => find?_put_of_ne hu) hw fun call' j hf => ?_
    cases find?_put.symm.trans hf
    simp
  have ht : Tracked config c.router.fleet.pools
      (c.put t { call with stage := .returning i outcome }) now past := ⟨h.sound, ho⟩
  refine ht.onPool hn (fun p hp => ⟨⟨?_, hl p hp⟩, by simp [Pool.inputs, Pool.Event.opened?]⟩) ?_
  · exact Pool.waiting?_eq_none_of_not_waits fun w => hw i p w hp
  · intro u w hu call' hf
    cases hu
    cases find?_put.symm.trans hf
    rfl

/-! ## Moves of the router -/

theorem mute_of_plain {es : List Effect} (h : Plain es) : Mute (es.map (Event.ofEffect f)) := by
  intro x hx j
  obtain ⟨e, he, rfl⟩ := List.mem_map.mp hx
  have hp := h e he
  cases e with
  | pool i e => exact hp.elim
  | _ => rfl

theorem silent_of_plain {es : List Effect} (h : Plain es) :
    Silent t (es.map (Event.ofEffect f)) :=
  silent_ofEffect fun _ _ _ hm => h _ hm

theorem not_waits_ofNode {n : Node} {tuning : Config.PoolTuning} {w : Pool.Waiting} :
    ¬(Pool.ofNode n tuning).Waits t w := by
  cases w <;> simp [Pool.Waits, Pool.ofNode, Pool.find?]

/-- A refresh opens pools at most, and tells no call of it. -/
theorem Tracked.onRouter {move : Router → Router.Reaction}
    (h : Tracked config c.router.fleet.pools c now past) (hn : now ≤ now')
    (hu : Updates c.router (move c.router).state) (hp : Plain (move c.router).effects) :
    Tracked config (c.onRouter move).state.router.fleet.pools (c.onRouter move).state now'
      (past ++ (c.onRouter move).effects.map (Event.ofEffect c.router.fleet)) := by
  obtain ⟨nodes, hg, -⟩ := hu.gains
  unfold Client.onRouter
  rw [hearAll_of_not_ended fun i e he => (hp _ he).elim]
  dsimp only
  rw [hg]
  refine ⟨h.sound.grow hn nodes _ (mute_of_plain hp), ?_⟩
  refine h.orderly.quiet (fun _ => rfl) (fun t call hc i p w hi hw => ?_) (fun i p hi => ?_)
    fun t => silent_of_plain hp
  · -- A call waits on none of the new pools.
    by_cases hl : i < c.router.fleet.pools.length
    · rw [List.getElem?_append_left hl] at hi
      exact h.orderly.waits t call hc i p w hi hw
    · rw [List.getElem?_append_right (Nat.le_of_not_lt hl)] at hi
      obtain ⟨n, -, rfl⟩ := List.mem_map.mp (List.mem_of_getElem? hi)
      exact absurd hw not_waits_ofNode
  · exact ⟨p, (List.getElem?_append_left (List.getElem?_eq_some_iff.mp hi).1).trans hi, rfl⟩

theorem Tracked.shutdownPool (h : Tracked config pools c now past) (hp : pools[i]? = some p)
    (hf : (f.pools[i]?).map Pool.addr = some p.addr) :
    Tracked config (pools.set i p.shutdown.state) c now
      (past ++ (p.shutdown.effects.map (.pool i)).map (Event.ofEffect f)) := by
  have hm := h.move (m := .shutdown) hp hf (Nat.le_refl now) ⟨trivial, by simp [Pool.inputs]⟩
    (by simp [Pool.Move.begun?])
  have he : Pool.endings (p.step now .shutdown).effects = [] := Pool.endings_shutdown
  rw [hearAll_of_endings_nil he] at hm
  simpa only [Pool.inputs, Pool.step, List.map_nil, List.append_nil] using hm

/-- Pools are shut down one after the other, which ends no operation. -/
theorem Tracked.shutdownEach {g : Fleet} (ids : List PoolId)
    (h : Tracked config g.pools c now past)
    (hf : ∀ (i : PoolId) p, g.pools[i]? = some p → (f.pools[i]?).map Pool.addr = some p.addr) :
    Tracked config (g.shutdownEach now ids).state.pools c now
        (past ++ (g.shutdownEach now ids).effects.map (Event.ofEffect f)) ∧
      ∀ j e, .pool j e ∈ (g.shutdownEach now ids).effects → e.ended? = none := by
  induction ids generalizing g past with
  | nil => simpa [Fleet.shutdownEach] using h
  | cons i ids ih =>
      simp only [Fleet.shutdownEach, Reaction.andThen_state, Reaction.andThen_effects]
      cases hp : g.pools[i]? with
      | none =>
          have hs : g.step now i .shutdown = ⟨g, []⟩ := by simp [Fleet.step, hp]
          rw [hs]
          exact ih h hf
      | some p =>
          have hs : g.step now i .shutdown =
              ⟨{ g with pools := g.pools.set i p.shutdown.state }, p.shutdown.effects.map (.pool i)⟩ := by
            simp [Fleet.step, hp, Pool.step, Reaction.lift]
          have hf' (j : PoolId) (q : Pool) (hj : (g.pools.set i p.shutdown.state)[j]? = some q) :
              (f.pools[j]?).map Pool.addr = some q.addr := by
            rcases pool_of_set hj with ⟨rfl, rfl⟩ | ⟨-, hj⟩
            · rw [hf i p hp, Pool.addr, Pool.addr, Pool.course_shutdown.node]
            · exact hf j q hj
          obtain ⟨ht, hh⟩ := ih (g := { g with pools := g.pools.set i p.shutdown.state })
            (h.shutdownPool hp (hf i p hp)) hf'
          rw [hs, List.map_append, ← List.append_assoc]
          refine ⟨ht, fun j e hje => ?_⟩
          rcases List.mem_append.mp hje with hje | hje
          · obtain ⟨e', he', heq⟩ := List.mem_map.mp hje
            cases heq
            exact Pool.ended?_eq_none Pool.endings_shutdown he'
          · exact hh j e hje

theorem Tracked.shutdown (h : Tracked config c.router.fleet.pools c now past) (hn : now ≤ now') :
    Tracked config (c.onRouter (Router.shutdown now')).state.router.fleet.pools
      (c.onRouter (Router.shutdown now')).state now'
      (past ++ (c.onRouter (Router.shutdown now')).effects.map (Event.ofEffect c.router.fleet)) := by
  have hl := h.later hn
  cases hc : c.router.closed with
  | true =>
      have hs : c.onRouter (Router.shutdown now') = ⟨c, []⟩ := by
        simp [Client.onRouter, Router.shutdown, hc, hearAll]
      rw [hs, List.map_nil, List.append_nil]
      exact hl
  | false =>
      have hf (i : PoolId) (p : Pool) (hp : c.router.fleet.pools[i]? = some p) :
          (c.router.fleet.pools[i]?).map Pool.addr = some p.addr := by rw [hp]; rfl
      obtain ⟨ht, he⟩ := hl.shutdownEach
        (g := { c.router.fleet with registered := [], closed := true })
        (c.router.fleet.registered.map (·.2)) hf
      unfold Client.onRouter Router.shutdown Fleet.shutdownAll
      simp only [hc, Bool.false_eq_true, if_false, Reaction.tell_effects, Reaction.lift_effects,
        List.map_id_fun, id_eq]
      rw [hearAll_of_not_ended fun j e hje => ?_]
      · rw [List.map_append, ← List.append_assoc]
        exact ht.pass (fun _ => rfl) (Nat.le_refl _) (mute_of_plain (by simp [Plain]))
          fun t => silent_of_plain (by simp [Plain])
      · exact he j e (by simpa using hje)

/-! ## Stories -/

namespace Story

variable {s : Story} {m : Move}

/-- What holds all along a story. -/
structure Kept (config : Config.Cluster) (s : Story) : Prop where
  reachable : Reachable config s.client.router
  tracked : Tracked config s.pools s.client s.now s.past

theorem kept_launch {sets : List ReplicaSet} {round : Round} {background : Bool}
    {resolved : List ResolvedGroup} {started : Router} {told : List Effect}
    (hp : Router.plan config = .ok sets) (hr : Round.Runs sets round)
    (ho : round.collect.2 = some (.ok resolved))
    (hs : Router.ofResolved config background resolved = (.ok started, told)) :
    Kept config { client := ⟨started, []⟩ } where
  reachable := .launch hp hr ho hs
  tracked := {
    sound := sound_ofResolved hs
    orderly := {
      waits := fun _ _ hc => by simp [Client.find?, Pool.find?] at hc
      routed := fun _ _ _ hc => by simp [Client.find?, Pool.find?] at hc
      sent := by simp } }

theorem Kept.tracked_attempt (call : Call) (h : s.Kept config) (hn : s.now ≤ now)
    (ha : s.client.attempt? m = some (t, call))
    (hp : s.client.poolMove? m =
      (s.client.router.route call.key).toOption.map fun i => (i, .borrow t))
    (hs : s.client.step now m = s.client.attempt now t call)
    (hw : ∀ (i : PoolId) p w, s.pools[i]? = some p → ¬p.Waits t w) :
    Tracked config (s.client.step now m).state.router.fleet.pools (s.client.step now m).state now
      (s.past ++ s.news now m) := by
  have ht : Tracked config s.client.router.fleet.pools s.client s.now s.past := h.tracked
  have hd := ht.attempt call h.reachable hn hw
  unfold news beginnings arrivals
  rw [ha, hp, hs]
  cases hk : s.client.router.route call.key <;> rw [hk] at hd <;>
    simpa only [Option.map_some, Option.toList_some, Except.toOption, Option.map_none,
      List.append_assoc, Story.pools] using hd

/-- A move for which no call waits does nothing. -/
theorem Kept.tracked_idle (h : s.Kept config) (hn : s.now ≤ now)
    (ha : s.client.attempt? m = none) (hp : s.client.poolMove? m = none)
    (hs : s.client.step now m = ⟨s.client, []⟩) :
    Tracked config (s.client.step now m).state.router.fleet.pools (s.client.step now m).state now
      (s.past ++ s.news now m) := by
  have hl : Tracked config s.client.router.fleet.pools s.client now s.past := h.tracked.later hn
  unfold news beginnings arrivals
  rw [ha, hp, hs]
  simpa using hl

theorem Kept.tracked_replied {outcome : Except Fault Reply} (h : s.Kept config)
    (hn : s.now ≤ now) (ha : s.Admits (.replied t outcome)) :
    Tracked config (s.client.step now (.replied t outcome)).state.router.fleet.pools
      (s.client.step now (.replied t outcome)).state now (s.past ++ s.news now (.replied t outcome)) := by
  have ht : Tracked config s.client.router.fleet.pools s.client s.now s.past := h.tracked
  cases hc : s.client.find? t with
  | none => exact h.tracked_idle hn rfl (by simp [poolMove?, hc]) (by simp [step, replied, hc])
  | some call =>
      cases hs : call.stage with
      | running i link =>
          have hg := ht.giveBack outcome (isHealthy outcome) hn hc hs (ha call i link hc hs)
          have hp : s.client.poolMove? (.replied t outcome) =
              some (i, .giveBack t link (isHealthy outcome)) := by simp [poolMove?, hc, hs]
          have hx : s.client.step now (.replied t outcome) =
              (s.client.put t { call with stage := .returning i outcome }).onPool now i
                (.giveBack t link (isHealthy outcome)) := by simp [step, replied, hc, hs]
          unfold news beginnings arrivals
          rw [hp, hx]
          simpa [attempt?, Story.pools] using hg
      | _ =>
          exact h.tracked_idle hn rfl (by simp [poolMove?, hc, hs])
            (by simp [step, replied, hc, hs])

theorem Kept.tracked_woken (h : s.Kept config) (hn : s.now ≤ now) :
    Tracked config (s.client.step now (.woken t)).state.router.fleet.pools
      (s.client.step now (.woken t)).state now (s.past ++ s.news now (.woken t)) := by
  cases hc : s.client.find? t with
  | none =>
      exact h.tracked_idle hn (by simp [attempt?, hc]) (by simp [poolMove?, attempt?, hc])
        (by simp [step, woken, hc])
  | some call =>
      cases hs : call.stage with
      | pausing =>
          refine h.tracked_attempt call hn (t := t) ?_ ?_ ?_ fun i p w hp hw => ?_
          · simp only [attempt?, hc, hs]
          · simp only [poolMove?, attempt?, hc, hs, Option.bind_some]
          · simp only [step, woken, hc, hs]
          · have hb := h.tracked.orderly.waits t call hc i p w hp hw
            rw [hs] at hb
            cases hb
      | _ =>
          exact h.tracked_idle hn (by simp [attempt?, hc, hs])
            (by simp [poolMove?, attempt?, hc, hs]) (by simp [step, woken, hc, hs])

theorem Kept.tracked_step (h : s.Kept config) (hn : s.now ≤ now) (ha : s.Admits m) :
    Tracked config (s.client.step now m).state.router.fleet.pools (s.client.step now m).state now
      (s.past ++ s.news now m) := by
  have ht : Tracked config s.client.router.fleet.pools s.client s.now s.past := h.tracked
  have hr := h.reachable.running
  cases m with
  | call t key request attempts =>
      refine h.tracked_attempt _ hn rfl rfl rfl fun i p w hp => ?_
      exact Pool.not_waits_of_waiting? (ha.2 p (List.mem_of_getElem? hp)) w
  | replied t outcome => exact h.tracked_replied hn ha
  | woken t => exact h.tracked_woken hn
  | pool i m =>
      have hp := ht.onPool hn ha.2 fun t w hb call hc => by
        rw [ha.1 t w hb] at hc
        cases hc
      rw [List.append_assoc] at hp
      exact hp
  | refresh t => exact ht.onRouter hn hr.refresh Router.plain_refresh
  | resume t => exact ht.onRouter hn hr.resume Router.plain_resume
  | probed t i j role =>
      exact ht.onRouter hn (hr.onRound fun round hr => hr.answer i j role) Router.plain_onRound
  | brokeOff t i reason =>
      exact ht.onRouter hn (hr.onRound fun round hr => hr.breakOff i reason) Router.plain_onRound
  | abandonRefresh t => exact ht.onRouter hn hr.abandon Router.plain_abandon
  | shutdown => exact ht.shutdown hn

theorem Kept.next (h : s.Kept config) (hn : s.now ≤ now) (ha : s.Admits m) :
    (s.next now m).Kept config :=
  ⟨reachable_step h.reachable now m, h.tracked_step hn ha⟩

theorem Runs.kept (h : Runs config s) : s.Kept config := by
  induction h with
  | launch hp hr ho hs => exact kept_launch hp hr ho hs
  | next _ hn ha ih => exact ih.next hn ha

/-! ### A client of one group -/

/-- One group of one node. -/
def solo : Config.Cluster := { nodes := [⟨"a", 7000, 1, 2000⟩] }

def soloGroup : ResolvedGroup := ⟨1, some ⟨⟨"a", 7000⟩, 1, .ofMillis 2000⟩, [], []⟩

theorem next_call {c : Client} {key : Bytes} {request : Request} {attempts : Nat}
    (hr : c.router.route key = .ok i) (past : List Event) :
    Story.next ⟨c, now, past⟩ now' (.call t key request attempts) =
      ⟨((c.put t ⟨key, request, ⟨max attempts 1, 0, firstPause⟩, .borrowing i⟩).onPool now' i
        (.borrow t)).state, now', past ++ (.begun t key request c.router.current ::
          ((c.put t ⟨key, request, ⟨max attempts 1, 0, firstPause⟩, .borrowing i⟩).onPool now' i
            (.borrow t)).effects.map (Event.ofEffect c.router.fleet))⟩ := by
  have ha : arrived c.router.fleet.pools i (.borrow t) = [] := by
    unfold arrived
    split <;> rfl
  simp [Story.next, news, beginnings, arrivals, attempt?, poolMove?, step, call, attempt, hr,
    Story.pools, Except.toOption, ha]

/-- The client of one group starts with one pool, to which every key leads. -/
theorem exists_launch_solo : ∃ r : Router, Runs solo { client := ⟨r, []⟩ } ∧ r.closed = false ∧
    r.refreshes = [] ∧ r.generation = 1 ∧
    r.fleet.pools = [Pool.ofNode ⟨⟨"a", 7000⟩, 1, .ofMillis 2000⟩ solo.pool] ∧
    ∀ key, r.route key = .ok 0 := by
  obtain ⟨r, told, hs⟩ := Router.exists_ofResolved solo false [soloGroup]
    (by decide) (by decide) (by decide)
  have h : Runs solo { client := ⟨r, []⟩ } :=
    .launch rfl (Round.Runs.start.answer 0 0 .master) rfl hs
  have hx : (r.fleet.pools, r.current.slots, r.closed, r.refreshes, r.generation) =
      ([Pool.ofNode ⟨⟨"a", 7000⟩, 1, .ofMillis 2000⟩ solo.pool], [⟨soloGroup, some 0⟩], false,
        [], 1) := by
    have hr : (Router.ofResolved solo false [soloGroup]).1.toOption.map (fun r =>
        (r.fleet.pools, r.current.slots, r.closed, r.refreshes, r.generation)) =
          some ([Pool.ofNode ⟨⟨"a", 7000⟩, 1, .ofMillis 2000⟩ solo.pool],
            [⟨soloGroup, some 0⟩], false, [], 1) := by cbv
    rw [hs] at hr
    exact Option.some.inj hr
  obtain ⟨hp, hslots, ho, hn, hg⟩ : r.fleet.pools = _ ∧ r.current.slots = _ ∧ r.closed = _ ∧
      r.refreshes = _ ∧ r.generation = _ := by simpa using hx
  refine ⟨r, h, ho, hn, hg, hp, fun key => ?_⟩
  have hk := h.kept.reachable
  obtain ⟨slot, hm, -, -, ⟨hn, -⟩ | ⟨m, i, -, hroute, hc⟩⟩ :=
    (hk.aligned ho).route hk.steady hk.check key
  · cases List.mem_singleton.mp (hslots ▸ hm)
    cases hn
  · obtain ⟨slot', hs', -, hi, -⟩ := hc.slot
    have hm' : slot' ∈ r.current.slots := Index.mem_of_slotAt? hs'
    rw [hslots] at hm'
    cases List.mem_singleton.mp hm'
    cases hi
    exact hroute

/-- The client of one group with these calls, after these moves of its pool. -/
def soloAt (r : Router) (moves : List (Nat × Pool.Move)) (calls : List (Ticket × Call))
    (now : Nat) (past : List Event) : Story where
  client :=
    { router := { r with fleet := { r.fleet with
        pools :=
          [((Pool.Story.start ⟨⟨"a", 7000⟩, 1, .ofMillis 2000⟩ solo.pool).play moves).pool] } }
      calls }
  now := now
  past := past

theorem soloAt_nil {r : Router}
    (hp : r.fleet.pools = [Pool.ofNode ⟨⟨"a", 7000⟩, 1, .ofMillis 2000⟩ solo.pool]) :
    soloAt r [] [] 0 [] = { client := ⟨r, []⟩ } := by
  obtain ⟨config, sets, ⟨tuning, background, pools, registered, gone⟩, current, generation, closed,
    refreshes⟩ := r
  cases hp
  rfl

/-- The only call of the client has sent its request. -/
def soloSent (r : Router) : Story :=
  soloAt r [(1, .borrow 0), (1, .connected 0 (.ok 7))]
    [(0, ⟨[1], [[71]], ⟨1, 0, firstPause⟩, .running 0 7⟩)] 1
    [.begun 0 [1] [[71]] r.current, .dialed 0 0 (some ⟨"a", 7000⟩),
      .came 0 (.connected 0 (.ok 7)) (.opened 7), .told (.pool 0 (.lent 0 7)),
      .told (.send 0 0 7 [[71]])]

theorem exists_soloSent : ∃ r : Router, r.closed = false ∧ Runs solo (soloSent r) := by
  obtain ⟨r, h, ho, -, -, hp, hr⟩ := exists_launch_solo
  rw [← soloAt_nil hp] at h
  have h1 := h.next (Nat.zero_le 1) (m := .call 0 [1] [[71]] 1) ⟨rfl, fun p hp => by
    cases List.mem_singleton.mp hp
    rfl⟩
  rw [soloAt, next_call (hr [1])] at h1
  exact ⟨r, ho, h1.next (Nat.le_refl 1) (m := .pool 0 (.connected 0 (.ok 7)))
    ⟨by simp [Pool.Move.begun?], fun p hp => ⟨trivial, fun link _ => List.not_mem_nil⟩⟩⟩

/-! ### Where requests go -/

/-- A pool has had connections to one address only. -/
structure Dedicated (past : List Event) (i : PoolId) (p : Pool) (a : Address) : Prop where
  held : ∀ link ∈ p.links, OpenedTo past i link a
  came : ∀ m link, .came i m (.opened link) ∈ past → OpenedTo past i link a
  dialed : ∀ t b, .dialed i t b ∈ past → b = some a

theorem dedicated_of_sound (h : Sound pools now past) (hp : pools[i]? = some p) :
    Dedicated past i p p.addr where
  held := fun link hl => h.openedTo hp hl
  came := fun m link hm => by
    obtain ⟨q, hq, ho⟩ := h.opened i m link hm
    cases hp.symm.trans hq
    exact ho
  dialed := fun t b hb => by
    obtain ⟨q, hq, rfl⟩ := h.dialed i t b hb
    cases hp.symm.trans hq
    rfl

/-- While a router is not shut down, every key leads to the pool of the elected master of the group
that owns it, which has had connections to that master only, or to the fault that names the group,
if that has no master. So each attempt of a call sends at most one request, which is its own, over a
connection that was opened to the elected master of the group that owned the key by the index with
which the attempt began. -/
theorem sent_to_master (h : Runs config s) :
    (s.client.router.closed = false → ∀ key, ∃ slot ∈ s.client.router.current.slots,
      s.client.router.current.slotFor? key = some slot ∧
      ownerOf config.routing (Router.groupIds config) (keyHash key) = some slot.group.id ∧
      (slot.group.master = none →
        s.client.router.route key = .error (.noMaster slot.group.id)) ∧
      (∀ m, slot.group.master = some m → ∃ i p, s.client.router.route key = .ok i ∧
        s.pools[i]? = some p ∧ Chosen config s.pools s.client.router.current key i m ∧
        Dedicated s.past i p m.addr) ∧
      ∀ text, s.client.router.route key ≠ .error (.invalidTopology text)) ∧
    ∀ before after t i link request, s.past = before ++ .told (.send t i link request) :: after →
      ∃ key index m, lastAttempt? t before = some ⟨key, request, index, 0⟩ ∧
        Chosen config s.pools index key i m ∧ OpenedTo before i link m.addr := by
  have hk := h.kept
  refine ⟨fun ho key => ?_, hk.tracked.orderly.sent⟩
  obtain ⟨slot, hm, hs, hg, hr⟩ :=
    (hk.reachable.aligned ho).route hk.reachable.steady hk.reachable.check key
  refine ⟨slot, hm, hs, hg, ?_⟩
  rcases hr with ⟨hn, hr⟩ | ⟨m, i, hs, hr, hc⟩
  · rw [hn, hr]
    exact ⟨fun _ => rfl, by simp, by simp⟩
  · obtain ⟨p, hp, ha⟩ := hc.pool
    rw [hs, hr]
    refine ⟨by simp, fun m' hm' => ?_, by simp⟩
    cases hm'
    exact ⟨i, p, rfl, hp, hc, ha ▸ dedicated_of_sound hk.tracked.sound hp⟩

theorem sent_to_master_solo :
    ∃ (s : Story) (before : List Event), Runs solo s ∧ s.client.router.closed = false ∧
      s.past = before ++ [.told (.send 0 0 7 [[71]])] ∧
      (∃ key index m, lastAttempt? 0 before = some ⟨key, [[71]], index, 0⟩ ∧
        Chosen solo s.pools index key 0 m ∧ OpenedTo before 0 7 m.addr) ∧
      ∀ key text, s.client.router.route key ≠ .error (.invalidTopology text) := by
  obtain ⟨r, hc, h⟩ := exists_soloSent
  obtain ⟨hr, ht⟩ := sent_to_master h
  refine ⟨_, [.begun 0 [1] [[71]] r.current, .dialed 0 0 (some ⟨"a", 7000⟩),
    .came 0 (.connected 0 (.ok 7)) (.opened 7), .told (.pool 0 (.lent 0 7))], h, hc, rfl,
    ht _ _ _ _ _ _ rfl, fun key text => ?_⟩
  obtain ⟨slot, -, -, -, -, -, hn⟩ := hr hc key
  exact hn text

end Story

end Shardway.Client
