import Shardway.Proofs.Router.Closing
import Shardway.Proofs.Topology.Answers

/-!
# Stories of a router

A story is a router with all that has happened to it. Refreshes run side by side, and any move may
come next. A move is made of turns, in each of which one refresh does one thing.
-/

namespace Shardway.Router

/-- What happens to a router, seen from outside. -/
inductive Event
  /-- A refresh comes. -/
  | came (t : Ticket)
  | answered (t : Ticket) (i j : Nat) (role : Role)
  | broke (t : Ticket) (i : Nat) (reason : String)
  /-- A refresh is given up. -/
  | left (t : Ticket)
  /-- A refresh has put an index in place. -/
  | renewed (t : Ticket) (index : Index)
  | told (e : Effect)

namespace Event

/-- What an effect is seen as when the router has become `r`. -/
def ofEffect (r : Router) : Effect → Event
  | .refreshed t (.ok ()) => .renewed t r.current
  | e => .told e

/-- No refresh comes, leaves, begins to probe or ends with the event. -/
def IsIdle : Event → Prop
  | answered .. | broke .. => True
  | told (.probe _) | told (.refreshed ..) => False
  | told _ => True
  | _ => False

end Event

structure Story where
  router : Router
  past : List Event := []

namespace Story

/-- What comes to the router with a move. -/
def arrivals : Move → List Event
  | .refresh t => [.came t]
  | .probed t i j role => [.answered t i j role]
  | .brokeOff t i reason => [.broke t i reason]
  | .abandon t => [.left t]
  | _ => []

/-- What a move adds to the past. -/
def news (s : Story) (now : Nat) (m : Move) : List Event :=
  arrivals m ++ (s.router.step now m).effects.map (Event.ofEffect (s.router.step now m).state)

def next (s : Story) (now : Nat) (m : Move) : Story where
  router := (s.router.step now m).state
  past := s.past ++ s.news now m

/-- The story after these moves, each at its time. -/
def play (s : Story) : List (Nat × Move) → Story
  | [] => s
  | (now, m) :: ms => (s.next now m).play ms

/-- Every refresh comes under a new ticket. -/
def Admits (s : Story) : Move → Prop
  | .refresh t => .came t ∉ s.past
  | _ => True

/-- The stories of the routers of a configuration. -/
inductive Runs (config : Config.Cluster) : Story → Prop
  | launch {sets : List ReplicaSet} {round : Round} {background : Bool}
      {resolved : List ResolvedGroup} {started : Router} {told : List Effect} :
      plan config = .ok sets → Round.Runs sets round → round.collect.2 = some (.ok resolved) →
      ofResolved config background resolved = (.ok started, told) →
      Runs config { router := started }
  | next {s : Story} {m : Move} (now : Nat) :
      Runs config s → s.Admits m → Runs config (s.next now m)

/-- A story goes on by moves that are admitted, in any order. -/
inductive Leads (s : Story) : Story → Prop
  | refl : Leads s s
  | next {s' : Story} {m : Move} (now : Nat) :
      Leads s s' → s'.Admits m → Leads s (s'.next now m)

/-! ## Turns -/

/-- How a refresh fails whose round has this outcome. -/
inductive Fails (r : Router) (round : Round) : Fault → Prop
  | broken {f : Fault} : round.collect.2 = some (.error f) → Fails r round f
  | closed {resolved : List ResolvedGroup} :
      r.closed = true → round.collect.2 = some (.ok resolved) → Fails r round .shutdown

/-- One thing that happens to a router after all that is past. -/
inductive Turn (past : List Event) (r : Router) : List Event → Router → Prop
  | idle {e : Event} : e.IsIdle → Turn past r [e] r
  /-- Something that does not concern refreshes. -/
  | other {r' : Router} : r'.sets = r.sets → r'.refreshes = r.refreshes → r'.current = r.current →
      r'.generation = r.generation → (r.closed = true → r'.closed = true) → Turn past r [] r'
  | queue {t : Ticket} : r.closed = false → .came t ∉ past →
      Turn past r [.came t] { r with refreshes := r.refreshes ++ [(t, .waiting)] }
  | refuse {t : Ticket} : r.closed = true →
      Turn past r [.came t, .told (.refreshed t (.error .shutdown))] r
  | begin {t : Ticket} {rest : List (Ticket × RefreshStage)} : r.refreshes = (t, .waiting) :: rest →
      Turn past r [.told (.probe t)]
        { r with refreshes := (t, .probing (Round.start r.sets).state) :: rest }
  | hear {t : Ticket} {round : Round} {rest : List (Ticket × RefreshStage)} {i j : Nat}
      {role : Role} : r.refreshes = (t, .probing round) :: rest →
      Turn past r [.answered t i j role]
        { r with refreshes := (t, .probing (round.answer i j role).state) :: rest }
  | breakOff {t : Ticket} {round : Round} {rest : List (Ticket × RefreshStage)} {i : Nat}
      {reason : String} : r.refreshes = (t, .probing round) :: rest →
      Turn past r [.broke t i reason]
        { r with refreshes := (t, .probing (round.breakOff i reason)) :: rest }
  | count {t : Ticket} {round : Round} {rest : List (Ticket × RefreshStage)} :
      r.refreshes = (t, .probing round) :: rest → round.collect.2 = none →
      Turn past r [] { r with refreshes := (t, .probing round.collect.1.state) :: rest }
  | fail {t : Ticket} {round : Round} {rest : List (Ticket × RefreshStage)} {f : Fault} :
      r.refreshes = (t, .probing round) :: rest → Fails r round f →
      Turn past r [.told (.refreshed t (.error f))] { r with refreshes := rest }
  | renew {t : Ticket} {round : Round} {rest : List (Ticket × RefreshStage)}
      {resolved : List ResolvedGroup} {r' : Router} :
      r.closed = false → r.refreshes = (t, .probing round) :: rest →
      round.collect.2 = some (.ok resolved) → r'.sets = r.sets → r'.refreshes = rest →
      r'.generation = r.generation + 1 → r'.current.generation = r.generation + 1 →
      r'.current.groups = resolved → Turn past r [.renewed t r'.current] r'
  | leave {t : Ticket} {refreshes : List (Ticket × RefreshStage)} :
      refreshes.Sublist r.refreshes → (∀ e ∈ r.refreshes, e.1 ≠ t → e ∈ refreshes) →
      Turn past r [.left t] { r with refreshes }

/-- Turns one after the other. -/
inductive Turns (past : List Event) (r : Router) : List Event → Router → Prop
  | refl : Turns past r [] r
  | tail {es es' : List Event} {r' r'' : Router} :
      Turns past r es r' → Turn (past ++ es) r' es' r'' → Turns past r (es ++ es') r''

variable {config : Config.Cluster} {s s' : Story} {r r' q : Router} {t : Ticket}
  {past es es' : List Event} {rest : List (Ticket × RefreshStage)} {round : Round} {now : Nat}

theorem Turn.turns (h : Turn past r es r') : Turns past r es r' := by
  have ht : Turn (past ++ []) r es r' := by rwa [List.append_nil]
  exact .tail .refl ht

theorem Turns.idle (h : Turns past r es r') (he : ∀ e ∈ es', e.IsIdle) :
    Turns past r (es ++ es') r' := by
  induction es' generalizing es with
  | nil => rwa [List.append_nil]
  | cons e es' ih =>
      have ht : Turns past r (es ++ [e]) r' := h.tail (.idle (he e List.mem_cons_self))
      have hr := ih ht fun x hx => he x (List.mem_cons_of_mem _ hx)
      rwa [List.append_assoc] at hr

theorem idle_of_bare {es : List Effect} (h : Bare es) :
    ∀ e ∈ es.map (Event.ofEffect q), e.IsIdle := by
  intro x hx
  obtain ⟨e, he, rfl⟩ := List.mem_map.mp hx
  have hb := h e he
  cases e with
  | notice _ | opened _ => trivial
  | _ => exact hb.elim

theorem idle_wakeFirst (r : Router) :
    ∀ e ∈ r.wakeFirst.effects.map (Event.ofEffect q), e.IsIdle := by
  unfold wakeFirst
  split <;> simp [Event.ofEffect, Event.IsIdle]

theorem setStage_eq {x : RefreshStage} (y : RefreshStage) (hr : r.refreshes = (t, x) :: rest)
    (ht : (r.refreshes.map (·.1)).Nodup) :
    r.setStage t y = { r with refreshes := (t, y) :: rest } := by
  rw [hr, List.map_cons, List.nodup_cons] at ht
  have hm : rest.map (fun e => if e.1 = t then (t, y) else e) = rest := by
    refine (List.map_congr_left fun e he => if_neg fun hu => ?_).trans (List.map_id rest)
    exact ht.1 (List.mem_map.mpr ⟨e, he, hu⟩)
  simp only [setStage, hr, List.map_cons, if_true, hm]

/-! ## Moves -/

theorem Turns.beginRound (h : Turns past r es r') (hr : r'.refreshes = (t, .waiting) :: rest)
    (ht : (r'.refreshes.map (·.1)).Nodup) :
    Turns past r (es ++ (r'.beginRound t).effects.map (Event.ofEffect q))
      (r'.beginRound t).state := by
  have hn := h.idle (idle_of_bare (q := q) (bare_notices (Round.start r'.sets).effects))
  have hb := hn.tail (.begin hr)
  simp only [Router.beginRound, setStage_eq _ hr ht, List.map_append]
  rwa [List.append_assoc] at hb

theorem turns_refresh (ha : .came t ∉ past) :
    Turns past r (.came t :: (r.refresh t).effects.map (Event.ofEffect q)) (r.refresh t).state := by
  unfold Router.refresh
  split
  · exact (Turn.refuse ‹_›).turns
  · rename_i hc
    have hq : Turns past r [.came t] { r with refreshes := r.refreshes ++ [(t, .waiting)] } :=
      (Turn.queue (by simpa using hc) ha).turns
    dsimp only
    split
    · rename_i he
      have hn : r.refreshes = [] := by simpa using he
      have hr : ({ r with refreshes := r.refreshes ++ [(t, .waiting)] } : Router).refreshes =
          [(t, .waiting)] := by simp [hn]
      refine hq.beginRound hr ?_
      rw [hr]
      exact List.nodup_singleton t
    · exact hq

theorem Turns.endRefresh {f : Fault} (h : Turns past r es r')
    (hr : r'.refreshes = (t, .probing round) :: rest) (hf : Fails r' round f) :
    Turns past r (es ++ (({ r' with refreshes := rest } : Router).wakeFirst.tell
      (.refreshed t (.error f))).effects.map (Event.ofEffect q)) { r' with refreshes := rest } := by
  have hw := h.idle (idle_wakeFirst (q := q) { r' with refreshes := rest })
  have he := hw.tail (.fail hr hf)
  rw [List.append_assoc] at he
  simpa [Event.ofEffect] using he

/-- A refresh whose round ends well puts an index in place, unless the router is closed by then. -/
theorem Turns.install {x : RefreshStage} {resolved : List ResolvedGroup}
    {result : Except Fault Unit} {installed : Reaction} (h : Turns past r es r)
    (hk : Reachable config r) (hr : r.refreshes = (t, .probing round) :: rest)
    (hs : ({ r with refreshes := (t, x) :: rest } : Router).Steady config)
    (hc : round.collect.2 = some (.ok resolved))
    (hi : ({ r with refreshes := (t, x) :: rest } : Router).install resolved =
      (result, installed)) :
    Turns past r (es ++ (installed.andThen (Router.endRefresh t result)).effects.map
      (Event.ofEffect (installed.andThen (Router.endRefresh t result)).state))
      (installed.andThen (Router.endRefresh t result)).state := by
  unfold Router.endRefresh
  rw [Reaction.andThen_effects, Reaction.andThen_state, Reaction.tell_state, wakeFirst_state]
  by_cases ho : r.closed = true
  · -- The router was closed while the refresh was probing.
    rw [install_of_closed (r := { r with refreshes := (t, x) :: rest }) ho] at hi
    cases hi
    exact h.endRefresh hr (.closed ho hc)
  · have ho : r.closed = false := by simpa using ho
    have ha : ({ r with refreshes := (t, x) :: rest } : Router).Aligned config :=
      { hk.aligned ho with }
    have hround : Round.Runs r.sets round := hk.running t round (hr ▸ List.mem_cons_self)
    obtain ⟨index, opened, hI⟩ := ha.installed hs (usable_of_check hk.check).1 hround hc
    have hres := hI.result
    have hst := hI.state
    have hb : Bare installed.effects := by
      have hb :
          Bare (({ r with refreshes := (t, x) :: rest } : Router).install resolved).2.effects :=
        bare_install
      rwa [hi] at hb
    rw [hi] at hres hst
    dsimp only at hres hst
    rw [hres, hst]
    simp only [Reaction.tell_effects, List.map_append, List.map_cons, List.map_nil,
      ← List.append_assoc]
    exact ((h.idle (idle_of_bare hb)).idle (idle_wakeFirst _)).tail
      (.renew ho hr hc rfl rfl rfl hI.generation hI.seated.groups)

theorem turns_resume (hk : Reachable config r) (ht : (r.refreshes.map (·.1)).Nodup) :
    Turns past r ((r.resume t).effects.map (Event.ofEffect (r.resume t).state))
      (r.resume t).state := by
  unfold Router.resume
  split
  · rename_i u rest hr
    split
    · rename_i hu
      cases hu
      exact Turns.beginRound .refl hr ht
    · exact .refl
  · rename_i u round rest hr
    split
    · rename_i hu
      cases hu
      have hs : (r.setStage t (.probing round.collect.1.state)).Steady config :=
        hk.steady.setCollected hr
      rcases hc : round.collect with ⟨collected, outcome⟩
      -- Whatever the outcome is, the notices of the groups that are counted come first.
      have hn (q : Router) : Turns past r
          ((collected.effects.map Effect.notice).map (Event.ofEffect q)) r := by
        have h0 : Turns past r [] r := .refl
        exact h0.idle (idle_of_bare (bare_notices _))
      rw [hc, setStage_eq _ hr ht] at hs
      dsimp only
      rw [setStage_eq _ hr ht]
      split
      · have hx := (hn { r with refreshes := (t, .probing collected.state) :: rest }).tail
          (.count hr (by rw [hc]))
        rwa [hc, List.append_nil] at hx
      · rename_i f
        rw [Reaction.andThen_effects, Reaction.andThen_state, List.map_append]
        unfold Router.endRefresh
        rw [Reaction.tell_state, wakeFirst_state]
        exact (hn _).endRefresh hr (.broken (by rw [hc]))
      · rename_i resolved
        rcases hi : ({ r with refreshes := (t, .probing collected.state) :: rest } :
          Router).install resolved with ⟨result, installed⟩
        rw [Reaction.andThen_effects, Reaction.andThen_state, List.map_append]
        simp only [hi]
        exact (hn _).install hk hr hs (by rw [hc]) hi
    · exact .refl
  · exact .refl

theorem turns_onRound {e : Event} {f : Round → Round.Reaction} (he : e.IsIdle)
    (ht : (r.refreshes.map (·.1)).Nodup)
    (hf : ∀ round rest, r.refreshes = (t, .probing round) :: rest →
      Turn past r [e] { r with refreshes := (t, .probing (f round).state) :: rest }) :
    Turns past r (e :: (r.onRound t f).effects.map (Event.ofEffect q)) (r.onRound t f).state := by
  have hi : Turns past r [e] r := (Turn.idle he).turns
  unfold Router.onRound
  split
  · rename_i u round rest hr
    split
    · rename_i hu
      cases hu
      have hw : ∀ x ∈ (if (f round).state.isReady then [Effect.resume t] else []).map
          (Event.ofEffect q), x.IsIdle := by
        split <;> simp [Event.ofEffect, Event.IsIdle]
      have hx := ((hf round rest hr).turns.idle
        (idle_of_bare (q := q) (bare_notices (f round).effects))).idle hw
      dsimp only
      rw [setStage_eq _ hr ht, List.map_append]
      simpa using hx
    · exact hi
  · exact hi

theorem turns_abandon :
    Turns past r (.left t :: (r.abandon t).effects.map (Event.ofEffect q)) (r.abandon t).state := by
  unfold Router.abandon
  split
  · rename_i u x rest hr
    split
    · rename_i hu
      cases hu
      have hl : Turn past r [.left t] { r with refreshes := rest } := by
        refine .leave (hr ▸ List.sublist_cons_self _ _) fun e he hne => ?_
        rcases List.mem_cons.mp (hr ▸ he) with rfl | he
        · exact absurd rfl hne
        · exact he
      rw [wakeFirst_state]
      exact hl.turns.idle (idle_wakeFirst _)
    · refine (Turn.leave List.filter_sublist fun e he hne => ?_).turns
      exact List.mem_filter.mpr ⟨he, decide_eq_true hne⟩
  · refine (Turn.leave (List.Sublist.refl r.refreshes) fun e he _ => he).turns

theorem idle_of_pools {es : List Effect} (h : ∀ e ∈ es, ∃ i x, e = .pool i x) :
    ∀ e ∈ es.map (Event.ofEffect q), e.IsIdle := by
  intro x hx
  obtain ⟨e, he, rfl⟩ := List.mem_map.mp hx
  obtain ⟨i, x, rfl⟩ := h e he
  trivial

theorem idle_shutdown : ∀ e ∈ (r.shutdown now).effects.map (Event.ofEffect q), e.IsIdle := by
  unfold Router.shutdown
  split
  · simp
  · have hi : ∀ e ∈ (r.fleet.shutdownAll now).effects.map (Event.ofEffect q), e.IsIdle :=
      idle_of_pools fun e he => mem_shutdownEach he
    simp only [Reaction.tell_effects, Reaction.lift_effects, List.map_id, List.map_append,
      List.forall_mem_append]
    exact ⟨hi, by simp [Event.ofEffect, Event.IsIdle]⟩

theorem turns_shutdown : Turns past r ((r.shutdown now).effects.map (Event.ofEffect q))
    (r.shutdown now).state := by
  have ho : Turn past r [] (r.shutdown now).state := by
    unfold Router.shutdown
    split
    · exact .other rfl rfl rfl rfl fun h => h
    · exact .other rfl rfl rfl rfl fun _ => rfl
  exact ho.turns.idle idle_shutdown

theorem turns_pool {i : PoolId} {m : Pool.Move} :
    Turns past r ((r.stepPool now i m).effects.map (Event.ofEffect q))
      (r.stepPool now i m).state := by
  have ho : Turn past r [] (r.stepPool now i m).state := .other rfl rfl rfl rfl fun h => h
  refine ho.turns.idle (idle_of_pools fun e he => ?_)
  unfold stepPool Fleet.step at he
  split at he
  · cases he
  · simp only [Reaction.lift_effects, List.map_id_fun, id_eq] at he
    obtain ⟨x, -, rfl⟩ := List.mem_map.mp he
    exact ⟨i, x, rfl⟩

/-- Every move is made of turns, while no two refreshes in progress share a ticket. -/
theorem turns_next {m : Move} (hk : Reachable config s.router)
    (ht : (s.router.refreshes.map (·.1)).Nodup) (ha : s.Admits m) (now : Nat) :
    Turns s.past s.router (s.news now m) (s.next now m).router := by
  cases m with
  | refresh t => exact turns_refresh ha
  | resume t => exact turns_resume hk ht
  | probed t i j role => exact turns_onRound trivial ht fun round rest hr => .hear hr
  | brokeOff t i reason => exact turns_onRound trivial ht fun round rest hr => .breakOff hr
  | abandon t => exact turns_abandon
  | shutdown => exact turns_shutdown
  | pool i m => exact turns_pool

theorem Runs.reachable (h : Runs config s) : Reachable config s.router := by
  induction h with
  | launch hp hr ho hs => exact .launch hp hr ho hs
  | @next s m now _ _ ih => exact ih.step now m

theorem Runs.leads (h : Runs config s) (hl : Leads s s') : Runs config s' := by
  induction hl with
  | refl => exact h
  | next now _ ha ih => exact ih.next now ha

theorem Leads.trans {s'' : Story} (h : Leads s s') (h' : Leads s' s'') : Leads s s'' := by
  induction h' with
  | refl => exact h
  | next now _ ha ih => exact ih.next now ha

/-- Where no refresh comes, all moves are admitted. -/
theorem leads_play {ms : List (Nat × Move)} (h : ∀ x ∈ ms, ∀ t, x.2 ≠ .refresh t) :
    Leads s (s.play ms) := by
  induction ms generalizing s with
  | nil => exact .refl
  | cons x ms ih =>
      obtain ⟨now, m⟩ := x
      obtain ⟨hm, hms⟩ := List.forall_mem_cons.mp h
      refine .trans (.next now .refl ?_) (ih hms)
      cases m with
      | refresh t => exact absurd rfl (hm t)
      | _ => trivial

/-- What has happened stays in the past. -/
theorem Leads.exists_past_eq (h : Leads s s') : ∃ es, s'.past = s.past ++ es := by
  induction h with
  | refl => exact ⟨[], (List.append_nil _).symm⟩
  | @next s' m now _ _ ih =>
      obtain ⟨es, he⟩ := ih
      refine ⟨es ++ s'.news now m, ?_⟩
      simp [Story.next, he]

/-- Refreshes come with their own moves only. -/
theorem eq_refresh_of_came {m : Move} (h : .came t ∈ s.news now m) : m = .refresh t := by
  rcases List.mem_append.mp h with h | h
  · cases m with
    | refresh u =>
        cases List.mem_singleton.mp h
        rfl
    | _ => simp [arrivals] at h
  · obtain ⟨e, -, he⟩ := List.mem_map.mp h
    unfold Event.ofEffect at he
    split at he <;> cases he

end Story

end Shardway.Router
