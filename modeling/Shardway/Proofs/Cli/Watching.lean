import Shardway.Cli.Session
import Shardway.Proofs.Cli.ChangeLines
import Shardway.Proofs.Router.Changes
import Mathlib

/-!
# Watching

A watch keeps the masters as they were printed and compares them after each refresh, while the
router compares its indexes. After each refresh the watch prints just the changes of which the router
has told, and nothing if the refresh has failed. So its lines always lead to the masters in place.
-/

namespace Shardway.Cli

open Router

/-- A refresh that was watched. -/
structure Sighting where
  result : Except Fault Unit
  /-- What the router has told meanwhile. -/
  told : List Notice
  /-- The index in place after it. -/
  current : Index
  /-- What is printed after it and before the next one. -/
  lines : List String := []

/-- A router that is watched, with all that it has told since, and the refreshes so far. What is
printed before the first of them is left out. -/
structure Vigil where
  router : Router
  log : List Notice := []
  sightings : List Sighting := []

namespace Vigil

/-- The router makes some moves. -/
def act (ms : List (Nat × Move)) (v : Vigil) : Vigil :=
  { v with
    router := (v.router.perform ms).state
    log := v.log ++ notices (v.router.perform ms).effects }

/-- The router makes some moves, with which a refresh comes and goes. -/
def sight (result : Except Fault Unit) (ms : List (Nat × Move)) (v : Vigil) : Vigil :=
  { v.act ms with
    sightings := v.sightings ++
      [⟨result, notices (v.router.perform ms).effects, (v.router.perform ms).state.current, []⟩] }

/-- Lines are printed. -/
def print (ls : List String) (v : Vigil) : Vigil :=
  { v with sightings := v.sightings.modifyLast fun s => { s with lines := s.lines ++ ls } }

/-- Some time goes by. Meanwhile the router may make any moves, but no refresh comes. -/
def Passes (v v' : Vigil) : Prop := ∃ ms, Unasked ms ∧ v' = v.act ms

/-- A refresh comes and ends with this result. Meanwhile the nodes may tell it any roles, or
nothing, and the router may make any other moves, but no other refresh comes. -/
inductive Refreshes (v : Vigil) : Except Fault Index → Vigil → Prop
  | intro {now : Nat} {t : Ticket} {ms : List (Nat × Move)} {result : Except Fault Unit} :
      Unasked ms → .refreshed t result ∈ (v.router.perform ((now, .refresh t) :: ms)).effects →
      Refreshes v
        (result.map fun _ => (v.router.perform ((now, .refresh t) :: ms)).state.current)
        (v.sight result ((now, .refresh t) :: ms))

/-- All that the relation allows. -/
def choose {α : Type} (p : Vigil → α → Vigil → Prop) : StateT Vigil SetM α := fun v =>
  {y | p v y.1 y.2}

/-- A store whose router is the one that is watched. All that can happen to a router may happen. -/
def deployment : Deployment (StateT Vigil SetM) where
  configuration _ := choose fun v _ v' => v' = v
  launch _ := choose fun v x v' => x = .ok v.router.current ∧ v' = v
  refresh := choose Refreshes
  call _ _ := choose fun v _ v' => v.Passes v'
  shutdown := choose fun v _ v' => ∃ now, v' = v.act [(now, .shutdown)]
  now := choose fun v _ v' => v' = v
  waitUntil _ := choose fun v _ v' => v.Passes v'
  print ls := choose fun v _ v' => v' = v.print ls
  report _ := choose fun v _ v' => v' = v

/-- The program may end with this result and leave the vigil like this. -/
def Gives {α : Type} (x : StateT Vigil SetM α) (v : Vigil) (a : α) (v' : Vigil) : Prop :=
  (a, v') ∈ (x.run v).run

end Vigil

/-- The lines are those about the changes that the router has told, and there are none after a
failure. -/
structure Sighting.Agrees (s : Sighting) : Prop where
  lines : s.lines = s.told.filterMap changeLine?
  failed : ∀ f, s.result = .error f → s.lines = []

namespace Vigil

/-- The watch knows the masters in place, and all that was printed agrees with what was told. -/
structure Sound (config : Config.Cluster) (first : Index) (w : Watch) (v : Vigil) : Prop where
  reachable : Reachable config v.router
  idle : v.router.refreshes = []
  watch : w = .start v.router.current
  agrees : ∀ s ∈ v.sightings, s.Agrees
  led : ∀ before s after, v.sightings = before ++ s :: after →
    Replays first.masters ((before ++ [s]).flatMap (·.lines)) s.current.masters
  leads : Replays first.masters (v.sightings.flatMap (·.lines)) v.router.current.masters
  log : v.log.filterMap changeLine? = v.sightings.flatMap (·.lines)

variable {α β : Type} {config : Config.Cluster} {first : Index} {w : Watch} {v v' : Vigil}
  {ms : List (Nat × Move)} {x : StateT Vigil SetM α} {a : α} {b : β} {n : Nat} {ticker : Ticker}
  {o : Outcome} {r : Router} {es : List Effect} {ls : List String}

/-! ## Programs -/

theorem gives_pure {a b : α} : Gives (pure a) v b v' ↔ b = a ∧ v' = v := by
  change (b, v') = (a, v) ↔ _
  rw [Prod.mk.injEq]

theorem gives_bind {f : α → StateT Vigil SetM β} :
    Gives (x >>= f) v b v' ↔ ∃ a u, Gives x v a u ∧ Gives (f a) u b v' := by
  change (b, v') ∈ ⋃ y ∈ SetM.run (x.run v), SetM.run ((f y.1).run y.2) ↔ _
  simp [Gives]

theorem gives_choose {p : Vigil → α → Vigil → Prop} : Gives (choose p) v a v' ↔ p v a v' := Iff.rfl

theorem print_nil (v : Vigil) : v.print [] = v := by
  have hs : v.sightings.modifyLast (fun s => { s with lines := s.lines ++ [] }) = v.sightings := by
    rcases v.sightings.eq_nil_or_concat' with h | ⟨before, s, h⟩
    · rw [h]
      rfl
    · rw [h, List.modifyLast_concat, List.append_nil]
  rw [print, hs]

theorem gives_finish : Gives (deployment.finish []) v o v' ↔
    o = .success ∧ ∃ now, v' = v.act [(now, .shutdown)] := by
  simp only [Deployment.finish, gives_bind, deployment, gives_choose, gives_pure, print_nil]
  constructor
  · rintro ⟨-, _, rfl, -, _, ⟨now, rfl⟩, rfl, rfl⟩
    exact ⟨rfl, now, rfl⟩
  · rintro ⟨rfl, now, rfl⟩
    exact ⟨(), v, rfl, (), _, ⟨now, rfl⟩, rfl, rfl⟩

theorem gives_take {interval : Span} :
    Gives (deployment.take n config (.watch interval)) { router := r } o v ↔
      if interval = .zero then o = .noPeriod ∧ v = { router := r }
      else ∃ time, Gives (deployment.watch n (.start .kept interval.ceilMillis time)
        (.start r.current)) { router := r } o v := by
  have hp : Gives (deployment.take n config (.watch interval)) { router := r } o v ↔
      Gives (if interval = .zero then pure .noPeriod else do
        deployment.watch n (.start .kept interval.ceilMillis (← deployment.now))
          (.start r.current)) { router := r } o v := by
    simp only [Deployment.take, gives_bind]
    constructor
    · rintro ⟨x, u, ⟨rfl, rfl⟩, h⟩
      obtain ⟨_, u, hu, h⟩ := gives_bind.mp h
      obtain rfl : u = { router := r } := hu
      exact h
    · intro h
      exact ⟨.ok r.current, _, ⟨rfl, rfl⟩, gives_bind.mpr ⟨(), _, rfl, h⟩⟩
  rw [hp]
  split
  · exact gives_pure
  · rw [gives_bind]
    constructor
    · rintro ⟨time, u, hu, h⟩
      obtain rfl : u = { router := r } := hu
      exact ⟨time, h⟩
    · rintro ⟨time, h⟩
      exact ⟨time, _, rfl, h⟩

theorem gives_watch_zero : Gives (deployment.watch 0 ticker w) v o v' ↔
    o = .success ∧ ∃ now, v' = v.act [(now, .shutdown)] := gives_finish

theorem gives_watch_succ : Gives (deployment.watch (n + 1) ticker w) v o v' ↔
    ∃ u, v.Passes u ∧ (Gives (deployment.finish []) u o v' ∨
      ∃ time result u', u.Refreshes result u' ∧
        Gives (deployment.watch n (ticker.advance time) (w.observe result).2)
          (u'.print (w.observe result).1) o v') := by
  rw [Deployment.watch]
  simp only [gives_bind]
  constructor
  · rintro ⟨goOn, u, hp, h⟩
    refine ⟨u, hp, ?_⟩
    cases goOn with
    | false => exact .inl h
    | true =>
        obtain ⟨time, u₁, hnow, hrest⟩ := gives_bind.mp h
        obtain rfl : u₁ = u := hnow
        obtain ⟨result, u', hr, hsettled⟩ := gives_bind.mp hrest
        refine .inr ⟨time, result, u', hr, ?_⟩
        cases result with
        | error f =>
            obtain ⟨_, u₂, hreport, hgo⟩ := gives_bind.mp hsettled
            obtain rfl : u₂ = u' := hreport
            have hn : u₂.print (w.observe (.error f)).1 = u₂ := print_nil u₂
            rwa [hn]
        | ok y =>
            obtain ⟨_, u₂, hprint, hgo⟩ := gives_bind.mp hsettled
            obtain rfl : u₂ = u'.print (w.observe (.ok y)).1 := hprint
            exact hgo
  · rintro ⟨u, hp, h | ⟨time, result, u', hr, h⟩⟩
    · exact ⟨false, u, hp, h⟩
    · refine ⟨true, u, hp, gives_bind.mpr ⟨time, u, rfl, gives_bind.mpr ⟨result, u', hr, ?_⟩⟩⟩
      cases result with
      | error f =>
          have hn : u'.print (w.observe (.error f)).1 = u' := print_nil u'
          rw [hn] at h
          exact gives_bind.mpr ⟨(), u', rfl, h⟩
      | ok y => exact gives_bind.mpr ⟨(), _, rfl, h⟩

/-! ## Refreshes -/

theorem map_id_groups (h : Reachable config r) :
    r.current.groups.map (·.id) = groupIds config := by
  rw [← h.steady.current.slots, Index.ids, Index.groups, List.map_map]
  rfl

theorem nodup_groupIds (config : Config.Cluster) : (groupIds config).Nodup :=
  nodup_of_pairwise_lt (ReplicaSet.pairwise_ofNodes config.nodeList)

/-- What is no change has no line. -/
theorem lines_notices (es : List Effect) :
    (notices es).filterMap changeLine? = (changes es).filterMap changeLine? := by
  rw [changes, List.filterMap_filter]
  refine List.filterMap_congr fun n _ => ?_
  cases n <;> rfl

theorem Sound.start (h : Reachable config r) (hr : r.refreshes = []) :
    Sound config r.current (.start r.current) { router := r } where
  reachable := h
  idle := hr
  watch := rfl
  agrees := by simp
  led := by simp
  leads := .nil
  log := rfl

theorem Sound.act (h : Sound config first w v) (hm : Unasked ms) :
    Sound config first w (v.act ms) := by
  have hq := quiet_perform h.idle hm
  have hl : (notices (v.router.perform ms).effects).filterMap changeLine? = [] := by
    rw [lines_notices, hq.hushed.changes, List.filterMap_nil]
  refine ⟨h.reachable.perform, hq.refreshes, ?_, h.agrees, h.led, ?_, ?_⟩
  · rw [h.watch, Vigil.act, hq.current]
  · rw [Vigil.act, hq.current]
    exact h.leads
  · rw [Vigil.act, List.filterMap_append, hl, List.append_nil]
    exact h.log

/-- A refresh is over, and some lines are printed about it. -/
theorem Sound.see {result : Except Fault Unit} (h : Sound config first w v)
    (hr : (v.router.perform ms).state.refreshes = [])
    (hl : ls = (changes (v.router.perform ms).effects).filterMap changeLine?)
    (hf : ∀ f, result = .error f → ls = [])
    (hs : Replays v.router.current.masters ls (v.router.perform ms).state.current.masters) :
    Sound config first (.start (v.router.perform ms).state.current)
      ((v.sight result ms).print ls) := by
  let s : Sighting := ⟨result, notices (v.router.perform ms).effects,
    (v.router.perform ms).state.current, ls⟩
  have hsightings : ((v.sight result ms).print ls).sightings = v.sightings ++ [s] := by
    rw [print, sight, List.modifyLast_concat, List.nil_append]
  have hlines : ((v.sight result ms).print ls).sightings.flatMap (·.lines) =
      v.sightings.flatMap (·.lines) ++ ls := by
    rw [hsightings, List.flatMap_append, List.flatMap_singleton]
  have hled : Replays first.masters ((v.sightings ++ [s]).flatMap (·.lines)) s.current.masters := by
    rw [← hsightings, hlines]
    exact h.leads.append hs
  have hagrees : s.Agrees := ⟨hl.trans (lines_notices _).symm, hf⟩
  refine ⟨h.reachable.perform, hr, rfl, ?_, ?_, ?_, ?_⟩
  · rw [hsightings]
    exact List.forall_mem_append.mpr ⟨h.agrees, List.forall_mem_singleton.mpr hagrees⟩
  · rw [hsightings]
    intro before x after he
    rcases after.eq_nil_or_concat' with rfl | ⟨after, y, rfl⟩
    · obtain ⟨rfl, hx⟩ := List.append_inj' he rfl
      cases hx
      exact hled
    · rw [← List.cons_append, ← List.append_assoc] at he
      exact h.led before x after (List.append_inj' he rfl).1
  · rw [hlines]
    exact h.leads.append hs
  · have hlog : ((v.sight result ms).print ls).log =
        v.log ++ notices (v.router.perform ms).effects := rfl
    rw [hlines, hlog, List.filterMap_append, h.log, lines_notices, hl]

/-- A refresh is over, and the watch has printed what it makes of it. -/
theorem Sound.refresh {result : Except Fault Index} (h : Sound config first w v)
    (hr : v.Refreshes result v') :
    Sound config first (w.observe result).2 (v'.print (w.observe result).1) := by
  obtain @⟨now, t, ms, result, hm, he⟩ := hr
  have hend := mem_ends.mpr he
  have hreach : Reachable config (v.router.perform ((now, .refresh t) :: ms)).state :=
    h.reachable.perform
  have hid : v.router.current.groups.map (·.id) =
      (v.router.perform ((now, .refresh t) :: ms)).state.current.groups.map (·.id) :=
    (map_id_groups h.reachable).trans (map_id_groups hreach).symm
  cases lone_perform_refresh h.idle hm now t with
  | underway _ _ hh =>
      rw [hh.ends] at hend
      cases hend
  | left hq =>
      rw [hq.hushed.ends] at hend
      cases hend
  | @failed f hrefreshes hc hch hends =>
      rw [hends] at hend
      cases List.mem_singleton.mp hend
      have hs := @Sound.see _ _ _ _ _ [] (.error f) h hrefreshes (by rw [hch]; rfl)
        (fun _ _ => rfl) (hc ▸ .nil)
      rwa [hc, ← h.watch] at hs
  | renewed hrefreshes hch hends =>
      rw [hends] at hend
      cases List.mem_singleton.mp hend
      have hlines : (w.observe (.ok (v.router.perform ((now, .refresh t) :: ms)).state.current)).1 =
          (changes (v.router.perform ((now, .refresh t) :: ms)).effects).filterMap changeLine? := by
        rw [hch, h.watch]
        refine changeLines_ofIndex fun g hg => List.mem_map.mp ?_
        rw [hid]
        exact List.mem_map_of_mem hg
      refine Sound.see h hrefreshes hlines (fun f hf => by cases hf) ?_
      change Replays _ (w.observe (.ok _)).1 _
      rw [hlines, hch]
      refine replays_changes hid ?_
      rw [map_id_groups h.reachable]
      exact nodup_groupIds config

theorem Sound.goesOn (h : Sound config first w v)
    (hg : Gives (deployment.watch n ticker w) v o v') : ∃ w', Sound config first w' v' := by
  have hs {now : Nat} : Unasked [(now, .shutdown)] := by simp [Unasked]
  induction n generalizing ticker w v with
  | zero =>
      obtain ⟨-, now, rfl⟩ := gives_watch_zero.mp hg
      exact ⟨w, h.act hs⟩
  | succ n ih =>
      obtain ⟨u, ⟨ms, hm, rfl⟩, hg | ⟨time, result, u', hr, hg⟩⟩ := gives_watch_succ.mp hg
      · obtain ⟨-, now, rfl⟩ := gives_finish.mp hg
        exact ⟨w, (h.act hm).act hs⟩
      · exact ih ((h.act hm).refresh hr) hg

/-- A watch begins when no refresh is in progress, and only the watch refreshes. Whatever happens
meanwhile, and whichever of its refreshes fail: after each of them it prints just the changes of
masters that the router has told with it, in the same order and with the word for none in place of a
missing master, and nothing if it has failed. All changes that were told are among those. The lines
after each refresh lead, along with those before, from the masters of the first index to those of the
index that is in place then, and to no others. -/
theorem watch_agrees (hr : Reachable config r) (hn : r.refreshes = []) (interval : Span)
    (h : Gives (deployment.take n config (.watch interval)) { router := r } o v) :
    (∀ s ∈ v.sightings, s.lines = s.told.filterMap changeLine? ∧
      ∀ f, s.result = .error f → s.lines = []) ∧
    v.log.filterMap changeLine? = v.sightings.flatMap (·.lines) ∧
    (∀ before s after, v.sightings = before ++ s :: after → ∀ ms,
      Replays r.current.masters ((before ++ [s]).flatMap (·.lines)) ms ↔ ms = s.current.masters) ∧
    ∀ ms, Replays r.current.masters (v.sightings.flatMap (·.lines)) ms ↔
      ms = v.router.current.masters := by
  have hs : ∃ w, Sound config r.current w v := by
    have hstart := Sound.start hr hn
    rw [gives_take] at h
    split at h
    · obtain ⟨-, rfl⟩ := h
      exact ⟨_, hstart⟩
    · obtain ⟨time, h⟩ := h
      exact hstart.goesOn h
  obtain ⟨w, hs⟩ := hs
  have hkeys : (r.current.masters.map (·.1)).Nodup := by
    have hids := nodup_groupIds config
    rw [← map_id_groups hr] at hids
    simpa [Index.masters, Function.comp_def] using hids
  have hu {ls : List String} {x : Index} (hx : Replays r.current.masters ls x.masters)
      (ms : Mastership) : Replays r.current.masters ls ms ↔ ms = x.masters :=
    ⟨fun h => h.unique hx hkeys, fun h => h ▸ hx⟩
  exact ⟨fun s hm => ⟨(hs.agrees s hm).lines, (hs.agrees s hm).failed⟩, hs.log,
    fun before s after he => hu (hs.led before s after he), hu hs.leads⟩

/-- A refresh comes under this ticket and ends with these moves. -/
def look (result : Except Fault Unit) (now : Nat) (t : Ticket) (ms : List (Nat × Move))
    (y : Watch × Vigil) : Watch × Vigil :=
  let ms := (now, .refresh t) :: ms
  let (ls, w) := y.1.observe (result.map fun _ => (y.2.router.perform ms).state.current)
  (w, (y.2.sight result ms).print ls)

theorem gives_watch_look {y : Watch × Vigil} {result : Except Fault Unit} {now : Nat}
    {t : Ticket} (time : Nat) (hm : Unasked ms)
    (he : ends (y.2.router.perform ((now, .refresh t) :: ms)).effects = [(t, result)])
    (h : Gives (deployment.watch n (ticker.advance time) (look result now t ms y).1)
      (look result now t ms y).2 o v) :
    Gives (deployment.watch (n + 1) ticker y.1) y.2 o v := by
  have ha : y.2.act [] = y.2 := by simp [act, perform, notices]
  refine gives_watch_succ.mpr ⟨y.2, ⟨[], by simp [Unasked], ha.symm⟩, .inr ⟨time, _, _, ?_, h⟩⟩
  exact .intro hm (mem_ends.mp (he ▸ List.mem_singleton_self _))

/-- The first group loses its only node, and the second one gets another master. -/
def handover : List (Nat × Move) :=
  [(1001, .probed 0 1 1 .master), (1002, .probed 0 0 0 (.unreachable "refused")),
    (1003, .probed 0 1 0 (.replica none)), (1003, .resume 0)]

def breakdown : List (Nat × Move) :=
  [(2001, .brokeOff 1 0 "task 9 panicked"), (2001, .resume 1)]

/-- The first group gets its node back. -/
def comeback : List (Nat × Move) :=
  [(3001, .probed 2 0 0 .master), (3002, .probed 2 1 1 .master),
    (3003, .probed 2 1 0 (.replica none)), (3003, .resume 2)]

theorem watch_agrees_trio : ∃ r v, Reachable trio r ∧ r.refreshes = [] ∧
    Gives (deployment.take 3 trio (.watch (.ofSeconds 1))) { router := r } .success v ∧
    v.sightings.map (·.lines) =
      [["Group 1: master a:7000 -> none", "Group 2: master b:7000 -> c:7000"], [],
        ["Group 1: master none -> a:7000"]] ∧
    v.log.filterMap changeLine? = v.sightings.flatMap (·.lines) ∧
    Replays r.current.masters (v.sightings.flatMap (·.lines)) v.router.current.masters := by
  obtain ⟨_, _, started, _, hp, hround, ho, hs⟩ := exists_launch_trio
  have hr := Reachable.launch hp hround ho hs
  have hn : started.refreshes = [] := refreshes_ofResolved hs
  let y (r : Router) : Watch × Vigil := (.start r.current, { router := r })
  let y₁ (r : Router) := look (.ok ()) 1000 0 handover (y r)
  let y₂ (r : Router) :=
    look (.error (Round.brokenOffFault "task 9 panicked")) 2000 1 breakdown (y₁ r)
  let y₃ (r : Router) := look (.ok ()) 3000 2 comeback (y₂ r)
  have hseen : (ofResolved trio false trioGroups).1.toOption.map (fun r =>
      (ends ((y r).2.router.perform ((1000, .refresh 0) :: handover)).effects,
        ends ((y₁ r).2.router.perform ((2000, .refresh 1) :: breakdown)).effects,
        ends ((y₂ r).2.router.perform ((3000, .refresh 2) :: comeback)).effects,
        (y₃ r).2.sightings.map (·.lines))) =
      some ([(0, .ok ())], [(1, .error (Round.brokenOffFault "task 9 panicked"))], [(2, .ok ())],
        [["Group 1: master a:7000 -> none", "Group 2: master b:7000 -> c:7000"], [],
          ["Group 1: master none -> a:7000"]]) := by cbv
  rw [hs] at hseen
  obtain ⟨h₁, hseen⟩ := Prod.mk.inj (Option.some.inj hseen)
  obtain ⟨h₂, hseen⟩ := Prod.mk.inj hseen
  obtain ⟨h₃, hlines⟩ := Prod.mk.inj hseen
  have hw : Gives (deployment.take 3 trio (.watch (.ofSeconds 1))) { router := started }
      .success ((y₃ started).2.act [(4000, .shutdown)]) := by
    rw [gives_take, if_neg (by decide)]
    refine ⟨0, gives_watch_look (y := y started) 1000 (by simp [Unasked, handover]) h₁ ?_⟩
    refine gives_watch_look (y := y₁ started) 2000 (by simp [Unasked, breakdown]) h₂ ?_
    refine gives_watch_look (y := y₂ started) 3000 (by simp [Unasked, comeback]) h₃ ?_
    exact gives_watch_zero.mpr ⟨rfl, 4000, rfl⟩
  obtain ⟨-, hlog, -, hleads⟩ := watch_agrees hr hn (.ofSeconds 1) hw
  exact ⟨_, _, hr, hn, hw, hlines, hlog, (hleads _).mpr rfl⟩

end Vigil

end Shardway.Cli
