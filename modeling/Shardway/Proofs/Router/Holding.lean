import Shardway.Router.Custody
import Shardway.Proofs.Pool.Visits
import Shardway.Proofs.Router.Renewals

/-!
# Holding pools

An estate is a router along with those who hold its pools. A pool that nobody holds any more goes at
once, by which its idle connections are closed, and it never comes back. A refresh makes no pool go
but those that it retires.
-/

namespace Shardway

theorem Pool.atWork_shutdown {p : Pool} : p.shutdown.state.AtWork ↔ p.AtWork := by
  unfold AtWork shutdown
  split <;> rfl

/-! ## Custody -/

namespace Custody

variable {k : Custody} {r : Router} {i : PoolId} {p : Pool}

theorem mem_unheld : (p, i) ∈ k.unheld r ↔
    r.fleet.pools[i]? = some p ∧ i ∉ k.gone ∧ ¬k.Holds r i p := by
  simp [unheld, List.mem_filter, List.mem_zipIdx_iff_getElem?]

theorem mem_gone_release : i ∈ (k.release r).state.gone ↔
    i ∈ k.gone ∨ ∃ p, r.fleet.pools[i]? = some p ∧ ¬k.Holds r i p := by
  by_cases hg : i ∈ k.gone
  · simp [release, hg]
  · simp [release, mem_unheld, hg]

theorem mem_effects_release {x : Effect} : x ∈ (k.release r).effects ↔
    ∃ i p, r.fleet.pools[i]? = some p ∧ i ∉ k.gone ∧ ¬k.Holds r i p ∧
      ∃ e ∈ p.idle, x = .pool i (.close e.link) := by
  simp only [release, List.mem_flatMap, List.mem_map, Prod.exists, mem_unheld]
  constructor
  · rintro ⟨p, i, ⟨hp, hg, hh⟩, e, he, rfl⟩
    exact ⟨i, p, hp, hg, hh, e, he, rfl⟩
  · rintro ⟨i, p, hp, hg, hh, e, he, rfl⟩
    exact ⟨p, i, ⟨hp, hg, hh⟩, e, he, rfl⟩

/-- What is idle in a pool stays there as long as somebody holds the pool, and is closed
otherwise. -/
theorem release_idle {link : Link} (hp : r.fleet.pools[i]? = some p) (hg : i ∉ k.gone)
    (hl : link ∈ p.idle.map (·.link)) :
    (k.Holds r i p → i ∉ (k.release r).state.gone) ∧
      (¬k.Holds r i p → .pool i (.close link) ∈ (k.release r).effects) := by
  constructor
  · intro hh hgone
    obtain ⟨q, hq, hn⟩ := (mem_gone_release.mp hgone).resolve_left hg
    cases hp.symm.trans hq
    exact hn hh
  · intro hn
    obtain ⟨e, he, rfl⟩ := List.mem_map.mp hl
    exact mem_effects_release.mpr ⟨i, p, hp, hg, hn, e, he, rfl⟩

/-- Where every pool that is still there is held, none goes. -/
theorem release_of_held (h : ∀ i p, r.fleet.pools[i]? = some p → i ∉ k.gone → k.Holds r i p) :
    k.release r = ⟨k, []⟩ := by
  have hn : k.unheld r = [] := by
    apply List.eq_nil_iff_forall_not_mem.mpr
    rintro ⟨p, i⟩ hm
    obtain ⟨hp, hg, hh⟩ := mem_unheld.mp hm
    exact hh (h i p hp hg)
  simp [release, hn]

end Custody

namespace Router

variable {config : Config.Cluster} {r r' : Router} {resolved : List ResolvedGroup} {x : Index}
  {fresh : List Node} {i j : PoolId} {p : Pool} {now : Nat} {t : Ticket}

/-! ## Pools that are left alone -/

/-- The pool at this place stays as it is, or is shut down. -/
def LeavesAt (i : PoolId) (pools pools' : List Pool) : Prop :=
  ∀ p, pools[i]? = some p → pools'[i]? = some p ∨ pools'[i]? = some p.shutdown.state

theorem leavesAt_refl {pools : List Pool} : LeavesAt i pools pools := fun _ h => .inl h

theorem LeavesAt.trans {pools pools' pools'' : List Pool} (h : LeavesAt i pools pools')
    (h' : LeavesAt i pools' pools'') : LeavesAt i pools pools'' := by
  intro p hp
  rcases h p hp with hp | hp
  · exact h' p hp
  · rcases h' _ hp with hp | hp
    · exact .inr hp
    · rw [Pool.shutdown_shutdown] at hp
      exact .inr hp

theorem leavesAt_step {g : Fleet} {pm : Pool.Move} (hj : j ≠ i ∨ pm = .shutdown) :
    LeavesAt i g.pools (g.step now j pm).state.pools := by
  intro p hp
  unfold Fleet.step
  split
  · exact .inl hp
  · rename_i q hq
    by_cases hij : j = i
    · subst hij
      cases hp.symm.trans hq
      obtain rfl := hj.resolve_left fun h => h rfl
      exact .inr (List.getElem?_set_self (List.getElem?_eq_some_iff.mp hp).1)
    · exact .inl ((List.getElem?_set_ne hij).trans hp)

theorem leavesAt_shutdownEach {g : Fleet} {ids : List PoolId} :
    LeavesAt i g.pools (g.shutdownEach now ids).state.pools := by
  induction ids generalizing g with
  | nil => exact leavesAt_refl
  | cons j ids ih => exact (leavesAt_step (.inr rfl)).trans ih

theorem leavesAt_shutdown : LeavesAt i r.fleet.pools (r.shutdown now).state.fleet.pools := by
  unfold Router.shutdown
  split
  · exact leavesAt_refl
  · exact leavesAt_shutdownEach (g := { r.fleet with registered := [], closed := true })

theorem leavesAt_updates (h : Updates r r') : LeavesAt i r.fleet.pools r'.fleet.pools := by
  obtain ⟨nodes, hg, -⟩ := h.gains
  intro p hp
  rw [hg]
  exact .inl ((List.getElem?_append_left (List.getElem?_eq_some_iff.mp hp).1).trans hp)

theorem LeavesAt.exists_atWork {pools pools' : List Pool} (h : LeavesAt i pools pools')
    (hp : pools[i]? = some p) : ∃ q, pools'[i]? = some q ∧ (q.AtWork ↔ p.AtWork) := by
  rcases h p hp with hp | hp
  · exact ⟨p, hp, Iff.rfl⟩
  · exact ⟨_, hp, Pool.atWork_shutdown⟩

/-! ## What a router keeps -/

theorem keeps_of_get? {a : Address} (h : r.fleet.get? a = some i) : r.Keeps i :=
  .inl (List.mem_map_of_mem (Fleet.mem_of_get? h))

theorem Aligned.keeps_iff (h : r.Aligned config) :
    r.Keeps i ↔ ∃ p, r.fleet.pools[i]? = some p ∧ r.fleet.get? p.addr = some i := by
  have hget {a : Address} {i : PoolId} (hm : (a, i) ∈ r.fleet.registered) :
      ∃ p, r.fleet.pools[i]? = some p ∧ r.fleet.get? p.addr = some i := by
    obtain ⟨p, hp, rfl, -⟩ := h.tidy.pool a i hm
    exact ⟨p, hp, h.tidy.get?_eq hm⟩
  constructor
  · rintro (hm | ⟨slot, hslot, hi⟩)
    · obtain ⟨⟨a, j⟩, hm', rfl⟩ := List.mem_map.mp hm
      exact hget hm'
    · have hl := h.slots slot hslot
      unfold Slot.LeadsTo at hl
      cases hg : slot.group.master with
      | none =>
          rw [hg] at hl
          cases hi.symm.trans hl
      | some m =>
          rw [hg] at hl
          obtain ⟨j, hj, hm⟩ := hl
          cases hi.symm.trans hj
          exact hget hm
  · rintro ⟨p, -, hp⟩
    exact keeps_of_get? hp

theorem Renewal.closed (h : Renewal r x fresh r') : r'.closed = false := by
  rw [h.frame]
  exact h.isOpen

/-- Of the pools that were there, a renewal keeps just those of the masters in the new index. -/
theorem Renewal.keeps_iff (h : Renewal r x fresh r') (ha : r'.Aligned config)
    (hp : r.fleet.pools[i]? = some p) :
    r'.Keeps i ↔ p.addr ∈ x.masterAddresses ∧ r.fleet.get? p.addr = some i := by
  have hi := (List.getElem?_eq_some_iff.mp hp).1
  have hp' : r'.fleet.pools[i]? = some p := by
    rw [h.pools, List.getElem?_append_left hi, hp]
  constructor
  · intro hk
    obtain ⟨q, hq, hget⟩ := ha.keeps_iff.mp hk
    cases hp'.symm.trans hq
    have hm : p.addr ∈ x.masterAddresses := by
      by_contra hm
      cases (h.gone _ hm).symm.trans hget
    refine ⟨hm, ?_⟩
    cases hg : r.fleet.get? p.addr with
    | some j =>
        cases (h.kept _ hm j hg).symm.trans hget
        rfl
    | none =>
        -- A pool that was opened for this master comes after those that were there.
        obtain ⟨n, hn, hna⟩ := List.mem_map.mp ((h.fresh_iff _).mpr ⟨hm, hg⟩)
        obtain ⟨k, hk⟩ := List.getElem?_of_mem hn
        have hnew := h.opened k n hk
        rw [hna, hget] at hnew
        cases hnew
        omega
  · rintro ⟨hm, hg⟩
    exact keeps_of_get? (h.kept _ hm i hg)

theorem keeps_of_shutdown (h : (r.shutdown now).state.Keeps i) : r.Keeps i := by
  unfold Router.shutdown at h
  split at h
  · exact h
  · rcases h with h | h
    · have hr : (r.fleet.shutdownAll now).state.registered = [] :=
        (Fleet.rests_shutdownAll r.fleet now).registered
      simp [hr] at h
    · exact .inr h

/-- The pools that a renewal opens are kept. -/
theorem Renewal.keeps_of_le (h : Renewal r x fresh r') (hi : r.fleet.pools.length ≤ i)
    (hp : r'.fleet.pools[i]? = some p) : r'.Keeps i := by
  rw [h.pools, List.getElem?_append_right hi, List.getElem?_map, Option.map_eq_some_iff] at hp
  obtain ⟨n, hn, -⟩ := hp
  have hget := h.opened _ n hn
  rw [Nat.add_sub_cancel' hi] at hget
  exact keeps_of_get? hget

/-- All the pools that a router starts with are registered. -/
theorem keeps_ofResolved {background : Bool} {started : Router} {told : List Effect}
    (hn : (resolved.filterMap (·.masterAddr?)).Nodup)
    (h : ofResolved config background resolved = (.ok started, told))
    (hp : started.fleet.pools[i]? = some p) : started.Keeps i := by
  obtain ⟨slots, opened, x, hs, -, rfl, -⟩ := ofResolved_eq_ok h
  obtain ⟨hpools, hregistered, -⟩ := opens_seat hn hs
  rw [hpools, List.nil_append, List.getElem?_map, Option.map_eq_some_iff] at hp
  obtain ⟨n, hi, -⟩ := hp
  refine .inl (List.mem_map.mpr ⟨(n.addr, 0 + i), ?_, Nat.zero_add i⟩)
  rw [hregistered]
  exact List.mem_append_right _ (Fleet.mem_entries hi)

/-- A router that does not lead to a pool never does again, nor is there any new work for the pool
if nobody has it do something. -/
theorem Story.Runs.leaves {s : Story} {m : Move} (h : Story.Runs config s) (ha : s.Admits m)
    (hm : ∀ pm, m ≠ .pool i pm) (hp : s.router.fleet.pools[i]? = some p) (hk : ¬s.router.Keeps i)
    (now : Nat) : ∃ q, (s.next now m).router.fleet.pools[i]? = some q ∧ (q.AtWork ↔ p.AtWork) ∧
      ¬(s.next now m).router.Keeps i := by
  have hrefresh {t : Ticket} (hm : m.IsOf t) : ∃ q, (s.next now m).router.fleet.pools[i]? = some q ∧
      (q.AtWork ↔ p.AtWork) ∧ ¬(s.next now m).router.Keeps i := by
    rcases h.touches hm now with ⟨refreshes, hr⟩ | ⟨x, fresh, hx, hr⟩
    · rw [hr]
      exact ⟨p, hp, Iff.rfl, hk⟩
    · have hi := (List.getElem?_eq_some_iff.mp hp).1
      refine ⟨p, by rw [hr.pools, List.getElem?_append_left hi, hp], Iff.rfl, fun hk' => hk ?_⟩
      have ha' := (h.next now ha).reachable.aligned hr.closed
      exact keeps_of_get? ((hr.keeps_iff ha' hp).mp hk').2
  cases m with
  | refresh t | resume t | probed t | brokeOff t | abandon t => exact hrefresh rfl
  | shutdown =>
      have hl : LeavesAt i s.router.fleet.pools (s.router.shutdown now).state.fleet.pools :=
        leavesAt_shutdown
      obtain ⟨q, hq, hw⟩ := hl.exists_atWork hp
      exact ⟨q, hq, hw, fun hk' => hk (keeps_of_shutdown hk')⟩
  | pool j pm =>
      have hj : j ≠ i ∨ pm = .shutdown := .inl fun hj => hm pm (by rw [hj])
      have hl : LeavesAt i s.router.fleet.pools (s.router.fleet.step now j pm).state.pools :=
        leavesAt_step hj
      obtain ⟨q, hq, hw⟩ := hl.exists_atWork hp
      refine ⟨q, hq, hw, fun hk' => hk ?_⟩
      rcases hk' with hk' | hk'
      · exact .inl (Fleet.step_registered now j pm s.router.fleet ▸ hk')
      · exact .inr hk'

/-! ## Estates -/

/-- A story of a router, with those who hold its pools. -/
structure Estate where
  story : Story
  custody : Custody := {}

namespace Estate

/-- What can happen to a router and to the holders of its pools. -/
inductive Move
  | router (m : Router.Move)
  /-- From now on just these pools and older indexes are held by others. -/
  | hold (pools : List PoolId) (indexes : List Index)

/-- An estate after a move, and what the move asks for or tells. -/
abbrev Reaction := Shardway.Reaction Effect Estate

abbrev router (e : Estate) : Router := e.story.router

/-- Somebody holds the pool. -/
abbrev Holds (e : Estate) (i : PoolId) (p : Pool) : Prop := e.custody.Holds e.router i p

def move (now : Nat) (m : Move) (e : Estate) : Reaction :=
  match m with
  | .router m => ⟨{ e with story := e.story.next now m }, (e.router.step now m).effects⟩
  | .hold pools indexes => ⟨{ e with custody := { e.custody with pools, indexes } }, []⟩

/-- Lets every pool go that nobody holds. -/
def settle (e : Estate) : Reaction :=
  (e.custody.release e.router).lift (fun custody => { e with custody }) id

/-- One move at a time in milliseconds. With it the pools go that nobody holds any more. -/
def step (now : Nat) (m : Move) (e : Estate) : Reaction := (e.move now m).andThen settle

/-- The estate after these moves, each at its time. -/
def play (e : Estate) : List (Nat × Move) → Estate
  | [] => e
  | (now, m) :: ms => (e.step now m).state.play ms

/-- Nobody has a pool do something, or takes hold of it, that is gone. The indexes that others hold
have been current. -/
def Admits (e : Estate) : Move → Prop
  | .router m => e.story.Admits m ∧ ∀ i pm, m = .pool i pm → i ∉ e.custody.gone
  | .hold pools indexes => (∀ i ∈ pools, i ∉ e.custody.gone) ∧
      ∀ x ∈ indexes, x = e.router.current ∨ x ∈ e.custody.indexes

/-- The stories of the routers of a configuration, with those who hold pools. The router itself is
held all along. -/
inductive Runs (config : Config.Cluster) : Estate → Prop
  | launch {sets : List ReplicaSet} {round : Round} {background : Bool}
      {resolved : List ResolvedGroup} {started : Router} {told : List Effect} :
      plan config = .ok sets → Round.Runs sets round → round.collect.2 = some (.ok resolved) →
      ofResolved config background resolved = (.ok started, told) →
      Runs config { story := { router := started } }
  | step {e : Estate} {m : Move} (now : Nat) :
      Runs config e → e.Admits m → Runs config (e.step now m).state

/-- An estate goes on by moves that are admitted, in any order. -/
inductive Leads (e : Estate) : Estate → Prop
  | refl : Leads e e
  | step {e' : Estate} {m : Move} (now : Nat) :
      Leads e e' → e'.Admits m → Leads e (e'.step now m).state

variable {e e' : Estate} {m : Move}

/-- The router is held, and nobody holds a pool that is gone. -/
structure Sound (e : Estate) : Prop where
  router : e.custody.router = true
  gone : ∀ i ∈ e.custody.gone, ∃ p, e.router.fleet.pools[i]? = some p ∧ ¬e.Holds i p

/-- Of the pools just those are gone that nobody holds. -/
structure Kept (e : Estate) : Prop extends Sound e where
  held : ∀ i p, e.router.fleet.pools[i]? = some p → i ∉ e.custody.gone → e.Holds i p

theorem Sound.settle (h : e.Sound) : e.settle.state.Kept where
  router := h.router
  gone := fun i hi => by
    rcases Custody.mem_gone_release.mp hi with hi | hi
    · exact h.gone i hi
    · exact hi
  held := fun i p hp hi => by
    by_contra hh
    exact hi (Custody.mem_gone_release.mpr (.inr ⟨p, hp, hh⟩))

theorem Sound.hold {pools : List PoolId} {indexes : List Index} (h : e.Sound)
    (ha : e.Admits (.hold pools indexes)) (now : Nat) :
    (e.move now (.hold pools indexes)).state.Sound where
  router := h.router
  gone := fun i hi => by
    obtain ⟨p, hp, hh⟩ := h.gone i hi
    refine ⟨p, hp, fun hh' => hh ?_⟩
    rcases hh' with hh' | ⟨x, hx, hl⟩ | hh' | hh'
    · exact absurd hi (ha.1 i hh')
    · rcases ha.2 x hx with rfl | hx
      · exact .inr (.inr (.inl ⟨.inl h.router, .inr hl⟩))
      · exact .inr (.inl ⟨x, hx, hl⟩)
    · exact .inr (.inr (.inl hh'))
    · exact .inr (.inr (.inr hh'))

theorem Sound.move_router {m : Router.Move} (h : e.Sound) (hr : e.story.Runs config)
    (ha : e.Admits (.router m)) (now : Nat) : (e.move now (.router m)).state.Sound where
  router := h.router
  gone := fun i hi => by
    obtain ⟨p, hp, hh⟩ := h.gone i hi
    have hk : ¬e.router.Keeps i := fun hk => hh (.inr (.inr (.inl ⟨.inl h.router, hk⟩)))
    obtain ⟨q, hq, hw, hk'⟩ :=
      hr.leaves ha.1 (fun pm hm => ha.2 i pm hm hi) hp hk now
    refine ⟨q, hq, fun hh' => hh ?_⟩
    rcases hh' with hh' | hh' | ⟨-, hh'⟩ | hh'
    · exact .inl hh'
    · exact .inr (.inl hh')
    · exact absurd hh' hk'
    · exact .inr (.inr (.inr (hw.mp hh')))

theorem Kept.step (h : e.Kept) (hr : e.story.Runs config) (ha : e.Admits m) (now : Nat) :
    (e.step now m).state.Kept := by
  cases m with
  | router m => exact (h.toSound.move_router hr ha now).settle
  | hold pools indexes => exact (h.toSound.hold ha now).settle

theorem Runs.story (h : Runs config e) : Story.Runs config e.story := by
  induction h with
  | launch hp hr ho hs => exact .launch hp hr ho hs
  | @step e m now _ ha ih =>
      cases m with
      | router m => exact ih.next now ha.1
      | hold pools indexes => exact ih

/-- All along, just those pools are gone that nobody holds. -/
theorem Runs.kept (h : Runs config e) : e.Kept := by
  induction h with
  | launch hp hr ho hs =>
      obtain ⟨hc, rfl⟩ := plan_eq_ok hp
      have hn := nodup_masters hc (hr.elects.outcome ho) (by
        rw [hr.sane.map_id_outcome (ReplicaSet.pairwise_ofNodes _) ho]
        exact nodup_of_pairwise_lt (ReplicaSet.pairwise_ofNodes _))
      refine ⟨⟨rfl, by simp⟩, fun i p hp _ => ?_⟩
      exact .inr (.inr (.inl ⟨.inl rfl, keeps_ofResolved hn hs hp⟩))
  | step now h ha ih => exact ih.step h.story ha now

theorem Runs.leads (h : Runs config e) (hl : Leads e e') : Runs config e' := by
  induction hl with
  | refl => exact h
  | step now _ ha ih => exact ih.step now ha

/-- What has happened stays in the past. -/
theorem Leads.exists_past_eq (h : Leads e e') : ∃ es, e'.story.past = e.story.past ++ es := by
  induction h with
  | refl => exact ⟨[], (List.append_nil _).symm⟩
  | @step e' m now _ _ ih =>
      obtain ⟨es, he⟩ := ih
      cases m with
      | router m =>
          refine ⟨es ++ e'.story.news now m, ?_⟩
          rw [← List.append_assoc, ← he]
          rfl
      | hold pools indexes => exact ⟨es, he⟩

theorem gone_subset_step : e.custody.gone ⊆ (e.step now m).state.custody.gone := by
  intro i hi
  cases m with
  | router m => exact Custody.mem_gone_release.mpr (.inl hi)
  | hold pools indexes => exact Custody.mem_gone_release.mpr (.inl hi)

theorem gone_subset_play {ms : List (Nat × Move)} :
    e.custody.gone ⊆ (e.play ms).custody.gone := by
  induction ms generalizing e with
  | nil => exact List.Subset.refl _
  | cons x ms ih => exact List.Subset.trans gone_subset_step ih

theorem Leads.trans {e'' : Estate} (h : Leads e e') (h' : Leads e' e'') : Leads e e'' := by
  induction h' with
  | refl => exact h
  | step now _ ha ih => exact ih.step now ha

/-- No refresh comes with the move, and nobody takes hold of an index. -/
def Move.IsSimple : Move → Prop
  | .router (.refresh _) => False
  | .hold _ indexes => indexes = []
  | _ => True

/-- Simple moves are all admitted if no pool is gone after them. -/
theorem leads_play {ms : List (Nat × Move)} (hm : ∀ x ∈ ms, x.2.IsSimple)
    (hg : (e.play ms).custody.gone = []) : Leads e (e.play ms) := by
  induction ms generalizing e with
  | nil => exact .refl
  | cons x ms ih =>
      obtain ⟨now, m⟩ := x
      obtain ⟨hx, hms⟩ := List.forall_mem_cons.mp hm
      refine .trans (.step now .refl ?_) (ih hms hg)
      have hn : e.custody.gone = [] :=
        List.subset_nil.mp (hg ▸ (gone_subset_play : _ ⊆ (e.play ((now, m) :: ms)).custody.gone))
      cases m with
      | hold pools indexes =>
          cases hx
          simp [Admits, hn]
      | router m =>
          cases m with
          | refresh t => exact hx.elim
          | _ => simp [Admits, Story.Admits, hn]

end Estate

end Router

end Shardway
