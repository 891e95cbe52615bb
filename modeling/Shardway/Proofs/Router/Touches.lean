import Shardway.Proofs.Router.Holding

/-!
# What refreshes touch

A refresh that fails leaves everything as it was. One that succeeds puts a new index in place, and
changes no pool that somebody still holds. A pool that it retires and that nobody else holds goes
with it, by which its idle connections are closed.
-/

namespace Shardway.Router

variable {config : Config.Cluster} {t : Ticket} {x : Index} {now : Nat} {i : PoolId} {p : Pool}

theorem plain_step {r : Router} {m : Move} (hm : m.IsOf t) : Plain (r.step now m).effects := by
  cases m with
  | refresh u => exact plain_refresh
  | resume u => exact plain_resume
  | probed u i j role => exact plain_onRound
  | brokeOff u i reason => exact plain_onRound
  | abandon u => exact plain_abandon
  | shutdown | pool i m => exact hm.elim

/-- No refresh does anything to a pool that is there. -/
theorem Story.Runs.pool_next {s : Story} {m : Move} (h : Story.Runs config s) (hm : m.IsOf t)
    (hp : s.router.fleet.pools[i]? = some p) (now : Nat) :
    (s.next now m).router.fleet.pools[i]? = some p := by
  rcases h.touches hm now with ⟨refreshes, hr⟩ | ⟨x, fresh, -, hr⟩
  · rw [hr]
    exact hp
  · rw [hr.pools, List.getElem?_append_left (List.getElem?_eq_some_iff.mp hp).1, hp]

namespace Estate

variable {e e' : Estate} {m : Router.Move}

/-- Nothing has changed but which refreshes are in progress, and nothing is asked of any pool. -/
structure Spares (e : Estate) (a : Reaction) : Prop where
  router : Untouched e.router a.state.router
  custody : a.state.custody = e.custody
  plain : Plain a.effects

/-- A move of the refresh has put the index in place, or it has touched nothing. -/
inductive Touches (e : Estate) (now : Nat) (m : Router.Move) (t : Ticket) (x : Index) : Prop
  | renews {fresh : List Node} : .renewed t x ∈ e.story.news now m →
      Renewal e.router x fresh (e.step now (.router m)).state.router → Touches e now m t x
  | nothing : .renewed t x ∉ e.story.news now m → e.Spares (e.step now (.router m)) →
      Touches e now m t x

/-- The pool is there, nothing is asked of it, and it does what it did before. -/
structure Remains (a : Reaction) (i : PoolId) (p : Pool) : Prop where
  there : a.state.router.fleet.pools[i]? = some p
  stays : i ∉ a.state.custody.gone
  spared : ∀ x, .pool i x ∉ a.effects
  serves : ∀ now m,
    (a.state.router.stepPool now i m).effects = (p.step now m).effects.map (.pool i)

/-- The pool was registered, is not one of a master in the index, and goes. Just its idle
connections are closed. -/
structure Goes (e : Estate) (a : Reaction) (x : Index) (i : PoolId) (p : Pool) : Prop where
  registered : e.router.fleet.get? p.addr = some i
  retired : p.addr ∉ x.masterAddresses
  gone : i ∈ a.state.custody.gone
  closed : ∀ y, .pool i y ∈ a.effects ↔ ∃ c ∈ p.idle, y = .close c.link

/-! ## Moves of a refresh -/

theorem mem_effects_step {y : Effect} (m : Router.Move) :
    y ∈ (e.step now (.router m)).effects ↔ y ∈ (e.router.step now m).effects ∨
      ∃ i p, (e.router.step now m).state.fleet.pools[i]? = some p ∧ i ∉ e.custody.gone ∧
        ¬(e.step now (.router m)).state.Holds i p ∧ ∃ c ∈ p.idle, y = .pool i (.close c.link) := by
  simp only [step, move, settle, Reaction.andThen_effects, Reaction.lift_effects, List.map_id,
    List.mem_append, Custody.mem_effects_release]
  rfl

/-- A refresh asks nothing of a pool but to close what is idle in it when it goes. -/
theorem pool_mem_effects_step (hm : m.IsOf t) {y : Pool.Effect}
    (hp : (e.router.step now m).state.fleet.pools[i]? = some p) :
    .pool i y ∈ (e.step now (.router m)).effects ↔ i ∉ e.custody.gone ∧
      ¬(e.step now (.router m)).state.Holds i p ∧ ∃ c ∈ p.idle, y = .close c.link := by
  rw [mem_effects_step]
  constructor
  · rintro (hy | ⟨j, q, hq, hg, hh, c, hc, hy⟩)
    · exact (plain_step hm _ hy).elim
    · cases hy
      cases hp.symm.trans hq
      exact ⟨hg, hh, c, hc, rfl⟩
  · rintro ⟨hg, hh, c, hc, rfl⟩
    exact .inr ⟨i, p, hp, hg, hh, c, hc, rfl⟩

theorem Runs.spares (h : Runs config e) (hm : m.IsOf t)
    (hu : Untouched e.router (e.story.next now m).router) : e.Spares (e.step now (.router m)) := by
  have hk := h.kept
  obtain ⟨refreshes, hr⟩ := hu
  have hn : e.custody.release (e.story.next now m).router = ⟨e.custody, []⟩ := by
    apply Custody.release_of_held
    rw [hr]
    intro i p hp hi
    rcases hk.held i p hp hi with hh | hh | ⟨-, hh⟩ | hh
    · exact .inl hh
    · exact .inr (.inl hh)
    · exact .inr (.inr (.inl ⟨.inl hk.router, hh⟩))
    · exact .inr (.inr (.inr hh))
  refine ⟨⟨refreshes, hr⟩, congrArg Reaction.state hn, ?_⟩
  have he : (e.step now (.router m)).effects = (e.router.step now m).effects ++ [] :=
    congrArg (fun k => _ ++ k.effects.map id) hn
  rw [he, List.append_nil]
  exact plain_step hm

/-- A pool that somebody holds remains. -/
theorem Runs.remains (h : Runs config e) (ha : e.story.Admits m) (hm : m.IsOf t)
    (hp : e.router.fleet.pools[i]? = some p) (hh : (e.step now (.router m)).state.Holds i p) :
    Remains (e.step now (.router m)) i p := by
  have hp' := h.story.pool_next hm hp now
  have hadm : e.Admits (.router m) := ⟨ha, fun j pm hm' => by subst hm'; exact hm.elim⟩
  refine ⟨hp', fun hg => ?_, fun y hy => ?_, fun now' pm => ?_⟩
  · obtain ⟨q, hq, hn⟩ := (h.step now hadm).kept.gone i hg
    cases hp'.symm.trans hq
    exact hn hh
  · exact ((pool_mem_effects_step hm hp').mp hy).2.1 hh
  · have hp' : (e.step now (.router m)).state.router.fleet.pools[i]? = some p := hp'
    simp [stepPool, Fleet.step, hp', Reaction.lift]

/-- A pool that nobody holds any more was retired. -/
theorem Runs.goes (h : Runs config e) (ha : e.story.Admits m) (hm : m.IsOf t)
    (hp : e.router.fleet.pools[i]? = some p) (hg : i ∉ e.custody.gone)
    (hh : ¬(e.step now (.router m)).state.Holds i p) :
    ∃ x, .renewed t x ∈ e.story.news now m ∧ Goes e (e.step now (.router m)) x i p := by
  have hk := h.kept
  have hp' := h.story.pool_next hm hp now
  -- The router has kept the pool, and keeps it no more.
  have hkept : e.router.Keeps i := by
    rcases hk.held i p hp hg with hh' | hh' | ⟨-, hh'⟩ | hh'
    · exact absurd (.inl hh') hh
    · exact absurd (.inr (.inl hh')) hh
    · exact hh'
    · exact absurd (.inr (.inr (.inr hh'))) hh
  have hleft : ¬(e.story.next now m).router.Keeps i := fun hk' =>
    hh (.inr (.inr (.inl ⟨.inl hk.router, hk'⟩)))
  rcases h.story.touches hm now with ⟨refreshes, hr⟩ | ⟨x, fresh, hx, hr⟩
  · rw [hr] at hleft
    exact absurd hkept hleft
  · obtain ⟨q, hq, hget⟩ := (h.story.reachable.aligned hr.isOpen).keeps_iff.mp hkept
    cases hp.symm.trans hq
    refine ⟨x, hx, hget, fun hx' => ?_, ?_, fun y => ?_⟩
    · have ha' := (h.story.next now ha).reachable.aligned hr.closed
      exact hleft ((hr.keeps_iff ha' hp).mpr ⟨hx', hget⟩)
    · exact Custody.mem_gone_release.mpr (.inr ⟨p, hp', hh⟩)
    · rw [pool_mem_effects_step hm hp']
      exact ⟨fun hy => hy.2.2, fun hy => ⟨hg, hh, hy⟩⟩

/-- A pool that nobody holds after the move was there before. -/
theorem Runs.pool_of_not_holds (h : Runs config e) (hm : m.IsOf t)
    (hp : (e.router.step now m).state.fleet.pools[i]? = some p)
    (hh : ¬(e.step now (.router m)).state.Holds i p) : e.router.fleet.pools[i]? = some p := by
  have hleft : ¬(e.story.next now m).router.Keeps i := fun hk' =>
    hh (.inr (.inr (.inl ⟨.inl h.kept.router, hk'⟩)))
  rcases h.story.touches hm now with ⟨refreshes, hr⟩ | ⟨x, fresh, hx, hr⟩
  · have hpools : (e.router.step now m).state.fleet.pools = e.router.fleet.pools :=
      congrArg (fun r => r.fleet.pools) hr
    rwa [hpools] at hp
  · by_cases hi : i < e.router.fleet.pools.length
    · have hpools := hr.pools
      rwa [← List.getElem?_append_left hi, ← hpools]
    · exact absurd (hr.keeps_of_le (Nat.le_of_not_lt hi) hp) hleft

end Estate

/-- However refreshes, shutdowns, the moves of pools and those of their holders interleave, a
refresh ends at most once. If it fails, none of its moves touches anything; and so it is with those
of a refresh that is given up or still in progress. If it succeeds, just one of its moves puts an
index in place: the generation goes up by one, each master of the index without a pool gets a single
new one, those with a pool keep it, and nobody else has one any more. A pool that somebody holds
then, retired or not, is as it was and serves as it did. Just a pool that the refresh has retired
and that nobody else holds goes, by which its idle connections are closed. -/
theorem refresh_touches {e e' : Estate} {m : Move} (h : Estate.Runs config e)
    (ha : e.story.Admits m) (hm : m.IsOf t) (now : Nat)
    (hl : Estate.Leads (e.step now (.router m)).state e') :
    e'.story.past.countP (·.ended? = some t) ≤ 1 ∧
    ((∀ x, .renewed t x ∉ e.story.news now m) → e.Spares (e.step now (.router m))) ∧
    (∀ f, .told (.refreshed t (.error f)) ∈ e'.story.past → e.Spares (e.step now (.router m))) ∧
    (∀ x, .renewed t x ∈ e'.story.past → e.Touches now m t x) ∧
    (∀ i p, e.router.fleet.pools[i]? = some p → (e.step now (.router m)).state.Holds i p →
      Estate.Remains (e.step now (.router m)) i p) ∧
    (∀ i p, e.router.fleet.pools[i]? = some p → i ∉ e.custody.gone →
      ¬(e.step now (.router m)).state.Holds i p →
      ∃ x, .renewed t x ∈ e.story.news now m ∧ Estate.Goes e (e.step now (.router m)) x i p) ∧
    ∀ y ∈ (e.step now (.router m)).effects, Plain [y] ∨
      ∃ i p, e.router.fleet.pools[i]? = some p ∧ i ∉ e.custody.gone ∧
        ¬(e.step now (.router m)).state.Holds i p ∧ ∃ c ∈ p.idle, y = .pool i (.close c.link) := by
  have hs := h.story
  have hadm : e.Admits (.router m) := ⟨ha, fun j pm hm' => by subst hm'; exact hm.elim⟩
  have hs' : Story.Runs config e'.story := ((h.step now hadm).leads hl).story
  refine ⟨hs'.countP_ended_le_one t, ?_⟩
  suffices hends : ((∀ x, .renewed t x ∉ e.story.news now m) → e.Spares (e.step now (.router m))) ∧
      (∀ f, .told (.refreshed t (.error f)) ∈ e'.story.past → e.Spares (e.step now (.router m))) ∧
      ∀ x, .renewed t x ∈ e'.story.past → e.Touches now m t x by
    refine ⟨hends.1, hends.2.1, hends.2.2, fun i p => h.remains ha hm, fun i p => h.goes ha hm, ?_⟩
    intro y hy
    rcases (Estate.mem_effects_step m).mp hy with hy | ⟨i, p, hp, hg, hh, hy⟩
    · exact .inl fun z hz => List.mem_singleton.mp hz ▸ plain_step hm y hy
    · exact .inr ⟨i, p, h.pool_of_not_holds hm hp hh, hg, hh, hy⟩
  rcases hs.touches hm now with hu | ⟨x, fresh, hx, hr⟩
  · have hsp := h.spares hm hu
    exact ⟨fun _ => hsp, fun _ _ => hsp, fun x _ =>
      .nothing (fun hx => hs.not_untouched ha hx hu) hsp⟩
  · have hpast : .renewed t x ∈ e'.story.past := by
      obtain ⟨es, he⟩ := hl.exists_past_eq
      rw [he]
      exact List.mem_append_left _ (List.mem_append_right _ hx)
    refine ⟨fun hn => absurd hx (hn x), fun f hf => ?_, fun y hy => ?_⟩
    · cases hs'.ended_unique hpast hf rfl rfl
    · cases hs'.ended_unique hpast hy rfl rfl
      exact .renews hx hr

/-- Two refreshes have come to a router. -/
def Estate.twofold (r : Router) : Estate :=
  (((Estate.mk (.mk r []) {}).step 0 (.router (.refresh 0))).state.step 0
    (.router (.refresh 1))).state

theorem Estate.Runs.twofold {r : Router} (h : Estate.Runs config { story := { router := r } }) :
    Estate.Runs config (Estate.twofold r) := by
  have h0 := h.step 0 (m := .router (.refresh 0)) ⟨by simp [Story.Admits], by simp⟩
  refine h0.step 0 ⟨fun hm => ?_, by simp⟩
  cases Story.eq_refresh_of_came hm

/-- Each pool gets an idle connection, and somebody takes hold of the second pool. The first refresh
breaks off. The second one finds that the first group has lost its only node, and that the second
group has a new master. -/
def changeover : List (Nat × Estate.Move) :=
  [(1, .router (.pool 0 (.borrow 0))), (1, .router (.pool 0 (.connected 0 (.ok 7)))),
    (1, .router (.pool 0 (.giveBack 0 7 true))), (1, .router (.pool 1 (.borrow 1))),
    (1, .router (.pool 1 (.connected 1 (.ok 8)))), (1, .router (.pool 1 (.giveBack 1 8 true))),
    (1, .hold [1] []), (2, .router (.brokeOff 0 1 "task 9 panicked")),
    (2, .router (.resume 0)), (3, .router (.resume 1)), (4, .router (.probed 1 1 1 .master)),
    (5, .router (.probed 1 0 0 (.unreachable "refused"))),
    (6, .router (.probed 1 1 0 (.replica none)))]

/-- The round of the second refresh. -/
def changeoverRound : Round :=
  ((((Round.start (ReplicaSet.ofNodes trio.nodeList)).state.answer 1 1 .master).state.answer 0 0
    (.unreachable "refused")).state.answer 1 0 (.replica none)).state

/-- The groups that it finds. -/
def changeoverGroups : List ResolvedGroup :=
  [⟨1, none, [], [⟨⟨"a", 7000⟩, 1, .ofMillis 2000⟩]⟩,
    ⟨2, some ⟨⟨"c", 7000⟩, 2, .ofMillis 500⟩, [⟨⟨"b", 7000⟩, 2, .ofMillis 2000⟩], []⟩]

/-- The second refresh retires both pools that were there. Somebody holds the second one. -/
theorem exists_changeover : ∃ e p q, Estate.Runs trio e ∧ e.story.Renews 6 1 changeoverGroups ∧
    e.router.fleet.pools = [p, q] ∧ p.idle = [⟨7, 1⟩] ∧ q.idle = [⟨8, 1⟩] ∧ e.custody.gone = [] ∧
    (e.step 6 (.router (.resume 1))).state.Holds 1 q ∧
    ¬(e.step 6 (.router (.resume 1))).state.Holds 0 p := by
  obtain ⟨_, _, started, told, hp, hn, ho, hs⟩ := exists_launch_trio
  have h := Estate.Runs.launch hp hn ho hs
  have hr : (ofResolved trio false trioGroups).1.toOption.map (fun r =>
      let e := (Estate.twofold r).play changeover
      ((e.router.closed, e.router.refreshes),
        (e.custody.pools, e.custody.indexes.length, e.custody.gone),
        e.router.fleet.pools.map fun p => (p.addr, p.idle, decide p.AtWork))) =
      some ((false, [(1, .probing changeoverRound)]), ([1], 0, []),
        [(⟨"a", 7000⟩, [⟨7, 1⟩], false), (⟨"b", 7000⟩, [⟨8, 1⟩], false)]) := by cbv
  rw [hs] at hr
  obtain ⟨hr, hk⟩ := Prod.mk.inj (Option.some.inj hr)
  obtain ⟨ho, hround⟩ := Prod.mk.inj hr
  obtain ⟨hk, hmap⟩ := Prod.mk.inj hk
  obtain ⟨hheld, hk⟩ := Prod.mk.inj hk
  obtain ⟨hindexes, hgone⟩ := Prod.mk.inj hk
  have h : Estate.Runs trio ((Estate.twofold started).play changeover) :=
    h.twofold.leads (Estate.leads_play (by simp [changeover, Estate.Move.IsSimple]) hgone)
  generalize (Estate.twofold started).play changeover = e at *
  obtain ⟨p, l, hpools, hp, hl⟩ := List.map_eq_cons_iff.mp hmap
  obtain ⟨q, l', rfl, hq, hl'⟩ := List.map_eq_cons_iff.mp hl
  obtain rfl := List.map_eq_nil_iff.mp hl'
  obtain ⟨hpa, hp⟩ := Prod.mk.inj hp
  obtain ⟨hpi, hpw⟩ := Prod.mk.inj hp
  have hn : e.story.Renews 6 1 changeoverGroups := h.story.renews ho hround (by decide) 6
  refine ⟨e, p, q, h, hn, hpools, hpi, (Prod.mk.inj (Prod.mk.inj hq).2).1, hgone, .inl ?_, ?_⟩
  · change 1 ∈ e.custody.pools
    simp [hheld]
  · rintro (hh | ⟨x, hx, -⟩ | ⟨-, hh⟩ | hh)
    · change 0 ∈ e.custody.pools at hh
      simp [hheld] at hh
    · change x ∈ e.custody.indexes at hx
      simp [List.length_eq_zero_iff.mp hindexes] at hx
    · -- The first group has no master any more.
      rcases h.story.touches (m := .resume 1) rfl 6 with hu | ⟨x, fresh, -, hrenewal⟩
      · exact h.story.not_untouched (m := .resume 1) trivial hn.told hu
      · have ha := (h.story.next 6 (m := .resume 1) trivial).reachable.aligned hn.isOpen
        have hp : e.router.fleet.pools[0]? = some p := by rw [hpools]; rfl
        have hm := ((hrenewal.keeps_iff ha hp).mp hh).1
        have hx : x.groups = changeoverGroups := hrenewal.current ▸ hn.groups
        rw [hpa, Index.masterAddresses, hx] at hm
        revert hm
        decide
    · exact of_decide_eq_false hpw hh

/-- Of the pools that a refresh has retired, one goes and the other one remains. -/
theorem refresh_touches_changeover : ∃ e p q x fresh, Estate.Runs trio e ∧
    e.router.fleet.pools = [p, q] ∧ p.idle = [⟨7, 1⟩] ∧ q.idle = [⟨8, 1⟩] ∧
    Renewal e.router x fresh (e.step 6 (.router (.resume 1))).state.router ∧
    x.masterAddresses = [⟨"c", 7000⟩] ∧
    Estate.Goes e (e.step 6 (.router (.resume 1))) x 0 p ∧
    Estate.Remains (e.step 6 (.router (.resume 1))) 1 q := by
  obtain ⟨e, p, q, h, hn, hpools, hpi, hqi, hgone, hq, hp⟩ := exists_changeover
  obtain ⟨-, -, -, ht, hremains, hgoes, -⟩ :=
    refresh_touches h (m := .resume 1) trivial rfl 6 .refl
  have hx : (e.story.next 6 (.resume 1)).router.current.masterAddresses = [⟨"c", 7000⟩] := by
    rw [Index.masterAddresses, hn.groups]
    rfl
  obtain ⟨x, hnews, hgo⟩ := hgoes 0 p (by rw [hpools]; rfl) (by simp [hgone]) hp
  cases ht x (List.mem_append_right _ hnews) with
  | nothing hnot _ => exact absurd hnews hnot
  | renews _ hrenewal =>
      refine ⟨e, p, q, x, _, h, hpools, hpi, hqi, hrenewal, hrenewal.current ▸ hx, hgo, ?_⟩
      exact hremains 1 q (by rw [hpools]; rfl) hq

/-- A refresh that succeeds closes the idle connection of a pool that was there. -/
theorem idle_closed_by_refresh : ∃ e p x, Estate.Runs trio e ∧
    e.router.fleet.pools[0]? = some p ∧ p.idle = [⟨7, 1⟩] ∧
    .renewed 1 x ∈ e.story.news 6 (.resume 1) ∧
    .pool 0 (.close 7) ∈ (e.step 6 (.router (.resume 1))).effects := by
  obtain ⟨e, p, q, h, hn, hpools, hpi, -, hgone, -, hp⟩ := exists_changeover
  have hp' : e.router.fleet.pools[0]? = some p := by rw [hpools]; rfl
  obtain ⟨x, hnews, hgo⟩ := h.goes (m := .resume 1) trivial rfl hp' (by simp [hgone]) hp
  refine ⟨e, p, x, h, hp', hpi, hnews, (hgo.closed _).mpr ⟨⟨7, 1⟩, ?_, rfl⟩⟩
  rw [hpi]
  exact List.mem_singleton_self _

end Shardway.Router
