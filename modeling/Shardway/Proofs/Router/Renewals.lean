import Shardway.Proofs.Router.Launch

/-!
# Renewals

A refresh that succeeds puts a new index in place and sees to it that just the masters in it have
registered pools. Each move of a refresh does this or nothing, and a refresh ends once at most.
-/

namespace Shardway

/-! ## Pools of new masters -/

namespace Fleet

/-- Those of the nodes that have no registered pool. -/
def lacking (f : Fleet) (nodes : List Node) : List Node :=
  nodes.filter fun n => (f.get? n.addr).isNone

/-- How new pools for the nodes are registered when so many pools are there. -/
def entries (count : Nat) (nodes : List Node) : List (Address × PoolId) :=
  nodes.mapIdx fun k n => (n.addr, count + k)

variable {f : Fleet} {n : Node} {nodes : List Node} {a : Address} {i : PoolId}

theorem lacking_openPool (h : ∀ m ∈ nodes, m.addr ≠ n.addr) :
    (f.openPool n).state.lacking nodes = f.lacking nodes :=
  List.filter_congr fun m hm => by rw [get?_openPool_of_ne (h m hm)]

theorem entries_cons (count : Nat) :
    entries count (n :: nodes) = (n.addr, count) :: entries (count + 1) nodes := by
  simp [entries, List.mapIdx_cons, Nat.add_assoc, Nat.add_comm 1]

theorem mem_entries {count k : Nat} (h : nodes[k]? = some n) :
    (n.addr, count + k) ∈ entries count nodes := by
  obtain ⟨hk, rfl⟩ := List.getElem?_eq_some_iff.mp h
  exact List.mem_mapIdx.mpr ⟨k, hk, rfl⟩

/-- What becomes of a fleet in which pools are opened for the masters that have none. -/
structure Opens (f : Fleet) (masters : List Node) (g : Fleet) : Prop where
  pools : g.pools = f.pools ++ (f.lacking masters).map (Pool.ofNode · f.tuning)
  registered : g.registered = f.registered ++ entries f.pools.length (f.lacking masters)
  frame : g = { f with pools := g.pools, registered := g.registered }

theorem opens_nil : f.Opens [] f := ⟨by simp [lacking], by simp [lacking, entries], rfl⟩

theorem Opens.cons_some {g : Fleet} (h : f.Opens nodes g) (hg : f.get? n.addr = some i) :
    f.Opens (n :: nodes) g := by
  have hl : f.lacking (n :: nodes) = f.lacking nodes := by simp [lacking, hg]
  exact ⟨hl ▸ h.pools, hl ▸ h.registered, h.frame⟩

theorem Opens.cons_none {g : Fleet} (h : (f.openPool n).state.Opens nodes g)
    (hg : f.get? n.addr = none) (hn : ∀ m ∈ nodes, m.addr ≠ n.addr) :
    f.Opens (n :: nodes) g := by
  have hl : f.lacking (n :: nodes) = n :: f.lacking nodes := by simp [lacking, hg]
  obtain ⟨hp, hr, hf⟩ := h
  rw [lacking_openPool hn] at hp hr
  constructor
  · rw [hl, hp]
    simp [openPool]
  · rw [hl, hr, entries_cons]
    simp [openPool]
  · exact hf

end Fleet

namespace Router

variable {config : Config.Cluster} {r r' : Router} {t : Ticket} {resolved : List ResolvedGroup}
  {x : Index} {opened : Fleet} {round : Round} {rest : List (Ticket × RefreshStage)}

theorem opens_seat {f : Fleet} {slots : List Slot} {o : Fleet.Reaction}
    (hn : (resolved.filterMap (·.masterAddr?)).Nodup) (h : seat resolved f = (.ok slots, o)) :
    f.Opens (resolved.filterMap (·.master)) o.state := by
  induction resolved generalizing f slots o with
  | nil =>
      cases h
      exact Fleet.opens_nil
  | cons g resolved ih =>
      rcases seat_cons h with ⟨_, hg, hs, -⟩ | ⟨m, i, first, _, _, hg, ho, hs, -, rfl⟩
      · simp only [List.filterMap_cons, ResolvedGroup.masterAddr?, hg, Option.map_none] at hn ⊢
        exact ih hn hs
      · simp only [List.filterMap_cons, ResolvedGroup.masterAddr?, hg, Option.map_some,
          List.nodup_cons] at hn ⊢
        obtain ⟨hm, hn⟩ := hn
        unfold Fleet.getOrOpen at ho
        split at ho
        · cases ho
        split at ho
        · rename_i hget
          cases ho
          exact (ih hn hs).cons_some hget
        · rename_i hget
          cases ho
          apply (ih hn hs).cons_none hget
          -- No other group has a master at this address.
          intro n hr heq
          obtain ⟨g', hg', hmaster⟩ := List.mem_filterMap.mp hr
          apply hm
          exact List.mem_filterMap.mpr ⟨g', hg', by rw [hmaster, Option.map_some, heq]⟩

/-! ## Renewals -/

/-- The routers differ in the refreshes in progress only. -/
def Untouched (r r' : Router) : Prop := ∃ refreshes, r' = { r with refreshes }

/-- What a refresh that succeeds makes of a router: it puts the index `x` in place, and opens pools
for the nodes `fresh`. -/
structure Renewal (r : Router) (x : Index) (fresh : List Node) (r' : Router) : Prop where
  isOpen : r.closed = false
  current : r'.current = x
  generation : x.generation = r.generation + 1 ∧ r'.generation = r.generation + 1
  /-- New pools come after those that are there, which stay as they are. -/
  pools : r'.fleet.pools = r.fleet.pools ++ fresh.map (Pool.ofNode · r.fleet.tuning)
  /-- There is one new pool for each master that had none. -/
  nodup : (fresh.map (·.addr)).Nodup
  fresh_iff : ∀ a, a ∈ fresh.map (·.addr) ↔ a ∈ x.masterAddresses ∧ r.fleet.get? a = none
  opened : ∀ k n, fresh[k]? = some n → r'.fleet.get? n.addr = some (r.fleet.pools.length + k)
  /-- Whoever stays master keeps its pool. -/
  kept : ∀ a ∈ x.masterAddresses, ∀ i, r.fleet.get? a = some i → r'.fleet.get? a = some i
  gone : ∀ a, a ∉ x.masterAddresses → r'.fleet.get? a = none
  frame : r' = { r with
    generation := r'.generation
    current := r'.current
    fleet := { r.fleet with pools := r'.fleet.pools, registered := r'.fleet.registered }
    refreshes := r'.refreshes }

theorem untouched_refl : Untouched r r := ⟨r.refreshes, rfl⟩

theorem mem_map_lacking {f : Fleet} {a : Address} :
    a ∈ (f.lacking (resolved.filterMap (·.master))).map (·.addr) ↔
      a ∈ resolved.filterMap (·.masterAddr?) ∧ f.get? a = none := by
  simp only [Fleet.lacking, List.mem_map, List.mem_filter, List.mem_filterMap,
    ResolvedGroup.masterAddr?, Option.map_eq_some_iff, Option.isNone_iff_eq_none]
  constructor
  · rintro ⟨n, ⟨⟨g, hg, hm⟩, hn⟩, rfl⟩
    exact ⟨⟨g, hg, n, hm, rfl⟩, hn⟩
  · rintro ⟨⟨g, hg, n, hm, rfl⟩, hn⟩
    exact ⟨n, ⟨⟨g, hg, hm⟩, hn⟩, rfl⟩

theorem Installed.seat (h : Installed config r resolved x opened) :
    ∃ slots o, Router.seat resolved r.fleet = (.ok slots, o) ∧
      o.state.retainOnly x.masterAddresses = opened.retainOnly x.masterAddresses := by
  have hres := h.result
  have hst := h.state
  have hi := installs resolved r
  generalize r.install resolved = y at hi hres hst
  cases hi with
  | closed | fails => cases hres
  | @puts slots o x' hs hb =>
      have hx : x' = x := congrArg Router.current hst
      subst hx
      exact ⟨slots, o, hs, congrArg Router.fleet hst⟩

/-- What is installed is a renewal. -/
theorem Installed.renewal (h : Installed config r resolved x opened) (ho : r.closed = false)
    (hn : (resolved.filterMap (·.masterAddr?)).Nodup)
    (hr : r' = { r with
      generation := r.generation + 1
      current := x
      fleet := opened.retainOnly x.masterAddresses
      refreshes := rest }) :
    Renewal r x (r.fleet.lacking (resolved.filterMap (·.master))) r' := by
  have hfleet : r'.fleet = opened.retainOnly x.masterAddresses := by rw [hr]
  obtain ⟨slots, o, hs, hretain⟩ := h.seat
  have hopens := opens_seat hn hs
  have htidy : r'.fleet.Tidy config.nodeList := hfleet ▸ h.seated.tidy.retainOnly _
  have hmasters : x.masterAddresses = resolved.filterMap (·.masterAddr?) := by
    rw [Index.masterAddresses, Index.groups, h.seated.groups]
  rw [← hretain] at hfleet
  have hregistered : r'.fleet.registered =
      o.state.registered.filter (·.1 ∈ x.masterAddresses) := congrArg Fleet.registered hfleet
  have hget {a : Address} {i : PoolId} (hm : (a, i) ∈ o.state.registered)
      (ha : a ∈ x.masterAddresses) : r'.fleet.get? a = some i := by
    apply htidy.get?_eq
    rw [hregistered]
    exact List.mem_filter.mpr ⟨hm, decide_eq_true ha⟩
  constructor
  · exact ho
  · rw [hr]
  · exact ⟨h.generation, by rw [hr]⟩
  · rw [hfleet]
    exact hopens.pools
  · apply List.Nodup.sublist _ hn
    have hm : resolved.filterMap (·.masterAddr?) =
        (resolved.filterMap (·.master)).map (·.addr) := by
      rw [List.map_filterMap]
      rfl
    rw [hm]
    exact List.filter_sublist.map _
  · intro a
    rw [hmasters]
    exact mem_map_lacking
  · intro k n hk
    have hm : n.addr ∈ (r.fleet.lacking (resolved.filterMap (·.master))).map (·.addr) :=
      List.mem_map_of_mem (List.mem_of_getElem? hk)
    apply hget
    · rw [hopens.registered]
      exact List.mem_append_right _ (Fleet.mem_entries hk)
    · rw [hmasters]
      exact (mem_map_lacking.mp hm).1
  · intro a ha i hi
    apply hget _ ha
    rw [hopens.registered]
    exact List.mem_append_left _ (Fleet.mem_of_get? hi)
  · intro a ha
    by_contra hne
    obtain ⟨i, hi⟩ := Option.ne_none_iff_exists'.mp hne
    have hm := Fleet.mem_of_get? hi
    rw [hregistered] at hm
    exact ha (of_decide_eq_true (List.mem_filter.mp hm).2)
  · have hopened : r'.fleet = { r.fleet with
        pools := r'.fleet.pools
        registered := r'.fleet.registered } := by
      rw [hfleet, Fleet.retainOnly, hopens.frame]
    rw [← hopened, hr]

/-! ## Moves of a refresh -/

/-- The move is one of the refresh. -/
def Move.IsOf (t : Ticket) : Move → Prop
  | .refresh u | .resume u | .probed u _ _ _ | .brokeOff u _ _ | .abandon u => u = t
  | .shutdown | .pool _ _ => False

theorem untouched_refresh : Untouched r (r.refresh t).state := by
  unfold Router.refresh
  split
  · exact untouched_refl
  · dsimp only
    split
    · exact ⟨_, rfl⟩
    · exact ⟨_, rfl⟩

theorem untouched_onRound {f : Round → Round.Reaction} : Untouched r (r.onRound t f).state := by
  unfold onRound
  split
  · split
    · exact ⟨_, rfl⟩
    · exact untouched_refl
  · exact untouched_refl

theorem untouched_abandon : Untouched r (r.abandon t).state := by
  unfold Router.abandon
  split
  · split
    · rw [wakeFirst_state]
      exact ⟨_, rfl⟩
    · exact ⟨_, rfl⟩
  · exact untouched_refl

theorem untouched_resume
    (h : ∀ round rest resolved, r.refreshes = (t, .probing round) :: rest →
      round.collect.2 = some (.ok resolved) → r.closed = true) :
    Untouched r (r.resume t).state := by
  unfold Router.resume
  split
  · split
    · exact ⟨_, rfl⟩
    · exact untouched_refl
  · rename_i u round rest hr
    split
    · rename_i hu
      subst hu
      rcases hcol : round.collect with ⟨collected, outcome⟩
      dsimp only
      split
      · exact ⟨_, rfl⟩
      · rw [Reaction.andThen_state, endRefresh_state]
        exact ⟨_, rfl⟩
      · rename_i resolved
        have hc : (r.setStage u (.probing collected.state)).closed = true :=
          h round rest resolved hr (by rw [hcol])
        simp only [Reaction.andThen_state, install_of_closed hc, endRefresh_state]
        exact ⟨_, rfl⟩
    · exact untouched_refl
  · exact untouched_refl

namespace Story

variable {s s' : Story} {m : Move} {now : Nat}

theorem Runs.resume_touches (h : Runs config s) (now : Nat) :
    Untouched s.router (s.next now (.resume t)).router ∨
      ∃ x fresh, .renewed t x ∈ s.news now (.resume t) ∧
        Renewal s.router x fresh (s.next now (.resume t)).router := by
  by_cases hq : ∃ round rest resolved, s.router.refreshes = (t, .probing round) :: rest ∧
      round.collect.2 = some (.ok resolved) ∧ s.router.closed = false
  · obtain ⟨round, rest, resolved, hr, hc, ho⟩ := hq
    obtain ⟨x, opened, hI, hstate, htold⟩ := h.installs ho hr hc
    have hk := h.reachable
    have hround := hk.running t round (hr ▸ List.mem_cons_self)
    have hsets := hk.steady.sets
    have hup : (s.router.sets.map (·.id)).Pairwise (· < ·) :=
      hsets ▸ ReplicaSet.pairwise_ofNodes _
    have hnodup : (resolved.filterMap (·.masterAddr?)).Nodup := by
      apply nodup_masters hk.check
      · rw [← hsets]
        exact hround.elects.outcome hc
      · rw [hround.sane.map_id_outcome hup hc]
        exact nodup_of_pairwise_lt hup
    have hnew : (s.next now (.resume t)).router = _ := hstate
    have hrenewal : Renewal s.router x
        (s.router.fleet.lacking (resolved.filterMap (·.master)))
        (s.next now (.resume t)).router :=
      { hI.renewal ho hnodup hnew with }
    refine .inr ⟨x, _, ?_, hrenewal⟩
    have hm := List.mem_map_of_mem (f := Event.ofEffect (s.next now (.resume t)).router) htold
    have he : Event.ofEffect (s.next now (.resume t)).router (.refreshed t (.ok ())) =
        .renewed t x := by
      rw [← hrenewal.current]
      rfl
    rw [he] at hm
    exact List.mem_append_right _ hm
  · left
    apply untouched_resume
    intro round rest resolved hr hc
    by_contra ho
    exact hq ⟨round, rest, resolved, hr, hc, Bool.eq_false_iff.mpr ho⟩

/-- A move of a refresh touches nothing, unless the refresh succeeds with it. -/
theorem Runs.touches (h : Runs config s) (hm : m.IsOf t) (now : Nat) :
    Untouched s.router (s.next now m).router ∨ ∃ x fresh, .renewed t x ∈ s.news now m ∧
      Renewal s.router x fresh (s.next now m).router := by
  cases m with
  | refresh u => exact .inl untouched_refresh
  | resume u =>
      cases hm
      exact h.resume_touches now
  | probed u i j role => exact .inl untouched_onRound
  | brokeOff u i reason => exact .inl untouched_onRound
  | abandon u => exact .inl untouched_abandon
  | shutdown | pool i m => exact hm.elim

/-! ## Ends of a refresh -/

end Story

/-- The refresh that ends with the event. -/
def Event.ended? : Event → Option Ticket
  | .renewed t _ | .told (.refreshed t _) => some t
  | _ => none

/-- The refresh that comes with the event. -/
def Event.came? : Event → Option Ticket
  | .came t => some t
  | _ => none

variable {past es : List Event}

/-- Of a refresh, no more ends in a turn than there was of it before and has come with it. -/
theorem Story.Turn.count_le (h : Story.Turn past r es r') (u : Ticket) :
    es.countP (·.ended? = some u) + (r'.refreshes.map (·.1)).count u ≤
      (r.refreshes.map (·.1)).count u + es.countP (·.came? = some u) := by
  cases h with
  | @idle e he =>
      have hended : e.ended? = none := by
        cases e with
        | told e => cases e <;> first | rfl | exact he.elim
        | answered | broke => rfl
        | _ => exact he.elim
      have hcame : e.came? = none := by
        cases e with
        | came => exact he.elim
        | _ => rfl
      simp [hended, hcame]
  | other hsets hr => simp [hr]
  | queue => simp [Event.ended?, Event.came?, List.countP_cons, List.count_cons]
  | refuse =>
      simp [Event.ended?, Event.came?, List.countP_cons]
      omega
  | begin hr | hear hr | breakOff hr | count hr => simp [hr, Event.ended?, Event.came?]
  | fail hr =>
      simp [hr, Event.ended?, Event.came?, List.countP_cons, List.count_cons]
      omega
  | renew _ hr _ _ hrest =>
      simp [hr, hrest, Event.ended?, Event.came?, List.countP_cons, List.count_cons]
      omega
  | leave hsub =>
      have hle := (hsub.map (·.1)).count_le u
      simpa [Event.ended?, Event.came?] using hle

/-- No refresh ends more often than it came, not even if those in progress were to end now. -/
def Accounted (past : List Event) (r : Router) : Prop :=
  ∀ t, past.countP (·.ended? = some t) + (r.refreshes.map (·.1)).count t ≤
    past.countP (·.came? = some t)

theorem Accounted.turn (h : Accounted past r) (ht : Story.Turn past r es r') :
    Accounted (past ++ es) r' := by
  intro u
  have hu := h u
  have hle := ht.count_le u
  rw [List.countP_append, List.countP_append]
  omega

theorem Accounted.turns (h : Accounted past r) (ht : Story.Turns past r es r') :
    Accounted (past ++ es) r' := by
  induction ht with
  | refl => rwa [List.append_nil]
  | tail _ ht ih =>
      rw [← List.append_assoc]
      exact ih.turn ht

namespace Story

variable {s s' : Story} {m : Move} {now : Nat} {e e' : Event}

theorem Runs.accounted (h : Runs config s) : Accounted s.past s.router := by
  induction h with
  | launch _ _ _ hs =>
      intro t
      simp [refreshes_ofResolved hs]
  | next now h ha ih => exact ih.turns (turns_next h.reachable h.serial.1.tickets ha now)

theorem eq_came (h : e.came? = some t) : e = .came t := by
  unfold Event.came? at h
  split at h <;> cases h
  rfl

theorem came?_ofEffect {q : Router} {e : Effect} : (Event.ofEffect q e).came? = none := by
  unfold Event.ofEffect
  split
  · rfl
  · rfl

theorem Runs.countP_came_le_one (h : Runs config s) (t : Ticket) :
    s.past.countP (·.came? = some t) ≤ 1 := by
  induction h with
  | launch => simp
  | @next s m now h ha ih =>
      have htold : ((s.router.step now m).effects.map
          (Event.ofEffect (s.router.step now m).state)).countP (·.came? = some t) = 0 := by
        simp [List.countP_eq_zero, came?_ofEffect]
      rw [Story.next, news, List.countP_append, List.countP_append, htold, Nat.add_zero]
      cases m with
      | refresh u =>
          by_cases hu : u = t
          · subst hu
            -- The ticket is a new one.
            have hpast : s.past.countP (·.came? = some u) = 0 := by
              rw [List.countP_eq_zero]
              intro e he hc
              exact ha (eq_came (of_decide_eq_true hc) ▸ he)
            rw [hpast]
            simp [arrivals, Event.came?]
          · simpa [arrivals, Event.came?, hu] using ih
      | _ => simpa [arrivals, Event.came?] using ih

/-- No refresh ends twice. -/
theorem Runs.countP_ended_le_one (h : Runs config s) (t : Ticket) :
    s.past.countP (·.ended? = some t) ≤ 1 :=
  ((Nat.le_add_right _ _).trans (h.accounted t)).trans (h.countP_came_le_one t)

theorem Runs.ended_unique (h : Runs config s) (he : e ∈ s.past) (he' : e' ∈ s.past)
    (ht : e.ended? = some t) (ht' : e'.ended? = some t) : e = e' := by
  have hle := h.countP_ended_le_one t
  rw [List.countP_eq_length_filter] at hle
  have hm : e ∈ s.past.filter (·.ended? = some t) := List.mem_filter.mpr ⟨he, decide_eq_true ht⟩
  have hm' : e' ∈ s.past.filter (·.ended? = some t) :=
    List.mem_filter.mpr ⟨he', decide_eq_true ht'⟩
  cases hf : s.past.filter (·.ended? = some t) with
  | nil => simp [hf] at hm
  | cons x l =>
      have hl : l = [] := by simpa [hf] using hle
      rw [hf, hl, List.mem_singleton] at hm hm'
      rw [hm, hm']

/-- Where an index is put in place, the generation goes up. -/
theorem Runs.not_untouched (h : Runs config s) (ha : s.Admits m)
    (hx : .renewed t x ∈ s.news now m) : ¬Untouched s.router (s.next now m).router := by
  rintro ⟨refreshes, hr⟩
  have hgen : (s.next now m).router.generation = s.router.generation := by rw [hr]
  rw [(h.next now ha).serial.2.generation, h.serial.2.generation] at hgen
  have hlen := List.length_pos_of_mem (mem_renewals hx)
  rw [Story.next, renewals_append, List.length_append] at hgen
  omega

end Story

end Router

end Shardway
