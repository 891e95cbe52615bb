import Shardway.Proofs.Pool.Registry
import Shardway.Proofs.Router.Runs
import Mathlib.Logic.Relation

/-!
# Updates of a router

All that refreshes do to a router is to change which of them are in progress, and to install the
groups that a round of probes has resolved. No refresh shuts anything down.
-/

namespace Shardway.Router

variable {config : Config.Cluster} {r r' : Router} {t : Ticket} {resolved : List ResolvedGroup}

theorem gains_seat {f : Fleet} {slots : Except Fault (List Slot)} {opened : Fleet.Reaction}
    (hs : seat resolved f = (slots, opened)) :
    Fleet.Gains (resolved.filterMap (·.masterAddr?)) f opened.state := by
  induction resolved generalizing f slots opened with
  | nil =>
      cases hs
      exact .refl
  | cons g resolved ih =>
      cases hs ▸ seats g resolved f with
      | masterless hg hs' => simpa [ResolvedGroup.masterAddr?, hg] using ih hs'
      | fails => exact .refl
      | takes hg ho hs' =>
          have hk := (Fleet.gains_getOrOpen ho).trans (ih hs')
          simpa [ResolvedGroup.masterAddr?, hg] using hk

/-- Every round in progress has been begun for the groups of the router. -/
def Running (r : Router) : Prop :=
  ∀ t round, (t, .probing round) ∈ r.refreshes → Round.Runs r.sets round

/-- What the moves of refreshes are made of. -/
inductive Update (r : Router) : Router → Prop
  | refreshes {refreshes : List (Ticket × RefreshStage)} :
      (∀ t round, (t, .probing round) ∈ refreshes → Round.Runs r.sets round) →
      Update r { r with refreshes }
  | install {round : Round} {resolved : List ResolvedGroup} : Round.Runs r.sets round →
      round.collect.2 = some (.ok resolved) → Update r (r.install resolved).2.state

abbrev Updates : Router → Router → Prop := Relation.ReflTransGen Update

theorem install_frame (resolved : List ResolvedGroup) (r : Router) :
    (r.install resolved).2.state.sets = r.sets ∧
      (r.install resolved).2.state.refreshes = r.refreshes ∧
      (r.install resolved).2.state.closed = r.closed := by
  have hi := installs resolved r
  generalize r.install resolved = x at hi ⊢
  cases hi <;> exact ⟨rfl, rfl, rfl⟩

theorem Running.update (h : r.Running) (hu : Update r r') : r'.Running := by
  cases hu with
  | refreshes hr => exact hr
  | install _ _ =>
      obtain ⟨hs, hr, -⟩ := install_frame _ r
      unfold Running
      rw [hs, hr]
      exact h

theorem wakeFirst_state (r : Router) : r.wakeFirst.state = r := by
  unfold wakeFirst
  split <;> rfl

theorem endRefresh_state (t : Ticket) (result : Except Fault Unit) (r : Router) :
    (r.endRefresh t result).state = { r with refreshes := r.refreshes.tail } := wakeFirst_state _

theorem Running.sub {refreshes : List (Ticket × RefreshStage)} (h : r.Running)
    (hs : refreshes ⊆ r.refreshes) : Update r { r with refreshes } :=
  .refreshes fun t round ht => h t round (hs ht)

theorem Running.endRefresh (h : r.Running) (t : Ticket) (result : Except Fault Unit) :
    Update r (r.endRefresh t result).state := by
  rw [endRefresh_state]
  exact h.sub (List.tail_sublist _).subset

theorem Running.setStage {s : RefreshStage} (h : r.Running)
    (hs : ∀ round, s = .probing round → Round.Runs r.sets round) : Update r (r.setStage t s) :=
  .refreshes fun u round hu => by
    obtain ⟨⟨v, s'⟩, hv, he⟩ := List.mem_map.mp hu
    split at he
    · cases he
      exact hs round rfl
    · cases he
      exact h _ round hv

theorem Running.beginRound (h : r.Running) : Update r (r.beginRound t).state :=
  h.setStage fun _ hs => by
    cases hs
    exact .start

theorem Running.refresh (h : r.Running) : Updates r (r.refresh t).state := by
  have hw : Update r { r with refreshes := r.refreshes ++ [(t, .waiting)] } := by
    refine .refreshes fun u round hu => ?_
    rcases List.mem_append.mp hu with hu | hu
    · exact h u round hu
    · cases List.mem_singleton.mp hu
  unfold Router.refresh
  split
  · exact .refl
  · dsimp only
    split
    · exact .tail (.single hw) (h.update hw).beginRound
    · exact .single hw

theorem Running.resume (h : r.Running) : Updates r (r.resume t).state := by
  unfold Router.resume
  split
  · split
    · exact .single h.beginRound
    · exact .refl
  · rename_i u round rest hr
    split
    · have hs : Round.Runs r.sets round := h u round (hr ▸ List.mem_cons_self)
      have ht : Update r (r.setStage t (.probing round.collect.1.state)) :=
        h.setStage fun _ he => by
          cases he
          exact hs.collect
      have hd := h.update ht
      rcases hc : round.collect with ⟨collected, outcome⟩
      rw [hc] at ht hd
      dsimp only at ht hd ⊢
      split
      · exact .single ht
      · rename_i f
        exact .tail (.single ht) (hd.endRefresh t (.error f))
      · rename_i resolved
        have hi : Update _ ((r.setStage t (.probing collected.state)).install resolved).2.state :=
          .install hs (by rw [hc])
        exact .tail (.tail (.single ht) hi) ((hd.update hi).endRefresh t
          ((r.setStage t (.probing collected.state)).install resolved).1)
    · exact .refl
  · exact .refl

theorem Running.onRound {f : Round → Round.Reaction} (h : r.Running)
    (hf : ∀ round, Round.Runs r.sets round → Round.Runs r.sets (f round).state) :
    Updates r (r.onRound t f).state := by
  unfold Router.onRound
  split
  · rename_i u round rest hr
    split
    · have hs : Round.Runs r.sets round := h u round (hr ▸ List.mem_cons_self)
      exact .single (h.setStage fun _ he => by
        cases he
        exact hf round hs)
    · exact .refl
  · exact .refl

theorem Running.abandon (h : r.Running) : Updates r (r.abandon t).state := by
  unfold Router.abandon
  split
  · rename_i u s rest hr
    split
    · rw [wakeFirst_state]
      exact .single (h.sub (hr ▸ List.subset_cons_self _ _))
    · exact .single (h.sub List.filter_sublist.subset)
  · exact .refl

theorem Running.step (h : r.Running) (now : Nat) (m : Move) :
    Updates r (r.step now m).state ∨ m = .shutdown ∨ ∃ i m', m = .pool i m' := by
  cases m with
  | refresh t => exact .inl h.refresh
  | resume t => exact .inl h.resume
  | probed t i j role => exact .inl (h.onRound fun round hr => hr.answer i j role)
  | brokeOff t i reason => exact .inl (h.onRound fun round hr => hr.breakOff i reason)
  | abandon t => exact .inl h.abandon
  | shutdown => exact .inr (.inl rfl)
  | pool i m => exact .inr (.inr ⟨i, m, rfl⟩)

theorem Updates.running (hu : Updates r r') (h : r.Running) : r'.Running := by
  induction hu with
  | refl => exact h
  | tail _ hu ih => exact ih.update hu

theorem refreshes_ofResolved {background : Bool} {started : Router} {told : List Effect}
    (h : ofResolved config background resolved = (.ok started, told)) : started.refreshes = [] := by
  obtain ⟨slots, opened, x, -, -, rfl, -⟩ := ofResolved_eq_ok h
  rfl

theorem running_ofResolved {background : Bool} {started : Router} {told : List Effect}
    (h : ofResolved config background resolved = (.ok started, told)) : started.Running := by
  intro t round hm
  rw [refreshes_ofResolved h] at hm
  cases hm

theorem Running.next (h : r.Running) (now : Nat) (m : Move) : (r.step now m).state.Running := by
  rcases h.step now m with hu | rfl | ⟨i, m, rfl⟩
  · exact hu.running h
  · unfold Router.step Router.shutdown
    dsimp only
    split <;> exact h
  · exact h

theorem Reachable.running (h : Reachable config r) : r.Running := by
  induction h with
  | launch _ _ _ hs => exact running_ofResolved hs
  | step now m _ ih => exact ih.next now m

theorem closed_shutdown (r : Router) (now : Nat) : (r.shutdown now).state.closed = true := by
  unfold shutdown
  split
  · assumption
  · rfl

theorem Updates.closed_eq (hu : Updates r r') : r'.closed = r.closed := by
  induction hu with
  | refl => rfl
  | @tail r₁ r₂ _ hu ih =>
      rw [← ih]
      cases hu with
      | refreshes _ => rfl
      | install _ _ => exact (install_frame _ r₁).2.2

/-- A refresh opens pools and closes none. -/
theorem Update.gains (hu : Update r r') : ∃ nodes : List Node,
    r'.fleet.pools = r.fleet.pools ++ nodes.map (Pool.ofNode · r.fleet.tuning) ∧
      r'.fleet.tuning = r.fleet.tuning := by
  cases hu with
  | refreshes _ => exact ⟨[], by simp, rfl⟩
  | @install round resolved _ _ =>
      have hi := installs resolved r
      generalize r.install resolved = x at hi ⊢
      cases hi with
      | closed => exact ⟨[], by simp, rfl⟩
      | fails hs | puts hs =>
          obtain ⟨ns, hn⟩ := (gains_seat hs).pools
          exact ⟨ns, hn, (gains_seat hs).tuning⟩

theorem Updates.gains (hu : Updates r r') : ∃ nodes : List Node,
    r'.fleet.pools = r.fleet.pools ++ nodes.map (Pool.ofNode · r.fleet.tuning) ∧
      r'.fleet.tuning = r.fleet.tuning := by
  induction hu with
  | refl => exact ⟨[], by simp, rfl⟩
  | tail _ hu ih =>
      obtain ⟨ns, hn, ht⟩ := ih
      obtain ⟨ns', hn', ht'⟩ := hu.gains
      exact ⟨ns ++ ns', by simp [hn', hn, ht], ht'.trans ht⟩

/-! ## What refreshes tell -/

/-- The effects concern no connection and no call. -/
def Plain (es : List Effect) : Prop := ∀ e ∈ es, match e with
  | .pool _ _ | .send _ _ _ _ | .pause _ _ | .answered _ _ => False
  | _ => True

theorem Plain.append {es es' : List Effect} (h : Plain es) (h' : Plain es') : Plain (es ++ es') :=
  fun e he => (List.mem_append.mp he).elim (h e) (h' e)

theorem plain_nil : Plain [] := by simp [Plain]

/-- The effects only tell of pools that are opened, and of what is worth a notice. -/
def Bare (es : List Effect) : Prop := ∀ e ∈ es, match e with
  | .notice _ | .opened _ => True
  | _ => False

theorem Bare.append {es es' : List Effect} (h : Bare es) (h' : Bare es') : Bare (es ++ es') :=
  fun e he => (List.mem_append.mp he).elim (h e) (h' e)

theorem bare_nil : Bare [] := by simp [Bare]

theorem bare_notices (ns : List Notice) : Bare (ns.map .notice) := by simp [Bare]

theorem Bare.plain {es : List Effect} (h : Bare es) : Plain es := by
  intro e he
  have hb := h e he
  cases e with
  | notice _ | opened _ => trivial
  | _ => exact hb.elim

theorem plain_notices (ns : List Notice) : Plain (ns.map .notice) := (bare_notices ns).plain

theorem bare_getOrOpen {f : Fleet} {n : Node} {i : PoolId} {x : Fleet.Reaction}
    (ho : f.getOrOpen n = .ok (i, x)) : Bare x.effects := by
  unfold Fleet.getOrOpen at ho
  split at ho
  · cases ho
  · split at ho
    · cases ho
      exact bare_nil
    · cases ho
      unfold Fleet.openPool
      dsimp only
      split <;> simp [Bare]

theorem bare_seat {f : Fleet} {slots : Except Fault (List Slot)} {opened : Fleet.Reaction}
    (hs : seat resolved f = (slots, opened)) : Bare opened.effects := by
  induction resolved generalizing f slots opened with
  | nil =>
      cases hs
      exact bare_nil
  | cons g resolved ih =>
      cases hs ▸ seats g resolved f with
      | masterless _ hs' => exact ih hs'
      | fails => exact bare_nil
      | takes _ ho hs' => exact (bare_getOrOpen ho).append (ih hs')

theorem bare_install : Bare (r.install resolved).2.effects := by
  have hi := installs resolved r
  generalize r.install resolved = x at hi ⊢
  cases hi with
  | closed => exact bare_nil
  | fails hs => exact bare_seat hs
  | puts hs _ =>
      refine (bare_seat hs).append ((bare_notices _).append fun e he => ?_)
      obtain ⟨x, -, rfl⟩ := List.mem_map.mp he
      trivial

theorem plain_wakeFirst : Plain r.wakeFirst.effects := by
  unfold wakeFirst
  split <;> simp [Plain]

theorem plain_endRefresh {result : Except Fault Unit} :
    Plain (r.endRefresh t result).effects :=
  plain_wakeFirst.append (by simp [Plain])

theorem plain_beginRound : Plain (r.beginRound t).effects :=
  (plain_notices _).append (by simp [Plain])

theorem plain_refresh : Plain (r.refresh t).effects := by
  unfold refresh
  split
  · simp [Plain]
  · dsimp only
    split
    · exact plain_beginRound
    · exact plain_nil

theorem plain_resume : Plain (r.resume t).effects := by
  unfold resume
  split
  · split
    · exact plain_beginRound
    · exact plain_nil
  · rename_i u round rest hr
    split
    · rcases round.collect with ⟨collected, outcome⟩
      have ht : Plain (collected.effects.map Effect.notice) := plain_notices _
      dsimp only
      split
      · exact ht
      · exact ht.append plain_endRefresh
      · exact ht.append (bare_install.plain.append plain_endRefresh)
    · exact plain_nil
  · exact plain_nil

theorem plain_onRound {f : Round → Round.Reaction} : Plain (r.onRound t f).effects := by
  unfold onRound
  split
  · split
    · refine (plain_notices _).append ?_
      split <;> simp [Plain]
    · exact plain_nil
  · exact plain_nil

theorem plain_abandon : Plain (r.abandon t).effects := by
  unfold abandon
  split
  · split
    · exact plain_wakeFirst
    · exact plain_nil
  · exact plain_nil

theorem mem_shutdownEach {f : Fleet} {now : Nat} {ids : List PoolId} {e : Effect}
    (h : e ∈ (f.shutdownEach now ids).effects) : ∃ i x, e = .pool i x := by
  induction ids generalizing f with
  | nil => cases h
  | cons i ids ih =>
      rcases List.mem_append.mp h with h | h
      · unfold Fleet.step at h
        split at h
        · cases h
        · obtain ⟨x, -, rfl⟩ := List.mem_map.mp h
          exact ⟨i, x, rfl⟩
      · exact ih h

end Shardway.Router
