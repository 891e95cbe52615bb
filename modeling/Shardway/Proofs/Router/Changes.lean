import Shardway.Proofs.Router.Updates

/-!
# Changes of masters

Changes of masters are told by a refresh as it puts an index in place, and by nothing else. So a
refresh that has no other beside it tells just how its index differs from the one before, and one
that fails tells of no change.
-/

namespace Shardway

/-- The notice is of a change of masters. -/
def Notice.isChange : Notice → Bool
  | .masterChanged .. | .masterElected .. | .masterLost .. => true
  | _ => false

theorem Index.isChange_of_mem {x y : Index} {n : Notice} (h : n ∈ x.changes y) :
    n.isChange = true := by
  obtain ⟨g, -, hg⟩ := List.mem_filterMap.mp h
  split at hg
  · split at hg
    · cases hg
    · cases hg
      rfl
  · cases hg
    rfl
  · cases hg
    rfl
  · cases hg

/-! ## Rounds -/

theorem not_isChange_electNotices {set : ReplicaSet} {roles : List Role} {n : Notice}
    (h : n ∈ electNotices set roles) : n.isChange = false := by
  unfold electNotices Election.notices at h
  dsimp only at h
  rcases List.mem_append.mp h with h | h
  · split at h
    · split at h
      · cases List.mem_singleton.mp h
        rfl
      · cases h
    · cases h
  · obtain ⟨⟨m, role⟩, -, hn⟩ := List.mem_filterMap.mp h
    dsimp only at hn
    split at hn
    · split at hn
      · cases hn
      · cases hn
        rfl
    · cases hn

namespace Round

variable {round : Round} {n : Notice} {i j : Nat} {role : Role}

theorem not_isChange_close (h : n ∈ (round.close i).effects) : n.isChange = false := by
  unfold close at h
  split at h
  · cases h
  · split at h
    · exact not_isChange_electNotices h
    · cases h

theorem not_isChange_closeAll {k : Nat} (h : n ∈ (round.closeAll k).effects) :
    n.isChange = false := by
  induction k with
  | zero => cases h
  | succ k ih =>
      rcases List.mem_append.mp h with h | h
      · exact ih h
      · exact not_isChange_close h

theorem not_isChange_count {verdicts : List Verdict} {resolved : List ResolvedGroup}
    (h : n ∈ (count verdicts resolved).2.1) : n.isChange = false := by
  induction verdicts generalizing resolved with
  | nil => cases h
  | cons verdict verdicts ih =>
      cases verdict with
      | brokenOff reason => cases h
      | elected g =>
          rcases List.mem_cons.mp h with rfl | h
          · unfold notice
            split <;> rfl
          · exact ih h

theorem not_isChange_collect (h : n ∈ round.collect.1.effects) : n.isChange = false :=
  not_isChange_count h

end Round

namespace Router

/-- The notices among some effects. -/
def notices (es : List Effect) : List Notice :=
  es.filterMap fun
    | .notice n => some n
    | _ => none

/-- The changes of masters that are told. -/
def changes (es : List Effect) : List Notice := (notices es).filter (·.isChange)

/-- The ends of refreshes that are told. -/
def ends (es : List Effect) : List (Ticket × Except Fault Unit) :=
  es.filterMap fun
    | .refreshed t result => some (t, result)
    | _ => none

/-- No change of masters is told, and no end of a refresh. -/
structure Hushed (es : List Effect) : Prop where
  changes : changes es = []
  ends : ends es = []

/-- What happens to a router while no refresh is in progress. -/
structure Quiet (r : Router) (x : Reaction) : Prop where
  refreshes : x.state.refreshes = []
  current : x.state.current = r.current
  hushed : Hushed x.effects

/-- What a refresh comes to that has no other beside it. -/
inductive Lone (t : Ticket) (r : Router) (x : Reaction) : Prop
  | underway {stage : RefreshStage} : x.state.refreshes = [(t, stage)] →
      x.state.current = r.current → Hushed x.effects → Lone t r x
  | left : Quiet r x → Lone t r x
  | failed {f : Fault} : x.state.refreshes = [] → x.state.current = r.current →
      changes x.effects = [] → ends x.effects = [(t, .error f)] → Lone t r x
  | renewed : x.state.refreshes = [] → changes x.effects = r.current.changes x.state.current →
      ends x.effects = [(t, .ok ())] → Lone t r x

/-- The moves one after the other, with all that they ask for or tell. -/
def perform : List (Nat × Move) → Router → Reaction
  | [], r => ⟨r, []⟩
  | (now, m) :: ms, r => (r.step now m).andThen (perform ms)

/-- No refresh comes with the moves. -/
def Unasked (ms : List (Nat × Move)) : Prop := ∀ x ∈ ms, ∀ t, x.2 ≠ .refresh t

variable {r : Router} {x : Reaction} {t : Ticket} {es es' : List Effect} {m : Move} {now : Nat}
  {stage : RefreshStage} {ms : List (Nat × Move)} {resolved : List ResolvedGroup}

/-! ## Effects -/

theorem changes_append : changes (es ++ es') = changes es ++ changes es' := by
  simp [changes, notices]

theorem ends_append : ends (es ++ es') = ends es ++ ends es' := List.filterMap_append ..

theorem changes_notices (ns : List Notice) : changes (ns.map .notice) = ns.filter (·.isChange) := by
  simp [changes, notices, List.filterMap_map]

theorem hushed_nil : Hushed [] := ⟨rfl, rfl⟩

theorem Hushed.append (h : Hushed es) (h' : Hushed es') : Hushed (es ++ es') :=
  ⟨by rw [changes_append, h.changes, h'.changes, List.append_nil],
    by rw [ends_append, h.ends, h'.ends, List.append_nil]⟩

theorem ends_notices (ns : List Notice) : ends (ns.map .notice) = [] := by
  simp [ends, List.filterMap_map]

theorem hushed_notices {ns : List Notice} (h : ∀ n ∈ ns, n.isChange = false) :
    Hushed (ns.map .notice) := by
  refine ⟨?_, ends_notices ns⟩
  rw [changes_notices, List.filter_eq_nil_iff]
  exact fun n hn => by simp [h n hn]

theorem hushed_of_pools (h : ∀ e ∈ es, ∃ i x, e = .pool i x) : Hushed es := by
  have hn : notices es = [] := List.filterMap_eq_nil_iff.mpr fun e he => by
    obtain ⟨i, x, rfl⟩ := h e he
    rfl
  refine ⟨by rw [changes, hn, List.filter_nil], List.filterMap_eq_nil_iff.mpr fun e he => ?_⟩
  obtain ⟨i, x, rfl⟩ := h e he
  rfl

theorem mem_ends {result : Except Fault Unit} :
    (t, result) ∈ ends es ↔ .refreshed t result ∈ es := by
  unfold ends
  rw [List.mem_filterMap]
  constructor
  · rintro ⟨e, he, hm⟩
    split at hm
    · cases hm
      exact he
    · cases hm
  · exact fun h => ⟨_, h, rfl⟩

theorem hushed_getOrOpen {f : Fleet} {n : Node} {i : PoolId} {x : Fleet.Reaction}
    (h : f.getOrOpen n = .ok (i, x)) : Hushed x.effects := by
  unfold Fleet.getOrOpen at h
  split at h
  · cases h
  · split at h
    · cases h
      exact hushed_nil
    · cases h
      unfold Fleet.openPool
      dsimp only
      split <;> exact ⟨rfl, rfl⟩

theorem hushed_seat {f : Fleet} {slots : Except Fault (List Slot)} {opened : Fleet.Reaction}
    (h : seat resolved f = (slots, opened)) : Hushed opened.effects := by
  induction resolved generalizing f slots opened with
  | nil =>
      cases h
      exact hushed_nil
  | cons g resolved ih =>
      cases h ▸ seats g resolved f with
      | masterless _ hs => exact ih hs
      | fails => exact hushed_nil
      | takes _ ho hs => exact (hushed_getOrOpen ho).append (ih hs)

/-- What is put in place is compared with what was there, and nothing is told if it is not put in
place. -/
theorem install_tells (resolved : List ResolvedGroup) (r : Router) :
    (r.install resolved).2.state.refreshes = r.refreshes ∧
      ends (r.install resolved).2.effects = [] ∧
      ((∃ f, (r.install resolved).1 = .error f ∧
          (r.install resolved).2.state.current = r.current ∧
          changes (r.install resolved).2.effects = []) ∨
        ((r.install resolved).1 = .ok () ∧ changes (r.install resolved).2.effects =
          r.current.changes (r.install resolved).2.state.current)) := by
  have hi := installs resolved r
  generalize r.install resolved = y at hi ⊢
  cases hi with
  | closed => exact ⟨rfl, rfl, .inl ⟨_, rfl, rfl, rfl⟩⟩
  | fails hs =>
      have ho := hushed_seat hs
      exact ⟨rfl, ho.ends, .inl ⟨_, rfl, rfl, ho.changes⟩⟩
  | @puts slots opened index hs hb =>
      have ho := hushed_seat hs
      have hretired : Hushed (((opened.state.stale index.masterAddresses).map
          fun e => Notice.poolRetired e.1).map .notice) := hushed_notices fun n hn => by
        obtain ⟨e, -, rfl⟩ := List.mem_map.mp hn
        rfl
      rw [List.map_map] at hretired
      refine ⟨rfl, ?_, .inr ⟨rfl, ?_⟩⟩
      · rw [ends_append, ends_append, ho.ends, ends_notices, List.nil_append, List.nil_append]
        exact hretired.ends
      · rw [changes_append, changes_append, ho.changes, changes_notices, List.nil_append]
        refine (congrArg _ hretired.changes).trans ?_
        rw [List.append_nil]
        exact List.filter_eq_self.mpr fun n hn => Index.isChange_of_mem hn

/-! ## Moves -/

theorem hushed_wakeFirst : Hushed r.wakeFirst.effects := by
  unfold wakeFirst
  split <;> exact ⟨rfl, rfl⟩

/-- A refresh that was alone is over, and nothing is in progress any more. -/
theorem andThen_endRefresh (h : x.state.refreshes = [(t, stage)]) (he : ends x.effects = [])
    (result : Except Fault Unit) :
    (x.andThen (endRefresh t result)).state.refreshes = [] ∧
      (x.andThen (endRefresh t result)).state.current = x.state.current ∧
      changes (x.andThen (endRefresh t result)).effects = changes x.effects ∧
      ends (x.andThen (endRefresh t result)).effects = [(t, result)] := by
  have hw : Hushed
      ({ x.state with refreshes := x.state.refreshes.tail } : Router).wakeFirst.effects :=
    hushed_wakeFirst
  have htold : changes [.refreshed t result] = [] := rfl
  refine ⟨?_, ?_, ?_, ?_⟩
  · rw [Reaction.andThen_state, endRefresh_state, h, List.tail_cons]
  · rw [Reaction.andThen_state, endRefresh_state]
  · rw [Reaction.andThen_effects, endRefresh, Reaction.tell_effects, changes_append, changes_append,
      hw.changes, htold, List.append_nil, List.append_nil]
  · rw [Reaction.andThen_effects, endRefresh, Reaction.tell_effects, ends_append, ends_append, he,
      hw.ends]
    rfl

theorem hushed_beginRound : Hushed (r.beginRound t).effects :=
  (hushed_notices fun _ hn => Round.not_isChange_closeAll hn).append ⟨rfl, rfl⟩

theorem hushed_shutdown : Hushed (r.shutdown now).effects := by
  unfold shutdown
  split
  · exact hushed_nil
  · have hp : Hushed (r.fleet.shutdownAll now).effects :=
      hushed_of_pools fun e he => mem_shutdownEach he
    simp only [Reaction.tell_effects, Reaction.lift_effects, List.map_id]
    exact hp.append ⟨rfl, rfl⟩

theorem hushed_stepPool {i : PoolId} {m : Pool.Move} : Hushed (r.stepPool now i m).effects := by
  refine hushed_of_pools fun e he => ?_
  unfold stepPool Fleet.step at he
  split at he
  · cases he
  · simp only [Reaction.lift_effects, List.map_id_fun, id_eq] at he
    obtain ⟨x, -, rfl⟩ := List.mem_map.mp he
    exact ⟨i, x, rfl⟩

theorem hushed_onRound {f : Round → Round.Reaction}
    (h : ∀ round, ∀ n ∈ (f round).effects, n.isChange = false) :
    Hushed (r.onRound t f).effects := by
  unfold onRound
  split
  · split
    · refine (hushed_notices (h _)).append ?_
      split <;> exact ⟨rfl, rfl⟩
    · exact hushed_nil
  · exact hushed_nil

theorem refreshes_setStage {stage' : RefreshStage} (h : r.refreshes = [(t, stage)]) :
    (r.setStage t stage').refreshes = [(t, stage')] := by
  simp [setStage, h]

theorem Lone.refl (h : r.refreshes = [(t, stage)]) : Lone t r ⟨r, []⟩ :=
  .underway h rfl hushed_nil

/-- The refresh puts in place what it has found, if it can. -/
theorem lone_install (h : x.state.refreshes = [(t, stage)]) (hx : Hushed x.effects)
    (hc : x.state.current = r.current) (resolved : List ResolvedGroup) :
    Lone t r (x.andThen fun q =>
      (q.install resolved).2.andThen (endRefresh t (q.install resolved).1)) := by
  obtain ⟨hr, he, hi⟩ := install_tells resolved x.state
  have hassoc : (x.andThen fun q =>
      (q.install resolved).2.andThen (endRefresh t (q.install resolved).1)) =
      (x.andThen fun q => (q.install resolved).2).andThen
        (endRefresh t (x.state.install resolved).1) := by
    simp [Reaction.andThen]
  have hends : ends (x.andThen fun q => (q.install resolved).2).effects = [] := by
    rw [Reaction.andThen_effects, ends_append, hx.ends, he, List.nil_append]
  have hchanges : changes (x.andThen fun q => (q.install resolved).2).effects =
      changes (x.state.install resolved).2.effects := by
    rw [Reaction.andThen_effects, changes_append, hx.changes, List.nil_append]
  obtain ⟨hrefreshes, hcurrent, htold, hend⟩ :=
    @andThen_endRefresh (x.andThen fun q => (q.install resolved).2) t stage (hr.trans h) hends
      (x.state.install resolved).1
  rw [hassoc]
  rcases hi with ⟨f, hf, hcur, hch⟩ | ⟨hok, hch⟩
  · rw [hf] at hrefreshes hcurrent htold hend ⊢
    exact .failed hrefreshes (hcurrent.trans (hcur.trans hc)) (htold.trans (hchanges.trans hch))
      hend
  · rw [hok] at hrefreshes hcurrent htold hend ⊢
    refine .renewed hrefreshes ?_ hend
    rw [htold, hchanges, hch, hc, hcurrent]
    rfl

theorem lone_resume (h : r.refreshes = [(t, stage)]) (u : Ticket) : Lone t r (r.resume u) := by
  by_cases hu : t = u
  · subst hu
    cases stage with
    | waiting =>
        simp only [resume, h, if_true]
        exact .underway (refreshes_setStage h) rfl hushed_beginRound
    | probing round =>
        rcases hc : round.collect with ⟨collected, outcome⟩
        have hn : Hushed (collected.effects.map .notice) :=
          hushed_notices fun n hn => @Round.not_isChange_collect round n (by rwa [hc])
        have hq := @refreshes_setStage r t _ (.probing collected.state) h
        simp only [resume, h, if_true, hc]
        split
        · exact .underway hq rfl hn
        · rename_i f
          obtain ⟨hr, hcur, hch, he⟩ := @andThen_endRefresh
            ⟨r.setStage t (.probing collected.state), collected.effects.map .notice⟩ t _ hq hn.ends
            (.error f)
          exact .failed hr hcur (hch.trans hn.changes) he
        · rename_i resolved
          exact @lone_install r ⟨r.setStage t (.probing collected.state),
            collected.effects.map .notice⟩ t _ hq hn rfl resolved
  · have hn : r.resume u = ⟨r, []⟩ := by cases stage <;> simp [resume, h, hu]
    rw [hn]
    exact .refl h

theorem lone_onRound {u : Ticket} {f : Round → Round.Reaction}
    (hf : ∀ round, ∀ n ∈ (f round).effects, n.isChange = false)
    (h : r.refreshes = [(t, stage)]) : Lone t r (r.onRound u f) := by
  have hx := @hushed_onRound r u f hf
  cases stage with
  | waiting =>
      simp only [onRound, h]
      exact .refl h
  | probing round =>
      by_cases hu : t = u
      · subst hu
        simp only [onRound, h, if_true] at hx ⊢
        exact .underway (refreshes_setStage h) rfl hx
      · simp only [onRound, h, hu, if_false]
        exact .refl h

theorem lone_abandon (h : r.refreshes = [(t, stage)]) (u : Ticket) : Lone t r (r.abandon u) := by
  by_cases hu : t = u
  · subst hu
    simp only [abandon, h, if_true]
    exact .left ⟨rfl, rfl, hushed_nil⟩
  · simp only [abandon, h, hu, if_false]
    have hf : [(t, stage)].filter (·.1 ≠ u) = [(t, stage)] := by simp [hu]
    exact .underway hf rfl hushed_nil

theorem refreshes_shutdown (now : Nat) : (r.shutdown now).state.refreshes = r.refreshes := by
  unfold shutdown
  split <;> rfl

theorem current_shutdown (now : Nat) : (r.shutdown now).state.current = r.current := by
  unfold shutdown
  split <;> rfl

theorem lone_step (h : r.refreshes = [(t, stage)]) (hm : ∀ u, m ≠ .refresh u) (now : Nat) :
    Lone t r (r.step now m) := by
  cases m with
  | refresh u => exact absurd rfl (hm u)
  | resume u => exact lone_resume h u
  | probed u i j role => exact lone_onRound (fun _ _ hn => Round.not_isChange_close hn) h
  | brokeOff u i reason => exact lone_onRound (fun _ _ hn => absurd hn List.not_mem_nil) h
  | abandon u => exact lone_abandon h u
  | shutdown =>
      exact .underway ((refreshes_shutdown now).trans h) (current_shutdown now) hushed_shutdown
  | pool i m => exact .underway h rfl hushed_stepPool

theorem quiet_step (h : r.refreshes = []) (hm : ∀ u, m ≠ .refresh u) (now : Nat) :
    Quiet r (r.step now m) := by
  have hr : Quiet r ⟨r, []⟩ := ⟨h, rfl, hushed_nil⟩
  cases m with
  | refresh u => exact absurd rfl (hm u)
  | resume u => simpa only [step, resume, h] using hr
  | probed u i j role => simpa only [step, probed, onRound, h] using hr
  | brokeOff u i reason => simpa only [step, brokeOff, onRound, h] using hr
  | abandon u => simpa only [step, abandon, h] using hr
  | shutdown => exact ⟨(refreshes_shutdown now).trans h, current_shutdown now, hushed_shutdown⟩
  | pool i m => exact ⟨h, rfl, hushed_stepPool⟩

/-! ## Runs -/

theorem quiet_perform (h : r.refreshes = []) (hm : Unasked ms) : Quiet r (r.perform ms) := by
  induction ms generalizing r with
  | nil => exact ⟨h, rfl, hushed_nil⟩
  | cons x ms ih =>
      obtain ⟨now, m⟩ := x
      obtain ⟨hm, hms⟩ := List.forall_mem_cons.mp hm
      have hs := quiet_step h hm now
      have hp := ih hs.refreshes hms
      exact ⟨hp.refreshes, hp.current.trans hs.current, hs.hushed.append hp.hushed⟩

theorem Lone.quiet {f : Router → Reaction} (h : Lone t r x) (hr : x.state.refreshes = [])
    (hf : Quiet x.state (f x.state)) : Lone t r (x.andThen f) := by
  have hchanges : changes (x.andThen f).effects = changes x.effects := by
    rw [Reaction.andThen_effects, changes_append, hf.hushed.changes, List.append_nil]
  have hends : ends (x.andThen f).effects = ends x.effects := by
    rw [Reaction.andThen_effects, ends_append, hf.hushed.ends, List.append_nil]
  cases h with
  | underway hu =>
      rw [hr] at hu
      cases hu
  | left hq => exact .left ⟨hf.refreshes, hf.current.trans hq.current, hq.hushed.append hf.hushed⟩
  | failed _ hc hch he =>
      exact .failed hf.refreshes (hf.current.trans hc) (hchanges.trans hch) (hends.trans he)
  | renewed _ hch he =>
      refine .renewed hf.refreshes ?_ (hends.trans he)
      rw [hchanges, hch, Reaction.andThen_state, hf.current]

/-- A stretch of moves after some that left the refresh underway. -/
theorem Lone.of_underway {f : Router → Reaction} (hc : x.state.current = r.current)
    (hx : Hushed x.effects) (hf : Lone t x.state (f x.state)) : Lone t r (x.andThen f) := by
  have hchanges : changes (x.andThen f).effects = changes (f x.state).effects := by
    rw [Reaction.andThen_effects, changes_append, hx.changes, List.nil_append]
  have hends : ends (x.andThen f).effects = ends (f x.state).effects := by
    rw [Reaction.andThen_effects, ends_append, hx.ends, List.nil_append]
  cases hf with
  | underway hr hcur hh => exact .underway hr (hcur.trans hc) (hx.append hh)
  | left hq => exact .left ⟨hq.refreshes, hq.current.trans hc, hx.append hq.hushed⟩
  | failed hr hcur hch he =>
      exact .failed hr (hcur.trans hc) (hchanges.trans hch) (hends.trans he)
  | renewed hr hch he =>
      refine .renewed hr ?_ (hends.trans he)
      rw [hchanges, hch, hc, Reaction.andThen_state]

theorem lone_refresh (h : r.refreshes = []) (t : Ticket) : Lone t r (r.refresh t) := by
  unfold refresh
  split
  · exact .failed h rfl rfl rfl
  · simp only [h, List.isEmpty_nil, if_true, List.nil_append]
    exact .underway (refreshes_setStage rfl) rfl hushed_beginRound

theorem Lone.next (h : Lone t r x) (hm : ∀ u, m ≠ .refresh u) (now : Nat) :
    Lone t r (x.andThen (step now m)) := by
  have hq (hr : x.state.refreshes = []) : Lone t r (x.andThen (step now m)) :=
    h.quiet hr (quiet_step hr hm now)
  cases h with
  | underway hr hc hx => exact .of_underway hc hx (lone_step hr hm now)
  | left hl => exact hq hl.refreshes
  | failed hr => exact hq hr
  | renewed hr => exact hq hr

theorem Lone.perform (h : Lone t r x) (hm : Unasked ms) : Lone t r (x.andThen (perform ms)) := by
  induction ms generalizing x with
  | nil => simpa [Router.perform, Reaction.andThen] using h
  | cons y ms ih =>
      obtain ⟨now, m⟩ := y
      obtain ⟨hm, hms⟩ := List.forall_mem_cons.mp hm
      have hn := ih (h.next hm now) hms
      simpa [Router.perform, Reaction.andThen] using hn

/-- A refresh comes while no other is in progress, and none comes after it. -/
theorem lone_perform_refresh (h : r.refreshes = []) (hm : Unasked ms) (now : Nat) (t : Ticket) :
    Lone t r (r.perform ((now, .refresh t) :: ms)) :=
  (lone_refresh h t).perform hm

theorem Reachable.perform {config : Config.Cluster} (h : Reachable config r) :
    Reachable config (r.perform ms).state := by
  induction ms generalizing r with
  | nil => exact h
  | cons x ms ih => exact ih (h.step x.1 x.2)

end Router

end Shardway
