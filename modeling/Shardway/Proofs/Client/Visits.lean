import Shardway.Client.Command
import Shardway.Proofs.Client.Calls
import Shardway.Proofs.Router.Holding

/-!
# Calls give back what they borrow

A call for whose pool nobody else does anything, up to its end. Whatever the outcome, no permit is
missing then, and the connection that served the call is idle again or is closed for a reason.
-/

namespace Shardway

/-- The pool that a call has to do with at this stage. -/
def CallStage.uses? : CallStage → Option PoolId
  | .borrowing i | .running i _ | .returning i _ => some i
  | .pausing => none

namespace Client

open Pool (Short Seeks Returns)
open Router (LeavesAt leavesAt_refl leavesAt_shutdown leavesAt_updates)

variable {config : Config.Cluster} {c c' : Client} {t u : Ticket} {i j : PoolId} {now : Nat}
  {call : Call} {o : Except Fault Reply} {link : Link} {p q : Pool} {pm : Pool.Move} {b : Event}
  {es es' pre before after : List Event} {f : Fleet}

/-! ## What a call hears -/

/-- The events of which a call hears. -/
def heard (t : Ticket) (es : List Event) : List Event := es.filter (·.call? = some t)

@[simp] theorem heard_append : heard t (es ++ es') = heard t es ++ heard t es' :=
  List.filter_append ..

theorem heard_eq_nil : heard t es = [] ↔ ∀ e ∈ es, e.call? ≠ some t := by
  simp [heard, List.filter_eq_nil_iff]

theorem heard_cons_of_eq {e : Event} (h : e.call? = some t) :
    heard t (e :: es) = e :: heard t es := by
  simp [heard, h]

theorem heard_effects {l : List Effect} (h : ∀ x ∈ l, x.call? ≠ some t) :
    heard t (l.map (Event.ofEffect f)) = [] := by
  apply heard_eq_nil.mpr
  intro e he
  obtain ⟨x, hx, rfl⟩ := List.mem_map.mp he
  rw [Story.call?_ofEffect]
  exact h x hx

theorem heard_effects_of_none {l : List Effect} (h : ∀ x ∈ l, x.call? = none) :
    heard t (l.map (Event.ofEffect f)) = [] :=
  heard_effects fun x hx => by simp [h x hx]

theorem Answers.heard_eq {r : Reaction} (h : Answers t o r) :
    heard t (r.effects.map (Event.ofEffect f)) = [.told (.answered t o)] := by
  obtain ⟨l, l', hr, hl, hl'⟩ := h.told
  have ht : Event.ofEffect f (.answered t o) = .told (.answered t o) := rfl
  rw [hr, List.map_append, heard_append, heard_effects_of_none hl, List.map_cons, ht,
    heard_cons_of_eq rfl, heard_effects_of_none hl']
  rfl

theorem mem_hearAll {x : Effect} {l : List Effect} (h : x ∈ l) : x ∈ (hearAll l c).effects := by
  induction l generalizing c with
  | nil => cases h
  | cons e l ih =>
      rcases List.mem_cons.mp h with rfl | h
      · exact List.mem_cons_self
      · exact List.mem_append_right _ (ih h)

/-! ## What becomes of a pool meanwhile -/

theorem leavesAt_onPool (hj : j ≠ i) :
    LeavesAt i c.router.fleet.pools (c.onPool now j pm).state.router.fleet.pools := by
  rw [onPool, onRouter_router]
  exact Router.leavesAt_step (.inl hj)

theorem leavesAt_attempt (h : c.router.route call.key ≠ .ok i) :
    LeavesAt i c.router.fleet.pools (c.attempt now u call).state.router.fleet.pools := by
  unfold attempt
  split
  · rw [settle_router]
    exact leavesAt_refl
  · rename_i j hr
    exact leavesAt_onPool (c := c.put u { call with stage := .borrowing j })
      fun hj => h (hr.trans (congrArg _ hj))

/-! ## Stages of a call -/

/-- What has become of the connection of a call that ended with `o`: it is idle again, or it was
closed. A healthy one is closed only if its pool has no place for it or it did not answer a ping. -/
inductive Back (i : PoolId) (t : Ticket) (link : Link) (o : Except Fault Reply) (q : Pool)
    (after : List Event) : Prop
  | idle : isHealthy o = true → link ∈ q.idle.map (·.link) → Back i t link o q after
  | closed : .told (.pool i (.close link)) ∈ after → (isHealthy o = true →
      q.isFull = true ∨ .came i (.pinged t false) (.silent t) ∈ after) → Back i t link o q after

/-- How a call stands that came with the event `b` when its pool was `p`, and what has happened
since. All but the first stage and a failure come after a request was sent. -/
inductive Stands (t : Ticket) (call : Call) (i : PoolId) (b : Event) (p : Pool) (c : Client) :
    List Event → Prop
  | borrowing {es : List Event} {q : Pool} {s : BorrowStage} :
      c.find? t = some { call with stage := .borrowing i } →
      c.router.fleet.pools[i]? = some q → Pool.find? t q.borrows = some s → Short p s.permits q →
      heard t es = [b] → Stands t call i b p c es
  | running {before after : List Event} {q : Pool} {link : Link} :
      c.find? t = some { call with stage := .running i link } →
      c.router.fleet.pools[i]? = some q → Short p 1 q → heard t before = [b] → heard t after = [] →
      Stands t call i b p c (before ++ .told (.send t i link call.request) :: after)
  | returning {before after : List Event} {q : Pool} {link : Link} {o : Except Fault Reply} :
      c.find? t = some { call with stage := .returning i o } →
      c.router.fleet.pools[i]? = some q → Pool.find? t q.returns = some link →
      isHealthy o = true → Short p 1 q → heard t before = [b] → heard t after = [] →
      Stands t call i b p c (before ++ .told (.send t i link call.request) :: after)
  | failed {es : List Event} {q : Pool} {f : Fault} : c.find? t = none →
      c.router.fleet.pools[i]? = some q → Short p 0 q →
      heard t es = [b, .told (.answered t (.error f))] → Stands t call i b p c es
  | served {before after : List Event} {q : Pool} {link : Link} {o : Except Fault Reply} :
      c.find? t = none → p.closed = false → c.router.fleet.pools[i]? = some q → Short p 0 q →
      Back i t link o q after → heard t before = [b] → heard t after = [.told (.answered t o)] →
      Stands t call i b p c (before ++ .told (.send t i link call.request) :: after)

theorem pool_onPool (hq : c.router.fleet.pools[i]? = some q) (now : Nat) (pm : Pool.Move) :
    (c.onPool now i pm).state.router.fleet.pools[i]? = some (q.step now pm).state := by
  rw [onPool_of_some hq, hearAll_router]
  exact List.getElem?_set_self (List.getElem?_eq_some_iff.mp hq).1

theorem told_onPool {e : Pool.Effect} (hq : c.router.fleet.pools[i]? = some q)
    (he : e ∈ (q.step now pm).effects) : .pool i e ∈ (c.onPool now i pm).effects := by
  rw [onPool_of_some hq]
  exact mem_hearAll (List.mem_map_of_mem he)

/-- A move of the pool that ends no operation leaves the calls alone. -/
theorem quiet_onPool (hq : c.router.fleet.pools[i]? = some q)
    (he : Pool.endings (q.step now pm).effects = []) :
    (c.onPool now i pm).state.find? t = c.find? t ∧
      heard t ((c.onPool now i pm).effects.map (Event.ofEffect f)) = [] := by
  rw [onPool_of_some hq, hearAll_of_endings_nil he]
  exact ⟨rfl, heard_effects_of_none fun x => call?_pool⟩

theorem ends_onPool {e : Pool.Effect} (hc : c.find? t = some call)
    (hq : c.router.fleet.pools[i]? = some q) (he : Pool.endings (q.step now pm).effects = [e]) :
    Ends t call i e (c.onPool now i pm) := by
  rw [onPool_of_some hq]
  exact ends_hearAll he hc

/-- A borrower of the pool has moved. -/
theorem stands_of_seeks (hc : c.find? t = some { call with stage := .borrowing i })
    (hq : c.router.fleet.pools[i]? = some q) (hf : ∀ o, IsFinal call o)
    (hs : Seeks t p (q.step now pm)) (hpre : heard t pre = [b]) :
    Stands t call i b p (c.onPool now i pm).state
      (pre ++ (c.onPool now i pm).effects.map (Event.ofEffect f)) := by
  have hp := pool_onPool hq now pm
  cases hs with
  | waits hs hsh he =>
      obtain ⟨hown, hh⟩ := quiet_onPool (t := t) (f := f) hq he
      exact .borrowing (hown.trans hc) hp hs hsh (by rw [heard_append, hpre, hh]; rfl)
  | @lends link hsh he =>
      obtain ⟨hown, l, l', hr, hl, hl'⟩ := (ends_onPool hc hq he).lent
      have hes : pre ++ (c.onPool now i pm).effects.map (Event.ofEffect f) =
          (pre ++ l.map (Event.ofEffect f)) ++ .told (.send t i link call.request) ::
            l'.map (Event.ofEffect f) := by
        rw [hr]
        simp [Event.ofEffect]
      rw [hes]
      refine .running hown hp hsh ?_ ?_
      · rw [heard_append, hpre, heard_effects_of_none hl]
        rfl
      · exact heard_effects_of_none hl'
  | @fails f' hsh he =>
      have ha := (ends_onPool hc hq he).failed (hf _)
      apply Stands.failed ha.gone hp hsh
      rw [heard_append, hpre, ha.heard_eq]
      rfl

/-- A return to the pool has moved. -/
theorem stands_of_returns {good : Bool}
    (hc : c.find? t = some { call with stage := .returning i o })
    (hq : c.router.fleet.pools[i]? = some q) (hf : ∀ o, IsFinal call o)
    (hs : Returns t link good p (q.step now pm)) (hbad : isHealthy o = false → good = false)
    (hgood : isHealthy o = true → good = true ∨ .came i (.pinged t false) (.silent t) ∈ after)
    (hopen : p.closed = false) (hb : heard t before = [b]) (ha : heard t after = []) :
    Stands t call i b p (c.onPool now i pm).state
      (before ++ .told (.send t i link call.request) ::
        (after ++ (c.onPool now i pm).effects.map (Event.ofEffect f))) := by
  have hp := pool_onPool hq now pm
  have ho (h : good = true) : isHealthy o = true := by
    by_contra hn
    cases h.symm.trans (hbad (Bool.eq_false_iff.mpr hn))
  cases hs with
  | waits hs hg hsh he =>
      obtain ⟨hown, hh⟩ := quiet_onPool (t := t) (f := f) hq he
      apply Stands.returning (hown.trans hc) hp hs (ho hg) hsh hb
      rw [heard_append, ha, hh]
      rfl
  | ends hsh he hfate =>
      have hans := (ends_onPool hc hq he).returned rfl (hf o)
      apply Stands.served (o := o) hans.gone hopen hp hsh _ hb
      · rw [heard_append, ha, hans.heard_eq]
        rfl
      · cases hfate with
        | idle hg hi => exact .idle (ho hg) hi
        | closed hcl hfull =>
            apply Back.closed
            · have hm := List.mem_map_of_mem (f := Event.ofEffect f) (told_onPool hq hcl)
              exact List.mem_append_right _ hm
            · intro hh
              rcases hgood hh with hg | hsil
              · exact .inl (hfull hg)
              · exact .inr (List.mem_append_left _ hsil)

/-- A call in progress stands as before if its pool is left alone, or is shut down. -/
theorem Stands.pass (h : Stands t call i b p c es) (hc : c.find? t ≠ none)
    (hown : c'.find? t = c.find? t) (hl : LeavesAt i c.router.fleet.pools c'.router.fleet.pools)
    (hes : heard t es' = []) : Stands t call i b p c' (es ++ es') := by
  cases h with
  | @borrowing es q s hf hq hs hsh hh =>
      have hh : heard t (es ++ es') = [b] := by rw [heard_append, hh, hes]; rfl
      rcases hl q hq with hq | hq
      · exact .borrowing (hown.trans hf) hq hs hsh hh
      · exact .borrowing (hown.trans hf) hq (Pool.shutdown_borrows.symm ▸ hs) hsh.shutdown hh
  | @running before after q link hf hq hsh hb ha =>
      have ha : heard t (after ++ es') = [] := by rw [heard_append, ha, hes]; rfl
      rw [List.append_assoc, List.cons_append]
      rcases hl q hq with hq | hq
      · exact .running (hown.trans hf) hq hsh hb ha
      · exact .running (hown.trans hf) hq hsh.shutdown hb ha
  | @returning before after q link o hf hq hs ho hsh hb ha =>
      have ha : heard t (after ++ es') = [] := by rw [heard_append, ha, hes]; rfl
      rw [List.append_assoc, List.cons_append]
      rcases hl q hq with hq | hq
      · exact .returning (hown.trans hf) hq hs ho hsh hb ha
      · exact .returning (hown.trans hf) hq (Pool.shutdown_returns.symm ▸ hs) ho hsh.shutdown hb ha
  | failed hf => exact absurd hf hc
  | served hf => exact absurd hf hc

theorem Stands.uses (h : Stands t call i b p c es) (hc : c.find? t ≠ none) :
    ∃ call', c.find? t = some call' ∧ call'.stage.uses? = some i := by
  cases h with
  | borrowing hf | running hf | returning hf => exact ⟨_, hf, rfl⟩
  | failed hf | served hf => exact absurd hf hc

namespace Story

variable {s s' : Story} {m : Move}

/-! ## Moves elsewhere -/

theorem leavesAt_step (hk : s.Kept config) (h : ∀ pm, s.client.poolMove? m ≠ some (i, pm)) :
    LeavesAt i s.pools (s.next now m).pools := by
  have hr := hk.reachable.running
  have ha {u : Ticket} {call : Call}
      (hp : ∀ pm, ((s.client.router.route call.key).toOption.map
        fun i => (i, Pool.Move.borrow u)) ≠ some (i, pm)) :
      LeavesAt i s.pools (s.client.attempt now u call).state.router.fleet.pools :=
    leavesAt_attempt fun hi => hp (.borrow u) (by rw [hi]; rfl)
  unfold Story.pools Story.next
  cases m with
  | call u key request attempts => exact ha h
  | woken u =>
      simp only [step, woken]
      split
      · rename_i call hc
        split
        · rename_i hs
          apply ha
          simpa only [poolMove?, attempt?, hc, hs, Option.bind_some] using h
        · exact leavesAt_refl
      · exact leavesAt_refl
  | replied u o =>
      simp only [step, replied]
      split
      · rename_i call hc
        split
        · rename_i j link hs
          apply leavesAt_onPool (c := s.client.put u { call with stage := .returning j o })
          rintro rfl
          exact h (.giveBack u link (isHealthy o)) (by simp only [poolMove?, hc, hs])
        · exact leavesAt_refl
      · exact leavesAt_refl
  | pool j pm =>
      apply leavesAt_onPool
      rintro rfl
      exact h pm rfl
  | refresh u =>
      simp only [step, onRouter_router]
      exact leavesAt_updates hr.refresh
  | resume u =>
      simp only [step, onRouter_router]
      exact leavesAt_updates hr.resume
  | probed u k l role =>
      simp only [step, onRouter_router]
      exact leavesAt_updates (hr.onRound fun _ hr => hr.answer k l role)
  | brokeOff u k reason =>
      simp only [step, onRouter_router]
      exact leavesAt_updates (hr.onRound fun _ hr => hr.breakOff k reason)
  | abandonRefresh u =>
      simp only [step, onRouter_router]
      exact leavesAt_updates hr.abandon
  | shutdown =>
      simp only [step, onRouter_router]
      exact leavesAt_shutdown

theorem awaits?_uses {stage : CallStage} {w : Pool.Waiting} (h : stage.awaits? = some (j, w))
    (hu : stage.uses? = some i) : j = i := by
  cases stage <;> cases h <;> cases hu <;> rfl

/-- A move that does nothing to the pool of a call leaves the call alone. -/
theorem spares_elsewhere (hk : s.Kept config) (ha : s.Admits m) (hc : s.client.find? t = some call)
    (hu : call.stage.uses? = some i) (h : ∀ pm, s.client.poolMove? m ≠ some (i, pm)) (now : Nat) :
    Spares t s.client (s.client.step now m) := by
  rcases hk.spares_or_concerns ha hc now with hs | hcon
  · exact hs
  cases hcon with
  | @replied j link o hs =>
      rw [hs] at hu
      cases hu
      exact absurd (by simp only [poolMove?, hc, hs]) (h (.giveBack t link (isHealthy o)))
  | woken hs =>
      rw [hs] at hu
      cases hu
  | @ended _ j pm p e w hm hi he hew haw hends =>
      cases awaits?_uses haw hu
      exact absurd hm (h pm)

/-- What happens to the pool on behalf of a call comes to it directly, or is the return of the
connection of the call. -/
theorem own_move (hm : s.client.poolMove? m = some (i, pm)) (ho : pm.IsOf t) :
    m = .pool i pm ∨ ∃ call link o, m = .replied t o ∧ s.client.find? t = some call ∧
      call.stage = .running i link ∧ pm = .giveBack t link (isHealthy o) := by
  have hb {u : Ticket} {call : Call}
      (h : ((s.client.router.route call.key).toOption.map fun i => (i, Pool.Move.borrow u)) =
        some (i, pm)) : False := by
    obtain ⟨k, -, he⟩ := Option.map_eq_some_iff.mp h
    cases he
    exact ho
  cases m with
  | pool j pm' =>
      cases hm
      exact .inl rfl
  | replied u o =>
      simp only [poolMove?] at hm
      split at hm
      · rename_i call hc
        split at hm
        · rename_i j link hs
          cases hm
          cases ho
          exact .inr ⟨call, link, o, rfl, hc, hs, rfl⟩
        · cases hm
      · cases hm
  | call u key request attempts => exact (hb hm).elim
  | woken u =>
      simp only [poolMove?] at hm
      obtain ⟨⟨v, call⟩, -, hm⟩ := Option.bind_eq_some_iff.mp hm
      exact (hb hm).elim
  | _ => cases hm

/-! ## Calls that are alone at their pool -/

/-- While the call is in progress, its own moves are all that happens to the pool, except that the
pool may be shut down. -/
inductive Alone (t : Ticket) (i : PoolId) (s : Story) : Story → Prop
  | refl : Alone t i s s
  | next {s' : Story} {now : Nat} {m : Move} : Alone t i s s' → s'.client.find? t ≠ none →
      s'.now ≤ now → s'.Admits m → (∀ pm, s'.client.poolMove? m = some (i, pm) → pm.IsOf t) →
      Alone t i s (s'.next now m)

theorem Alone.leads (h : Alone t i s s') : Leads s s' := by
  induction h with
  | refl => exact .refl
  | next _ _ hn ha _ ih => exact ih.next hn ha

theorem news_pool : s.news now (.pool i pm) = arrived s.pools i pm ++
    (s.client.onPool now i pm).effects.map (Event.ofEffect s.client.router.fleet) := rfl

theorem heard_arrived : heard t (arrived s.pools i pm) = [] :=
  heard_eq_nil.mpr fun e he => by
    have ha : e ∈ s.arrivals (.pool i pm) := he
    simp [call?_arrivals ha]

/-- A move of the pool on behalf of the call. -/
theorem stands_pool (hk : s.Kept config) (ha : s.Admits (.pool i pm)) (hm : pm.IsOf t)
    (hf : ∀ o, IsFinal call o) (hc : s.client.find? t ≠ none)
    (h : Stands t call i b p s.client es) :
    Stands t call i b p (s.next now (.pool i pm)).client (es ++ s.news now (.pool i pm)) := by
  have ho := hk.tracked.orderly
  have hbegun : pm.begun? = none := by
    cases pm with
    | giveBack u link healthy =>
        cases hm
        exact absurd (ha.1 t _ rfl) hc
    | borrow u | sweep u => exact hm.elim
    | _ => rfl
  rw [news_pool]
  cases h with
  | @borrowing es q s hfind hq hs hsh hh =>
      rw [← List.append_assoc]
      apply stands_of_seeks hfind hq hf (Pool.seeks_step hs hsh hm hbegun)
      rw [heard_append, hh, heard_arrived]
      rfl
  | @running before after q link hfind hq hsh hb haf =>
      have hw : q.waiting? t = none :=
        Pool.waiting?_eq_none_of_not_waits fun w => ho.not_waits hfind rfl i q w hq
      have hstep := Pool.step_of_not_waiting hw hm hbegun now
      have he : Pool.endings (q.step now pm).effects = [] := by
        rcases hstep with hx | hx
        · rw [hx]
          rfl
        · rw [hx]
          exact Pool.endings_shutdown
      obtain ⟨hown, hh⟩ := quiet_onPool (t := t) (f := s.client.router.fleet) hq he
      have hp := pool_onPool hq now pm
      have hst : Stands t call i b p s.client
          (before ++ .told (.send t i link call.request) :: after) :=
        .running hfind hq hsh hb haf
      apply hst.pass hc hown
      · intro q' hq'
        cases hq.symm.trans hq'
        rcases hstep with hx | hx
        · rw [hx] at hp
          exact .inl hp
        · rw [hx] at hp
          exact .inr hp
      · rw [heard_append, heard_arrived, hh]
        rfl
  | @returning before after q link o hfind hq hs hh hsh hb haf =>
      have hnb : Pool.find? t q.borrows = none := by
        by_contra hn
        have hw : q.Waits t .borrow := Option.isSome_iff_ne_none.mpr hn
        cases ho.waits t _ hfind i q _ hq hw
      obtain ⟨good, hg, hret⟩ := Pool.returns_step hnb hs hsh hm hbegun now
      rw [List.append_assoc, List.cons_append, ← List.append_assoc]
      apply stands_of_returns hfind hq hf hret _ _ (hsh.opened Nat.one_ne_zero) hb
      · rw [heard_append, haf, heard_arrived]
        rfl
      · intro hx
        cases hh.symm.trans hx
      · intro _
        cases good with
        | true => exact .inl rfl
        | false =>
            cases hg rfl
            refine .inr (List.mem_append_right _ ?_)
            have hq : s.pools[i]? = some q := hq
            simp [arrived, hq, Pool.inputs, Pool.hand?, Pool.waiting?_of_returns hnb hs, hs]
  | failed hfind => exact absurd hfind hc
  | served hfind => exact absurd hfind hc

/-- The reply to the request of the call. -/
theorem stands_replied (hfind : s.client.find? t = some { call with stage := .running i link })
    (hq : s.client.router.fleet.pools[i]? = some q) (hsh : Short p 1 q)
    (hf : ∀ o, IsFinal call o) (hb : heard t before = [b]) (haf : heard t after = []) :
    Stands t call i b p (s.next now (.replied t o)).client
      (before ++ .told (.send t i link call.request) :: (after ++ s.news now (.replied t o))) := by
  have hx := step_replied hfind rfl o now
  have hnews : s.news now (.replied t o) = arrived s.pools i (.giveBack t link (isHealthy o)) ++
      (s.client.step now (.replied t o)).effects.map (Event.ofEffect s.client.router.fleet) := by
    simp [news, beginnings, arrivals, attempt?, poolMove?, hfind]
  rw [hnews, Story.next, hx, ← List.append_assoc]
  apply stands_of_returns (c := s.client.put t { call with stage := .returning i o }) find?_put hq
    hf (Pool.returns_giveBack hsh) id _ (hsh.opened Nat.one_ne_zero) hb
  · rw [heard_append, haf, heard_arrived]
    rfl
  · exact .inl

theorem stands_next (hk : s.Kept config) (ha : s.Admits m) (hc : s.client.find? t ≠ none)
    (hm : ∀ pm, s.client.poolMove? m = some (i, pm) → pm.IsOf t) (hf : ∀ o, IsFinal call o)
    (h : Stands t call i b p s.client es) :
    Stands t call i b p (s.next now m).client (es ++ s.news now m) := by
  by_cases hp : ∃ pm, s.client.poolMove? m = some (i, pm)
  · obtain ⟨pm, hp⟩ := hp
    rcases own_move hp (hm pm hp) with rfl | ⟨call', link, o, rfl, hc', hs, rfl⟩
    · exact stands_pool hk ha (hm pm rfl) hf hc h
    · cases h with
      | running hfind hq hsh hb haf =>
          cases hc'.symm.trans hfind
          cases hs
          rw [List.append_assoc, List.cons_append]
          exact stands_replied hfind hq hsh hf hb haf
      | borrowing hfind | returning hfind =>
          cases hc'.symm.trans hfind
          cases hs
      | failed hfind | served hfind => exact absurd hfind hc
  · have hp (pm : Pool.Move) : s.client.poolMove? m ≠ some (i, pm) := fun h => hp ⟨pm, h⟩
    obtain ⟨call', hc', hu⟩ := h.uses hc
    have hs := spares_elsewhere hk ha hc' hu hp now
    apply h.pass hc hs.own (leavesAt_step hk hp)
    apply heard_eq_nil.mpr
    intro e he
    apply call?_news ha hc' _ hs he
    intro hpau
    rw [hpau] at hu
    cases hu

theorem Alone.stands {s₀ : Story} (hl : Alone t i s s') (hr : Runs config s)
    (hf : ∀ o, IsFinal call o) (hp : s.past = s₀.past ++ es)
    (h : Stands t call i b p s.client es) :
    ∃ es', s'.past = s₀.past ++ es' ∧ Stands t call i b p s'.client es' := by
  induction hl with
  | refl => exact ⟨es, hp, h⟩
  | @next s' now m hl hc _ ha hm ih =>
      obtain ⟨es', hp', h'⟩ := ih
      refine ⟨es' ++ s'.news now m, ?_, stands_next (hr.leads hl.leads).kept ha hc hm hf h'⟩
      simp [Story.next, hp']

/-- A call has come to its pool. -/
theorem stands_call {key : Bytes} {request : Request} {attempts : Nat} (t : Ticket) (now : Nat)
    (hk : s.Kept config) (hr : s.client.router.route key = .ok i) (hp : s.pools[i]? = some p)
    (hf : ∀ o, IsFinal ⟨key, request, ⟨max attempts 1, 0, firstPause⟩, .pausing⟩ o) :
    ∃ es, (s.next now (.call t key request attempts)).past = s.past ++ es ∧
      Stands t ⟨key, request, ⟨max attempts 1, 0, firstPause⟩, .pausing⟩ i
        (.begun t key request s.client.router.current) p
        (s.next now (.call t key request attempts)).client es := by
  obtain ⟨node, tuning, k, -, hl⟩ := hk.tracked.sound.lived i p hp
  have hnext : s.next now (.call t key request attempts) = _ := next_call hr s.past
  rw [hnext]
  refine ⟨_, rfl, ?_⟩
  have hb : heard t [.begun t key request s.client.router.current] =
      [.begun t key request s.client.router.current] := heard_cons_of_eq rfl
  exact stands_of_seeks find?_put hp hf (Pool.seeks_borrow hl.served) hb

/-! ## Queries -/

theorem misfit_fault (m : Reply.Misfit) : ∃ text, m.fault = .protocol text := by
  cases m with
  | of reason reply => exact ⟨_, rfl⟩
  | badText => exact ⟨_, rfl⟩

/-- A query fails with its call, or with a fault of its own after a call that did not fail. -/
theorem reading_eq_error {α : Type} {read : Reply.Reading α} {g : Fault}
    (h : o.bind (Command.reading read) = .error g) :
    o = .error g ∨ isHealthy o = true ∧ ∃ text, g = .protocol text := by
  cases o with
  | error f =>
      cases h
      exact .inl rfl
  | ok v =>
      refine .inr ⟨rfl, ?_⟩
      have h : (read v).mapError Reply.Misfit.fault = .error g := h
      cases hv : read v with
      | ok a =>
          rw [hv] at h
          cases h
      | error m =>
          rw [hv] at h
          cases h
          exact misfit_fault m

/-- A call for whose pool nobody else does anything, except perhaps to shut it down, is over at last
without a change to the permits in use. It fails before it has a connection, or it sends its request
over one and ends with what came of that. After a fault of the connection that is closed. Otherwise
it is idle, or closed since the pool was shut down meanwhile, has enough idle connections or found
that the connection does not answer. When it is idle, it stays so with a pool that somebody holds;
if the call was the last to hold the pool, which has been retired, it is closed with it. To read the
reply as a value changes nothing: that it is not one is a fault of the protocol, which does not
count as one of the connection. -/
theorem gives_back (h : Runs config s) {key : Bytes} {request : Request} (hn : s.now ≤ now)
    (ha : s.Admits (.call t key request 1)) (hr : s.client.router.route key = .ok i)
    (hl : Alone t i (s.next now (.call t key request 1)) s') (hd : s'.client.find? t = none) :
    ∃ p p' es, s.pools[i]? = some p ∧ s'.pools[i]? = some p' ∧ s'.past = s.past ++ es ∧
      p'.inUse = p.inUse ∧
      ((∃ f, heard t es =
          [.begun t key request s.client.router.current, .told (.answered t (.error f))]) ∨
        ∃ before after link o, es = before ++ .told (.send t i link request) :: after ∧
          heard t before = [.begun t key request s.client.router.current] ∧
          heard t after = [.told (.answered t o)] ∧ p.closed = false ∧
          (isHealthy o = false → .told (.pool i (.close link)) ∈ after) ∧
          (isHealthy o = true → (link ∈ p'.idle.map (·.link) ∧ ∀ k : Custody, i ∉ k.gone →
              (k.Holds s'.client.router i p' → i ∉ (k.release s'.client.router).state.gone) ∧
              (¬k.Holds s'.client.router i p' →
                .pool i (.close link) ∈ (k.release s'.client.router).effects)) ∨
            .told (.pool i (.close link)) ∈ after ∧
              (p'.closed = true ∨ p'.tuning.maxIdle ≤ p'.idle.length ∨
                .came i (.pinged t false) (.silent t) ∈ after)) ∧
          ∀ (α : Type) (read : Reply.Reading α) (g : Fault),
            o.bind (Command.reading read) = .error g →
              o = .error g ∨ isHealthy o = true ∧ ∃ text, g = .protocol text) := by
  obtain ⟨m, hch⟩ := h.kept.reachable.chosen_of_route hr
  obtain ⟨p, hp, -⟩ := hch.pool
  have hf (o : Except Fault Reply) :
      IsFinal ⟨key, request, ⟨max 1 1, 0, firstPause⟩, .pausing⟩ o := by
    intro f _
    simp [Retry.next?]
  obtain ⟨es, hes, hst⟩ := stands_call t now h.kept hr hp hf
  obtain ⟨es', hes', hst'⟩ := hl.stands (h.next hn ha) hf hes hst
  cases hst' with
  | borrowing hc | running hc | returning hc => cases hd.symm.trans hc
  | failed _ hq hsh hh => exact ⟨p, _, _, hp, hq, hes', hsh.inUse_eq, .inl ⟨_, hh⟩⟩
  | @served before after q link o _ hopen hq hsh hback hb hafter =>
      refine ⟨p, q, _, hp, hq, hes', hsh.inUse_eq, .inr ⟨before, after, link, o, rfl, hb, hafter,
        hopen, ?_, ?_, fun α read g => reading_eq_error⟩⟩
      · intro ho
        cases hback with
        | idle hh => cases ho.symm.trans hh
        | closed hcl => exact hcl
      · intro ho
        cases hback with
        | idle _ hi => exact .inl ⟨hi, fun k hk => Custody.release_idle hq hk hi⟩
        | closed hcl hwhy =>
            refine .inr ⟨hcl, ?_⟩
            rcases hwhy ho with hfull | hsil
            · have hfull : q.closed = true ∨ q.tuning.maxIdle ≤ q.idle.length := by
                simpa [Pool.isFull] using hfull
              exact hfull.imp_right .inl
            · exact .inr (.inr hsil)

/-- The only call of the client waits for a connection. -/
def soloCalled (r : Router) : Story :=
  soloAt r [(1, .borrow 0)] [(0, ⟨[1], [[71]], ⟨1, 0, firstPause⟩, .borrowing 0⟩)] 1
    [.begun 0 [1] [[71]] r.current, .dialed 0 0 (some ⟨"a", 7000⟩)]

theorem next_soloCalled {r : Router} (hr : ∀ key, r.route key = .ok 0) :
    (soloAt r [] [] 0 []).next 1 (.call 0 [1] [[71]] 1) = soloCalled r := by
  have hc : (soloAt r [] [] 0 []).client.router.route [1] = .ok 0 := hr [1]
  exact next_call hc []

theorem soloSent_ok (r : Router) (v : Reply) :
    (soloSent r).next 2 (.replied 0 (.ok v)) =
      soloAt r [(1, .borrow 0), (1, .connected 0 (.ok 7)), (2, .giveBack 0 7 true)] [] 2
        ((soloSent r).past ++ [.came 0 (.giveBack 0 7 true) (.back 7),
          .told (.pool 0 (.returned 0)), .told (.answered 0 (.ok v))]) := rfl

/-- The node answers with a whole number where bytes are due. -/
theorem gives_back_misread :
    ∃ (s s' : Story) (p p' : Pool), Runs solo s ∧ s.client.calls = [] ∧
      Alone 0 0 (s.next 1 (.call 0 [1] [[71]] 1)) s' ∧ s'.client.find? 0 = none ∧
      s.pools[0]? = some p ∧ s'.pools[0]? = some p' ∧ p'.inUse = p.inUse ∧
      p'.idle = [⟨7, 2⟩] ∧ .told (.answered 0 (.ok (.int 5))) ∈ s'.past ∧
      ∃ text, (Except.ok (.int 5) : Except Fault Reply).bind (Command.reading Reply.toBytes) =
        .error (.protocol text) := by
  obtain ⟨r, h, -, -, -, hp, hr⟩ := exists_launch_solo
  rw [← soloAt_nil hp] at h
  have ha : (soloAt r [] [] 0 []).Admits (.call 0 [1] [[71]] 1) := ⟨rfl, fun p hp => by
    cases List.mem_singleton.mp hp
    rfl⟩
  have hsent : Alone 0 0 (soloCalled r) (soloSent r) := by
    change Alone 0 0 _ ((soloCalled r).next 1 (.pool 0 (.connected 0 (.ok 7))))
    apply Alone.next .refl _ (Nat.le_refl 1)
    · exact ⟨by simp [Pool.Move.begun?], fun p hp => ⟨trivial, fun link _ => List.not_mem_nil⟩⟩
    · intro pm hpm
      cases hpm
      rfl
    · exact Option.some_ne_none _
  have hl : Alone 0 0 ((soloAt r [] [] 0 []).next 1 (.call 0 [1] [[71]] 1))
      ((soloSent r).next 2 (.replied 0 (.ok (.int 5)))) := by
    rw [next_soloCalled hr]
    apply hsent.next _ (Nat.le_succ 1)
    · intro call i link hc hs p hp
      cases hc
      cases hs
      cases hp
      exact List.mem_cons_self
    · intro pm hpm
      cases hpm
      rfl
    · exact Option.some_ne_none _
  obtain ⟨p, p', es, hp, hp', -, hu, -⟩ := gives_back h (Nat.zero_le 1) ha (hr [1]) hl rfl
  have hidle : p'.idle = [⟨7, 2⟩] := by
    cases hp'
    rfl
  refine ⟨_, _, p, p', h, rfl, hl, rfl, hp, hp', hu, hidle, ?_, _, rfl⟩
  simp [soloSent_ok, soloAt]

end Story

end Client

end Shardway
