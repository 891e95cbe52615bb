import Shardway.Proofs.Client.Delivery

/-!
# Calls among other moves

Whatever else happens to a client, a call in progress is only concerned by what it waits for: by the
end of its operation on a pool, by the reply to its request, or by the end of its pause.
-/

namespace Shardway

/-- The call that hears of an effect. -/
def Effect.call? : Effect → Option Ticket
  | .send t .. | .pause t _ | .answered t _ => some t
  | _ => none

namespace Client

/-- The call that hears of an event, or begins an attempt with it. -/
def Event.call? : Event → Option Ticket
  | .told e => e.call?
  | .begun t .. => some t
  | _ => none

/-- A part of a move has nothing to do with the call. -/
structure Spares (t : Ticket) (c : Client) (r : Reaction) : Prop where
  own : r.state.find? t = c.find? t
  untold : ∀ e ∈ r.effects, e.call? ≠ some t

variable {c : Client} {r : Reaction} {t u : Ticket} {i : PoolId} {now : Nat} {es : List Effect}
  {call : Call}

theorem spares_refl : Spares t c ⟨c, []⟩ := ⟨rfl, by simp⟩

theorem Spares.andThen {f : Client → Reaction} (h : Spares t c r)
    (hf : Spares t r.state (f r.state)) : Spares t c (r.andThen f) where
  own := hf.own.trans h.own
  untold := fun e he => (List.mem_append.mp he).elim (h.untold e) (hf.untold e)

theorem Spares.of_find {c' : Client} (h : Spares t c' r) (hc : c'.find? t = c.find? t) :
    Spares t c r :=
  ⟨h.own.trans hc, h.untold⟩

/-! ## What calls hear -/

theorem Settles.spares (h : Settles u c r) (hu : u ≠ t) : Spares t c r where
  own := h.others t (Ne.symm hu)
  untold := fun e he => by
    rcases h.effects e he with ⟨n, rfl⟩ | ⟨s, rfl⟩ | ⟨o, rfl⟩
    · simp [Effect.call?]
    · simpa [Effect.call?] using hu
    · simpa [Effect.call?] using hu

theorem spares_hear {e : Pool.Effect} (h : ∀ w, e.ended? ≠ some (t, w)) :
    Spares t c (c.hear i e) := by
  cases he : e.ended? with
  | none =>
      rw [hear_of_not_ended he]
      exact spares_refl
  | some x =>
      obtain ⟨u, w⟩ := x
      have hu : u ≠ t := fun hu => h w (hu ▸ he)
      have hh := hears_hear (i := i) (c := c) he
      generalize c.hear i e = r at hh
      cases hh with
      | ignores => exact spares_refl
      | sends hc => exact ⟨find?_put_of_ne (Ne.symm hu), by simpa [Effect.call?] using hu⟩
      | settles hc hs => exact hs.spares hu

theorem spares_hearAll (h : ∀ e ∈ es, e.call? ≠ some t)
    (he : ∀ i e, .pool i e ∈ es → ∀ w, e.ended? ≠ some (t, w)) :
    Spares t c (hearAll es c) := by
  induction es generalizing c with
  | nil => exact spares_refl
  | cons e es ih =>
      obtain ⟨hx, hes⟩ := List.forall_mem_cons.mp h
      have ih {c : Client} := ih (c := c) hes fun i e hm => he i e (List.mem_cons_of_mem _ hm)
      unfold hearAll
      refine Spares.andThen ?_ ih
      cases e with
      | pool i e =>
          have hs := spares_hear (c := c) (i := i) (he i e List.mem_cons_self)
          exact ⟨hs.own, List.forall_mem_cons.mpr ⟨hx, hs.untold⟩⟩
      | _ => exact ⟨rfl, by simpa using hx⟩

theorem spares_onRouter {f : Router → Router.Reaction}
    (h : ∀ e ∈ (f c.router).effects, e.call? ≠ some t)
    (he : ∀ i e, .pool i e ∈ (f c.router).effects → ∀ w, e.ended? ≠ some (t, w)) :
    Spares t c (c.onRouter f) :=
  (spares_hearAll (c := { c with router := (f c.router).state }) h he).of_find rfl

theorem spares_of_plain {f : Router → Router.Reaction} (h : Router.Plain (f c.router).effects) :
    Spares t c (c.onRouter f) := by
  apply spares_onRouter
  · intro e he
    have hp := h e he
    cases e with
    | send t i link request => exact hp.elim
    | pause t s => exact hp.elim
    | answered t o => exact hp.elim
    | _ => simp [Effect.call?]
  · intro i e he
    exact (h _ he).elim

theorem ended?_of_mem_shutdownEach {f : Fleet} {ids : List PoolId} {e : Pool.Effect}
    (h : .pool i e ∈ (f.shutdownEach now ids).effects) : e.ended? = none := by
  induction ids generalizing f with
  | nil => cases h
  | cons j ids ih =>
      rcases List.mem_append.mp h with h | h
      · unfold Fleet.step at h
        split at h
        · cases h
        · obtain ⟨x, hx, heq⟩ := List.mem_map.mp h
          cases heq
          exact Pool.ended?_eq_none Pool.endings_shutdown hx
      · exact ih h

theorem effects_shutdown {r : Router} {e : Effect} (h : e ∈ (r.shutdown now).effects) :
    (∃ i x, e = .pool i x ∧ x.ended? = none) ∨ ∃ n, e = .notice n := by
  unfold Router.shutdown at h
  split at h
  · cases h
  · rcases List.mem_append.mp h with h | h
    · simp only [Reaction.lift_effects, List.map_id_fun, id_eq] at h
      obtain ⟨i, x, rfl⟩ := Router.mem_shutdownEach h
      exact .inl ⟨i, x, rfl, ended?_of_mem_shutdownEach h⟩
    · exact .inr ⟨_, List.mem_singleton.mp h⟩

theorem spares_shutdown : Spares t c (c.onRouter (Router.shutdown now)) := by
  apply spares_onRouter
  · intro e he
    rcases effects_shutdown he with ⟨i, x, rfl, -⟩ | ⟨n, rfl⟩
    · simp [Effect.call?]
    · simp [Effect.call?]
  · intro i e he w
    rcases effects_shutdown he with ⟨j, x, hx, hn⟩ | ⟨n, hx⟩
    · cases hx
      simp [hn]
    · cases hx

/-! ## Moves of pools -/

/-- The operation of the call on its pool has ended with `e`, which the call hears. -/
def Ends (t : Ticket) (call : Call) (i : PoolId) (e : Pool.Effect) (r : Reaction) : Prop :=
  ∃ (c : Client) (pre post : List Effect), c.find? t = some call ∧
    r.effects = pre ++ ((c.hear i e).effects ++ post) ∧
    r.state.find? t = (c.hear i e).state.find? t ∧
    (∀ x ∈ pre, x.call? = none) ∧ ∀ x ∈ post, x.call? = none

/-- No other attempt follows this outcome of an attempt. -/
def IsFinal (call : Call) (o : Except Fault Reply) : Prop :=
  ∀ f, o = .error f → call.retry.next? f = none

theorem settle_of_isFinal {o : Except Fault Reply} (h : IsFinal call o) :
    c.settle t call o = ⟨c.without t, [.answered t o]⟩ := by
  unfold settle
  cases o with
  | ok v => rfl
  | error f => simp only [h f rfl]

/-- The call is over with this outcome, and that is all it hears. -/
structure Answers (t : Ticket) (o : Except Fault Reply) (r : Reaction) : Prop where
  gone : r.state.find? t = none
  told : ∃ pre post, r.effects = pre ++ .answered t o :: post ∧
    (∀ x ∈ pre, x.call? = none) ∧ ∀ x ∈ post, x.call? = none

theorem Ends.answers {e : Pool.Effect} {o : Except Fault Reply} (h : Ends t call i e r)
    (he : ∀ c : Client, c.find? t = some call → c.hear i e = c.settle t call o)
    (ho : IsFinal call o) : Answers t o r := by
  obtain ⟨c, pre, post, hc, hr, hf, hpre, hpost⟩ := h
  rw [he c hc, settle_of_isFinal ho] at hr hf
  exact ⟨hf.trans find?_without, pre, post, hr, hpre, hpost⟩

theorem Ends.returned {o : Except Fault Reply} (h : Ends t call i (.returned t) r)
    (hs : call.stage = .returning i o) (ho : IsFinal call o) : Answers t o r := by
  apply h.answers _ ho
  intro c hc
  simp only [hear, hc, hs]

theorem Ends.failed {f : Fault} (h : Ends t call i (.failed t f) r)
    (ho : IsFinal call (.error f)) : Answers t (.error f) r := by
  apply h.answers _ ho
  intro c hc
  simp only [hear, hc]

/-- The call has its connection, and sends its request over it. -/
theorem Ends.lent {link : Link} (h : Ends t call i (.lent t link) r) :
    r.state.find? t = some { call with stage := .running i link } ∧
      ∃ pre post, r.effects = pre ++ .send t i link call.request :: post ∧
        (∀ x ∈ pre, x.call? = none) ∧ ∀ x ∈ post, x.call? = none := by
  obtain ⟨c, pre, post, hc, hr, hf, hpre, hpost⟩ := h
  have hh : c.hear i (.lent t link) = ⟨c.put t { call with stage := .running i link },
      [.send t i link call.request]⟩ := by simp only [hear, hc]
  rw [hh] at hr hf
  exact ⟨hf.trans find?_put, pre, post, hr, hpre, hpost⟩

theorem call?_pool {x : Effect} {es : List Pool.Effect} (h : x ∈ es.map (.pool i)) :
    x.call? = none := by
  obtain ⟨e, -, rfl⟩ := List.mem_map.mp h
  rfl

theorem ends_hearAll {es : List Pool.Effect} {e : Pool.Effect} (he : Pool.endings es = [e])
    (hc : c.find? t = some call) : Ends t call i e (hearAll (es.map (.pool i)) c) := by
  obtain ⟨pre, post, -, heard⟩ := hearAll_of_endings_singleton (i := i) (c := c) he
  refine ⟨c, (pre ++ [e]).map (.pool i), post.map (.pool i), hc, ?_, ?_, fun x => call?_pool,
    fun x => call?_pool⟩
  · rw [heard]
    simp
  · rw [heard]

theorem hearAll_course {es : List Pool.Effect}
    (he : Pool.endings es = [] ∨ ∃ e u w, Pool.endings es = [e] ∧ e.ended? = some (u, w))
    (hc : c.find? t = some call) :
    Spares t c (hearAll (es.map (.pool i)) c) ∨
      ∃ e w, Pool.endings es = [e] ∧ e.ended? = some (t, w) ∧
        Ends t call i e (hearAll (es.map (.pool i)) c) := by
  have hs (h : ∀ e ∈ Pool.endings es, ∀ w, e.ended? ≠ some (t, w)) :
      Spares t c (hearAll (es.map (.pool i)) c) := by
    apply spares_hearAll
    · intro x hx
      simp [call?_pool hx]
    · intro j e hm w hw
      obtain ⟨x, hx, heq⟩ := List.mem_map.mp hm
      cases heq
      exact h e (List.mem_filter.mpr ⟨hx, by simp [hw]⟩) w hw
  rcases he with he | ⟨e, u, w, he, hu⟩
  · exact .inl (hs (by simp [he]))
  · by_cases hut : u = t
    · subst hut
      exact .inr ⟨e, w, he, hu, ends_hearAll he hc⟩
    · refine .inl (hs fun x hx v hv => hut ?_)
      rw [he] at hx
      cases List.mem_singleton.mp hx
      cases hu.symm.trans hv
      rfl

/-- A move of a pool concerns the call if its operation there ends, and else not at all. -/
theorem calls_onPool (now : Nat) {m : Pool.Move} (hc : c.find? t = some call)
    (hm : ∀ p, c.router.fleet.pools[i]? = some p → p.Accepts m)
    (hw : ∀ p w, c.router.fleet.pools[i]? = some p → p.Waits t w →
      call.stage.awaits? = some (i, w))
    (hb : ∀ w, m.begun? = some (t, w) → call.stage.awaits? = some (i, w)) :
    Spares t c (c.onPool now i m) ∨ ∃ p e w, c.router.fleet.pools[i]? = some p ∧
      Pool.endings (p.step now m).effects = [e] ∧ e.ended? = some (t, w) ∧
        call.stage.awaits? = some (i, w) ∧ Ends t call i e (c.onPool now i m) := by
  cases hp : c.router.fleet.pools[i]? with
  | none =>
      rw [onPool_of_none hp]
      exact .inl spares_refl
  | some p =>
      have hr := (hm p hp).course now
      rw [onPool_of_some hp]
      set c' : Client := { c with router := { c.router with fleet := { c.router.fleet with
        pools := c.router.fleet.pools.set i (p.step now m).state } } }
      have he : Pool.endings (p.step now m).effects = [] ∨ ∃ e u w,
          Pool.endings (p.step now m).effects = [e] ∧ e.ended? = some (u, w) := by
        rcases hr.endings with he | ⟨e, u, w, he, hu, -⟩
        · exact .inl he
        · exact .inr ⟨e, u, w, he, hu⟩
      rcases hearAll_course (c := c') (i := i) he hc with hs | ⟨e, w, he, hew, hends⟩
      · exact .inl (hs.of_find rfl)
      · refine .inr ⟨p, e, w, rfl, he, hew, ?_, hends⟩
        rcases hr.endings with hn | ⟨e', u, v, he', hu, -, hv⟩
        · rw [hn] at he
          cases he
        · cases List.singleton_inj.mp (he'.symm.trans he)
          cases hu.symm.trans hew
          exact hv.elim (hb w) (hw p w hp)

/-- With a reply the call gives its connection back. -/
theorem step_replied {link : Link} (hc : c.find? t = some call)
    (hs : call.stage = .running i link) (o : Except Fault Reply) (now : Nat) :
    c.step now (.replied t o) = (c.put t { call with stage := .returning i o }).onPool now i
      (.giveBack t link (isHealthy o)) := by
  simp [step, replied, hc, hs]

theorem Orderly.not_waits {config : Config.Cluster} {pools : List Pool} {past : List Event}
    (h : Orderly config pools c past) (hc : c.find? t = some call)
    (hs : call.stage.awaits? = none) (i : PoolId) (p : Pool) (w : Pool.Waiting)
    (hp : pools[i]? = some p) : ¬p.Waits t w := fun hw => by
  have ha := h.waits t call hc i p w hp hw
  rw [hs] at ha
  cases ha

/-! ## Stories -/

namespace Story

variable {config : Config.Cluster} {s s' : Story} {m : Move} {pm : Pool.Move} {p : Pool}

/-- The move is what the call waits for. -/
inductive Concerns (s : Story) (now : Nat) (t : Ticket) (call : Call) : Move → Prop
  | replied {i : PoolId} {link : Link} {o : Except Fault Reply} :
      call.stage = .running i link → Concerns s now t call (.replied t o)
  | woken : call.stage = .pausing → Concerns s now t call (.woken t)
  | ended {m : Move} {i : PoolId} {pm : Pool.Move} {p : Pool} {e : Pool.Effect} {w : Pool.Waiting} :
      s.client.poolMove? m = some (i, pm) → s.pools[i]? = some p →
      Pool.endings (p.step now pm).effects = [e] → e.ended? = some (t, w) →
      call.stage.awaits? = some (i, w) → Ends t call i e (s.client.step now m) →
      Concerns s now t call m

theorem not_waits_of_admits_call {key : Bytes} {request : Request} {attempts : Nat}
    (ha : s.Admits (.call t key request attempts)) (w : Pool.Waiting) (hp : s.pools[i]? = some p) :
    ¬p.Waits t w :=
  Pool.not_waits_of_waiting? (ha.2 p (List.mem_of_getElem? hp)) w

theorem concerns_attempt {call' : Call} (hk : s.Kept config) (hu : u ≠ t)
    (hc : s.client.find? t = some call)
    (hw : ∀ (i : PoolId) p w, s.pools[i]? = some p → ¬p.Waits u w)
    (hm : s.client.attempt? m = some (u, call'))
    (hp : s.client.poolMove? m =
      (s.client.router.route call'.key).toOption.map fun i => (i, .borrow u))
    (hs : s.client.step now m = s.client.attempt now u call') :
    Spares t s.client (s.client.step now m) ∨ s.Concerns now t call m := by
  rw [hs]
  unfold Client.attempt
  split
  · exact .inl ((settles_settle ..).spares hu)
  · rename_i i hr
    have hput : (s.client.put u { call' with stage := .borrowing i }).find? t = s.client.find? t :=
      find?_put_of_ne (Ne.symm hu)
    have hcalls := calls_onPool now (c := s.client.put u { call' with stage := .borrowing i })
      (i := i) (m := .borrow u) (hput.trans hc)
      (fun p hp => Pool.waiting?_eq_none_of_not_waits fun w => hw i p w hp)
      (fun p w hp => hk.tracked.orderly.waits t call hc i p w hp)
      (fun w hb => by
        cases hb
        exact absurd rfl hu)
    rcases hcalls with h | ⟨p, e, w, hi, he, hew, haw, hends⟩
    · exact .inl (h.of_find hput)
    · have hpm : s.client.poolMove? m = some (i, .borrow u) := by
        rw [hp, hr]
        rfl
      refine .inr (.ended hpm hi he hew haw ?_)
      rw [hs, Client.attempt, hr]
      exact hends

theorem concerns_replied {o : Except Fault Reply} (hk : s.Kept config)
    (ha : s.Admits (.replied u o)) (hc : s.client.find? t = some call) :
    Spares t s.client (s.client.step now (.replied u o)) ∨
      s.Concerns now t call (.replied u o) := by
  have ho := hk.tracked.orderly
  cases hcu : s.client.find? u with
  | none =>
      rw [step, replied, hcu]
      exact .inl spares_refl
  | some call' =>
      cases hs : call'.stage with
      | running i link =>
          by_cases hu : u = t
          · subst hu
            cases hcu.symm.trans hc
            exact .inr (.replied hs)
          have hx := step_replied hcu hs o now
          have hput : (s.client.put u { call' with stage := .returning i o }).find? t =
              s.client.find? t := find?_put_of_ne (Ne.symm hu)
          have hn := ho.not_waits hcu (by rw [hs]; rfl)
          have hcalls := calls_onPool now (i := i) (m := .giveBack u link (isHealthy o))
            (hput.trans hc)
            (fun p hp => ⟨Pool.waiting?_eq_none_of_not_waits fun w => hn i p w hp,
              ha call' i link hcu hs p hp⟩)
            (fun p w hp => ho.waits t call hc i p w hp)
            (fun w hb => by
              cases hb
              exact absurd rfl hu)
          rw [hx]
          rcases hcalls with h | ⟨p, e, w, hi, he, hew, haw, hends⟩
          · exact .inl (h.of_find hput)
          · exact .inr (.ended (by simp [poolMove?, hcu, hs]) hi he hew haw (hx ▸ hends))
      | _ =>
          rw [step, replied, hcu]
          dsimp only
          rw [hs]
          exact .inl spares_refl

theorem concerns_woken (hk : s.Kept config) (hc : s.client.find? t = some call) :
    Spares t s.client (s.client.step now (.woken u)) ∨ s.Concerns now t call (.woken u) := by
  cases hcu : s.client.find? u with
  | none =>
      rw [step, woken, hcu]
      exact .inl spares_refl
  | some call' =>
      cases hs : call'.stage with
      | pausing =>
          by_cases hu : u = t
          · subst hu
            cases hcu.symm.trans hc
            exact .inr (.woken hs)
          · have hm : s.client.attempt? (.woken u) = some (u, call') := by
              simp only [attempt?, hcu, hs]
            apply concerns_attempt hk hu hc (hk.tracked.orderly.not_waits hcu (by rw [hs]; rfl)) hm
            · simp only [poolMove?, hm, Option.bind_some]
            · simp only [step, woken, hcu, hs]
      | _ =>
          rw [step, woken, hcu]
          dsimp only
          rw [hs]
          exact .inl spares_refl

/-- A move that is not what the call waits for leaves the call as it is. -/
theorem Kept.spares_or_concerns (hk : s.Kept config) (ha : s.Admits m)
    (hc : s.client.find? t = some call) (now : Nat) :
    Spares t s.client (s.client.step now m) ∨ s.Concerns now t call m := by
  cases m with
  | call u key request attempts =>
      have hu : u ≠ t := by
        rintro rfl
        cases ha.1.symm.trans hc
      exact concerns_attempt hk hu hc (fun i p w hp => not_waits_of_admits_call ha w hp) rfl rfl rfl
  | replied u o => exact concerns_replied hk ha hc
  | woken u => exact concerns_woken hk hc
  | pool i pm =>
      have hcalls := calls_onPool now (i := i) (m := pm) hc
        (fun p hp => (ha.2 p hp).accepts)
        (fun p w hp => hk.tracked.orderly.waits t call hc i p w hp)
        (fun w hb => by cases (ha.1 t w hb).symm.trans hc)
      rcases hcalls with h | ⟨p, e, w, hi, he, hew, haw, hends⟩
      · exact .inl h
      · exact .inr (.ended rfl hi he hew haw hends)
  | refresh u => exact .inl (spares_of_plain Router.plain_refresh)
  | resume u => exact .inl (spares_of_plain Router.plain_resume)
  | probed u i j role => exact .inl (spares_of_plain Router.plain_onRound)
  | brokeOff u i reason => exact .inl (spares_of_plain Router.plain_onRound)
  | abandonRefresh u => exact .inl (spares_of_plain Router.plain_abandon)
  | shutdown => exact .inl spares_shutdown

/-! ### The past of a call -/

theorem call?_ofEffect {f : Fleet} {e : Effect} : (Event.ofEffect f e).call? = e.call? := by
  unfold Event.ofEffect
  split
  · rfl
  · rfl

theorem call?_arrivals {e : Event} (h : e ∈ s.arrivals m) : e.call? = none := by
  unfold arrivals arrived at h
  split at h
  · cases h
  · split at h
    · cases h
    · obtain ⟨x, -, rfl⟩ := List.mem_map.mp h
      rfl

theorem attempt?_woken {v : Ticket} (h : s.client.attempt? (.woken v) = some (t, call)) :
    v = t ∧ s.client.find? t = some call ∧ call.stage = .pausing := by
  simp only [attempt?] at h
  split at h
  · split at h
    · cases h
      exact ⟨rfl, ‹_›, ‹_›⟩
    · cases h
  · cases h

/-- Only the end of its pause makes a call in progress begin an attempt. -/
theorem ne_of_attempt? {call' : Call} (ha : s.Admits m) (hc : s.client.find? t = some call)
    (hs : call.stage = .pausing → m ≠ .woken t) (hm : s.client.attempt? m = some (u, call')) :
    u ≠ t := by
  rintro rfl
  cases m with
  | call u key request attempts =>
      cases hm
      cases ha.1.symm.trans hc
  | woken v =>
      obtain ⟨rfl, hf, hp⟩ := attempt?_woken hm
      cases hf.symm.trans hc
      exact hs hp rfl
  | _ => cases hm

theorem call?_beginnings {e : Event} (ha : s.Admits m) (hc : s.client.find? t = some call)
    (hs : call.stage = .pausing → m ≠ .woken t) (he : e ∈ s.beginnings m) : e.call? ≠ some t := by
  unfold beginnings at he
  cases hm : s.client.attempt? m with
  | none => simp [hm] at he
  | some x =>
      obtain ⟨u, call'⟩ := x
      have he : e = .begun u call'.key call'.request s.client.router.current := by
        simpa [hm] using he
      subst he
      simpa [Event.call?] using ne_of_attempt? ha hc hs hm

/-- What comes before the effects of a move is no news for a call in progress. -/
theorem call?_before {e : Event} (ha : s.Admits m) (hc : s.client.find? t = some call)
    (hs : call.stage = .pausing → m ≠ .woken t) (he : e ∈ s.beginnings m ++ s.arrivals m) :
    e.call? ≠ some t := by
  rcases List.mem_append.mp he with he | he
  · exact call?_beginnings ha hc hs he
  · simp [call?_arrivals he]

theorem call?_news (ha : s.Admits m) (hc : s.client.find? t = some call)
    (hs : call.stage = .pausing → m ≠ .woken t) (h : Spares t s.client (s.client.step now m))
    {e : Event} (he : e ∈ s.news now m) : e.call? ≠ some t := by
  rcases List.mem_append.mp he with he | he
  · exact call?_before ha hc hs he
  · obtain ⟨x, hx, rfl⟩ := List.mem_map.mp he
    rw [call?_ofEffect]
    exact h.untold x hx

end Story

end Client

end Shardway
