import Shardway.Proofs.Client.Delivery
import Shardway.Proofs.Pool.Spent

/-!
# Connections that broke under a client

A request is sent at the moment at which its connection is lent, so what holds of lending a
connection holds of sending over it.
-/

namespace Shardway.Client

open Router (Plain)

/-- The call has a request under way over the connection. -/
def IsRunning (c : Client) (t : Ticket) (i : PoolId) (link : Link) : Prop :=
  ∃ call, c.find? t = some call ∧ call.stage = .running i link

/-- Every request is sent over a connection that was lent to its call just before. -/
def Prompt (past : List Event) : Prop :=
  ∀ before after t i link request, past = before ++ .told (.send t i link request) :: after →
    ∃ before', before = before' ++ [.told (.pool i (.lent t link))]

/-- What calls do: they send over connections that are lent to them, and over no other ones. -/
structure Sends (c : Client) (r : Reaction) : Prop where
  prompt : ∀ f, Prompt (r.effects.map (Event.ofEffect f))
  running : ∀ t i link, r.state.IsRunning t i link →
    c.IsRunning t i link ∨ .pool i (.lent t link) ∈ r.effects

variable {config : Config.Cluster} {c c' : Client} {t : Ticket} {i : PoolId} {link : Link}
  {now : Nat} {past es es' : List Event} {r : Reaction}

theorem Prompt.append (h : Prompt es) (h' : Prompt es') : Prompt (es ++ es') := by
  intro before after t i link request hs
  rcases Pool.split_of_append hs with ⟨after', hs'⟩ | ⟨before', rfl, hs'⟩
  · exact h before after' t i link request hs'
  · obtain ⟨l, rfl⟩ := h' before' after t i link request hs'
    exact ⟨es ++ l, (List.append_assoc ..).symm⟩

theorem prompt_of_notMem (h : ∀ t i link request, .told (.send t i link request) ∉ es) :
    Prompt es := by
  intro before after t i link request hs
  exact absurd (hs ▸ List.mem_append_right _ List.mem_cons_self) (h t i link request)

theorem prompt_ofEffect {f : Fleet} {es : List Effect}
    (h : ∀ t i link request, .send t i link request ∉ es) :
    Prompt (es.map (Event.ofEffect f)) := by
  refine prompt_of_notMem fun t i link request hm => ?_
  obtain ⟨e, he, heq⟩ := List.mem_map.mp hm
  unfold Event.ofEffect at heq
  split at heq
  · cases heq
  · cases heq
    exact h t i link request he

theorem prompt_send {request : Request} :
    Prompt [.told (.pool i (.lent t link)), .told (.send t i link request)] := by
  intro before after u j k request hs
  match before with
  | [] => cases hs
  | [e] =>
      cases hs
      exact ⟨[], rfl⟩
  | e :: e' :: before => simp at hs

/-! ## What calls do -/

theorem Sends.of_calls {es : List Effect} (hc : ∀ t, c'.find? t = c.find? t)
    (h : ∀ t i link request, .send t i link request ∉ es) : Sends c ⟨c', es⟩ where
  prompt := fun f => prompt_ofEffect h
  running := fun t i link hr => by
    obtain ⟨call, hf, hs⟩ := hr
    exact .inl ⟨call, hc t ▸ hf, hs⟩

theorem Sends.andThen {g : Client → Reaction} (h : Sends c r) (hg : Sends r.state (g r.state)) :
    Sends c (r.andThen g) where
  prompt := fun f => by
    rw [Reaction.andThen_effects, List.map_append]
    exact (h.prompt f).append (hg.prompt f)
  running := fun t i link hr => by
    rcases hg.running t i link hr with hr | hm
    · exact (h.running t i link hr).imp_right (List.mem_append_left _)
    · exact .inr (List.mem_append_right _ hm)

theorem Sends.of_find (h : Sends c' r) (hc : ∀ t i link, c'.IsRunning t i link →
    c.IsRunning t i link) : Sends c r :=
  { h with running := fun t i link hr => (h.running t i link hr).imp_left (hc t i link) }

theorem isRunning_of_put {call : Call} {u : Ticket} {j : PoolId}
    (hs : ∀ i link, call.stage ≠ .running i link) (h : (c.put u call).IsRunning t j link) :
    c.IsRunning t j link := by
  obtain ⟨call', hf, hr⟩ := h
  by_cases hu : t = u
  · subst hu
    cases find?_put.symm.trans hf
    exact absurd hr (hs j link)
  · exact ⟨call', find?_put_of_ne hu ▸ hf, hr⟩

theorem Settles.sends (h : Settles t c r) : Sends c r where
  prompt := fun f => by
    refine prompt_ofEffect fun u i link request hm => ?_
    rcases h.effects _ hm with ⟨n, hn⟩ | ⟨s, hs⟩ | ⟨o, ho⟩
    · cases hn
    · cases hs
    · cases ho
  running := fun u i link hr => by
    obtain ⟨call, hf, hs⟩ := hr
    by_cases hu : u = t
    · subst hu
      rcases h.own with hn | ⟨call', hf', hp⟩
      · cases hn.symm.trans hf
      · cases hf'.symm.trans hf
        cases hs.symm.trans hp
    · exact .inl ⟨call, h.others u hu ▸ hf, hs⟩

theorem sends_hear (i : PoolId) (e : Pool.Effect) (c : Client) :
    Sends c ⟨(c.hear i e).state, .pool i e :: (c.hear i e).effects⟩ := by
  have hq : Sends c ⟨c, [.pool i e]⟩ := .of_calls (fun _ => rfl) (by simp)
  cases he : e.ended? with
  | none => rwa [hear_of_not_ended he]
  | some x =>
      obtain ⟨t, w⟩ := x
      have hh := hears_hear (i := i) (c := c) he
      generalize c.hear i e = r at hh
      cases hh with
      | ignores => exact hq
      | settles _ hs => exact hq.andThen (g := fun _ => r) hs.sends
      | @sends link call hc =>
          refine ⟨fun f => prompt_send, fun u j k hr => ?_⟩
          obtain ⟨call', hf, hs⟩ := hr
          by_cases hu : u = t
          · subst hu
            cases find?_put.symm.trans hf
            cases hs
            exact .inr List.mem_cons_self
          · exact .inl ⟨call', find?_put_of_ne hu ▸ hf, hs⟩

theorem sends_hearAll {es : List Effect} (h : ∀ t i link request, .send t i link request ∉ es)
    (c : Client) : Sends c (hearAll es c) := by
  induction es generalizing c with
  | nil => exact .of_calls (fun _ => rfl) (by simp)
  | cons e es ih =>
      have ih := ih fun t i link request hm => h t i link request (List.mem_cons_of_mem _ hm)
      unfold hearAll
      refine Sends.andThen ?_ (ih _)
      cases e with
      | pool i e => exact sends_hear i e c
      | _ =>
          refine .of_calls (fun _ => rfl) fun t i link request hm => ?_
          exact h t i link request (List.mem_singleton.mp hm ▸ List.mem_cons_self)

theorem sends_onRouter {g : Router → Router.Reaction}
    (h : ∀ t i link request, .send t i link request ∉ (g c.router).effects) :
    Sends c (c.onRouter g) :=
  (sends_hearAll h { c with router := (g c.router).state }).of_find fun _ _ _ hr => hr

theorem sends_of_plain {g : Router → Router.Reaction} (h : Plain (g c.router).effects) :
    Sends c (c.onRouter g) :=
  sends_onRouter fun _ _ _ _ hm => h _ hm

theorem sends_onPool {m : Pool.Move} : Sends c (c.onPool now i m) := by
  refine sends_onRouter fun t j link request hm => ?_
  unfold Router.stepPool Fleet.step at hm
  split at hm <;> simp at hm

theorem sends_attempt {call : Call} : Sends c (c.attempt now t call) := by
  unfold attempt
  split
  · exact (settles_settle ..).sends
  · exact sends_onPool.of_find fun _ _ _ => isRunning_of_put (by simp)

theorem sends_shutdown : Sends c (c.onRouter (Router.shutdown now)) := by
  refine sends_onRouter fun t i link request hm => ?_
  unfold Router.shutdown at hm
  split at hm
  · cases hm
  · rcases List.mem_append.mp hm with hm | hm
    · simp only [Reaction.lift_effects, List.map_id_fun, id_eq] at hm
      obtain ⟨i, x, hx⟩ := Router.mem_shutdownEach hm
      cases hx
    · cases List.mem_singleton.mp hm

theorem sends_step (m : Move) : Sends c (c.step now m) := by
  have hi : Sends c ⟨c, []⟩ := .of_calls (fun _ => rfl) (by simp)
  cases m with
  | call t key request attempts => exact sends_attempt
  | woken t =>
      simp only [step, woken]
      split
      · split
        · exact sends_attempt
        · exact hi
      · exact hi
  | replied t outcome =>
      simp only [step, replied]
      split
      · split
        · exact sends_onPool.of_find fun _ _ _ => isRunning_of_put (by simp)
        · exact hi
      · exact hi
  | pool i m => exact sends_onPool
  | refresh t => exact sends_of_plain Router.plain_refresh
  | resume t => exact sends_of_plain Router.plain_resume
  | probed t i j role => exact sends_of_plain Router.plain_onRound
  | brokeOff t i reason => exact sends_of_plain Router.plain_onRound
  | abandonRefresh t => exact sends_of_plain Router.plain_abandon
  | shutdown => exact sends_shutdown

/-! ## Stories -/

/-- The connection is lent or pinged, or a request is sent over it. -/
def Event.Uses (i : PoolId) (link : Link) (e : Event) : Prop :=
  (∃ x, e.ofPool? i = some x ∧ x.used? = some link) ∨
    ∃ t request, e = .told (.send t i link request)

namespace Story

variable {s s' : Story} {m : Move}

theorem Runs.prompt (h : Runs config s) : Prompt s.past ∧
    ∀ t i link, s.client.IsRunning t i link → .told (.pool i (.lent t link)) ∈ s.past := by
  induction h with
  | launch _ _ _ _ =>
      refine ⟨prompt_of_notMem (by simp), fun t i link hr => ?_⟩
      obtain ⟨call, hf, -⟩ := hr
      cases hf
  | @next s now m _ _ _ ih =>
      have hs : Sends s.client (s.client.step now m) := sends_step m
      have hb : Prompt (s.beginnings m) := by
        refine prompt_of_notMem fun t i link request hm => ?_
        unfold beginnings at hm
        cases ha : s.client.attempt? m <;> simp [ha] at hm
      have ha : Prompt (s.arrivals m) := by
        refine prompt_of_notMem fun t i link request hm => ?_
        unfold arrivals arrived at hm
        split at hm
        · cases hm
        · split at hm <;> simp at hm
      refine ⟨ih.1.append ((hb.append ha).append (hs.prompt _)), fun t i link hr => ?_⟩
      rcases hs.running t i link hr with hr | hm
      · exact List.mem_append_left _ (ih.2 t i link hr)
      · exact List.mem_append_right _ (List.mem_append_right _
          (List.mem_map.mpr ⟨_, hm, rfl⟩))

theorem mem_poolPast {x : Pool.Event} {e : Event} (h : e ∈ past) (hx : e.ofPool? i = some x) :
    x ∈ poolPast i past :=
  List.mem_filterMap.mpr ⟨e, h, hx⟩

/-- The pool of a call that has a request under way is there. -/
theorem Runs.exists_pool (h : Runs config s) (hr : s.client.IsRunning t i link) :
    ∃ p, s.pools[i]? = some p := by
  have hm : .told (.lent t link) ∈ poolPast i s.past :=
    mem_poolPast (h.prompt.2 t i link hr) (by simp [Event.ofPool?])
  cases hp : s.pools[i]? with
  | some p => exact ⟨p, rfl⟩
  | none =>
      rw [h.kept.tracked.sound.unborn i hp] at hm
      cases hm

/-- After a connection was closed, none of its events is a use. -/
theorem Runs.not_uses (h : Runs config s) {before after : List Event} {e : Event}
    (hs : s.past = before ++ e :: after) (hc : .told (.pool i (.close link)) ∈ before) :
    ¬e.Uses i link := by
  have hp (before after : List Event) (e : Event) (x : Pool.Event)
      (hs : s.past = before ++ e :: after) (hc : .told (.pool i (.close link)) ∈ before)
      (hx : e.ofPool? i = some x) : x.used? ≠ some link := by
    have hd : poolPast i s.past = poolPast i before ++ x :: poolPast i after := by
      rw [hs, poolPast_append, poolPast, poolPast, poolPast, List.filterMap_cons, hx]
    have hc : .told (.close link) ∈ poolPast i before := mem_poolPast hc (by simp [Event.ofPool?])
    cases hq : s.pools[i]? with
    | none =>
        rw [h.kept.tracked.sound.unborn i hq] at hd
        simp at hd
    | some p =>
        obtain ⟨node, tuning, k, -, hl⟩ := h.kept.tracked.sound.lived i p hq
        have hsp : Pool.Spent (poolPast i s.past) := hl.spent
        exact (hd ▸ hsp).not_used hc
  rintro (⟨x, hx, hu⟩ | ⟨t, request, rfl⟩)
  · exact hp before after e x hs hc hx hu
  · -- The request was sent when the connection was lent, which it was not after it was closed.
    obtain ⟨l, rfl⟩ := h.prompt.1 before after t i link request hs
    have hl : s.past = l ++ .told (.pool i (.lent t link)) ::
        .told (.send t i link request) :: after := by simpa using hs
    have hc : .told (.pool i (.close link)) ∈ l := by simpa using hc
    exact hp l _ _ (.told (.lent t link)) hl hc (by simp [Event.ofPool?]) rfl

/-- The move tells that a connection broke: the request under way over it fails with a fault of the
connection, or its pool is told that it is not to be used any more. -/
inductive Breaks (s : Story) : Move → PoolId → Link → Prop
  | fault {t : Ticket} {i : PoolId} {link : Link} {f : Fault} :
      s.client.IsRunning t i link → f.isConnectionFault = true →
      Breaks s (.replied t (.error f)) i link
  | pool {i : PoolId} {p : Pool} {m : Pool.Move} {link : Link} :
      s.pools[i]? = some p → p.Condemns m link → Breaks s (.pool i m) i link

theorem exists_effects_onPool {p : Pool} {m : Pool.Move} (now : Nat)
    (hp : c.router.fleet.pools[i]? = some p) (hm : p.Condemns m link) :
    ∃ es, (c.onPool now i m).effects = .pool i (.close link) :: es := by
  obtain ⟨es, he⟩ := Pool.close_of_condemns hm now
  rw [onPool_of_some hp, he]
  exact ⟨_, rfl⟩

theorem not_uses_arrived {pools : List Pool} {m : Pool.Move} {e : Event}
    (he : e ∈ arrived pools i m) : ¬e.Uses i link := by
  unfold arrived at he
  split at he
  · cases he
  · obtain ⟨x, hx, rfl⟩ := List.mem_map.mp he
    rintro (⟨y, hy, hu⟩ | ⟨t, request, hs⟩)
    · simp only [Event.ofPool?, if_true, Option.some.injEq] at hy
      cases (hy ▸ Pool.used?_inputs hx).symm.trans hu
    · cases hs

/-- The connection is closed first of all. -/
theorem Breaks.news (hb : s.Breaks m i link) (h : Runs config s) (now : Nat) :
    ∃ pre post, s.news now m = pre ++ .told (.pool i (.close link)) :: post ∧
      ∀ e ∈ pre, ¬e.Uses i link := by
  cases hb with
  | @fault t i link f hr hf =>
      -- The call gives its connection back as unhealthy.
      obtain ⟨p, hp⟩ := h.exists_pool hr
      obtain ⟨call, hc, hs⟩ := hr
      have hh : isHealthy (.error f) = false := by simp [isHealthy, hf]
      have hm : p.Condemns (.giveBack t link false) link := .unhealthy
      obtain ⟨es, he⟩ := exists_effects_onPool now
        (c := s.client.put t { call with stage := .returning i (.error f) }) hp hm
      refine ⟨arrived s.pools i (.giveBack t link false),
        es.map (Event.ofEffect s.client.router.fleet), ?_, fun e => not_uses_arrived⟩
      have hx : s.client.step now (.replied t (.error f)) =
          (s.client.put t { call with stage := .returning i (.error f) }).onPool now i
            (.giveBack t link false) := by simp [step, replied, hc, hs, hh]
      simp [Story.news, beginnings, arrivals, attempt?, poolMove?, hc, hs, hh, hx, he,
        Event.ofEffect]
  | @pool i p m link hp hm =>
      obtain ⟨es, he⟩ := exists_effects_onPool now (c := s.client) hp hm
      refine ⟨arrived s.pools i m, es.map (Event.ofEffect s.client.router.fleet), ?_,
        fun e => not_uses_arrived⟩
      simp [Story.news, beginnings, arrivals, attempt?, poolMove?, step, he, Event.ofEffect]

/-- A connection that broke is closed at once, whatever else its pool is doing, and from then on it
is neither lent nor pinged, no request is sent over it, and it is nowhere in the pool. -/
theorem broken_never_used (h : Runs config s) (hn : s.now ≤ now) (ha : s.Admits m)
    (hb : s.Breaks m i link) (hl : Leads (s.next now m) s') :
    .told (.pool i (.close link)) ∈ s.news now m ∧
      (∃ es, s'.past = s.past ++ es ∧ ∀ e ∈ es, ¬e.Uses i link) ∧
      ∀ p, s'.pools[i]? = some p → link ∉ p.links := by
  have h' : Runs config s' := (h.next hn ha).leads hl
  obtain ⟨pre, post, hd, hpre⟩ := hb.news h now
  obtain ⟨es, he⟩ := hl.exists_past_eq
  have hp : s'.past = (s.past ++ pre) ++ .told (.pool i (.close link)) :: (post ++ es) := by
    rw [he, Story.next, hd]
    simp
  have hc : .told (.pool i (.close link)) ∈ s'.past := by simp [hp]
  refine ⟨by simp [hd], ⟨s.news now m ++ es, by simp [he, Story.next], fun e hm => ?_⟩,
    fun p hi hm => ?_⟩
  · rw [hd] at hm
    have hm : e ∈ pre ∨ e = .told (.pool i (.close link)) ∨ e ∈ post ++ es := by
      simpa [or_assoc] using hm
    rcases hm with hm | rfl | hm
    · exact hpre e hm
    · simp [Event.Uses, Event.ofPool?, Pool.Event.used?]
    · obtain ⟨l, l', hs⟩ := List.append_of_mem hm
      have hx : s'.past = (s.past ++ pre ++ .told (.pool i (.close link)) :: l) ++ e :: l' := by
        rw [hp, hs]
        simp
      exact h'.not_uses hx (by simp)
  · have hk := h'.kept.tracked.sound.kept hi
    have hc : .told (.close link) ∈ poolPast i s'.past := mem_poolPast hc (by simp [Event.ofPool?])
    exact ((Pool.mem_links hk.sound hk.fresh).mp hm).2 hc

theorem soloSent_replied (r : Router) (now : Nat) :
    (soloSent r).next now (.replied 0 (.error (.timeout "slow"))) =
      soloAt r [(1, .borrow 0), (1, .connected 0 (.ok 7)), (now, .giveBack 0 7 false)] [] now
        ((soloSent r).past ++ [.came 0 (.giveBack 0 7 false) (.back 7), .told (.pool 0 (.close 7)),
          .told (.pool 0 (.returned 0)), .told (.answered 0 (.error (.timeout "slow")))]) := rfl

/-- The node does not answer the request in time. For the next borrower a connection is opened. -/
theorem broken_never_used_solo :
    ∃ s s' : Story, Runs solo s ∧ .told (.send 0 0 7 [[71]]) ∈ s.past ∧
      s.Breaks (.replied 0 (.error (.timeout "slow"))) 0 7 ∧
      .dialed 0 1 (some ⟨"a", 7000⟩) ∈ s'.past ∧
      (∃ es, s'.past = s.past ++ es ∧ ∀ e ∈ es, ¬e.Uses 0 7) ∧
      ∀ p, s'.pools[0]? = some p → 7 ∉ p.links := by
  obtain ⟨r, -, h⟩ := exists_soloSent
  have hb : (soloSent r).Breaks (.replied 0 (.error (.timeout "slow"))) 0 7 :=
    .fault ⟨_, rfl, rfl⟩ rfl
  have ha : (soloSent r).Admits (.replied 0 (.error (.timeout "slow"))) := by
    intro call i link hf hs p hp
    cases hf
    cases hs
    cases hp
    exact List.mem_cons_self
  have hl : Leads ((soloSent r).next 2 (.replied 0 (.error (.timeout "slow"))))
      (((soloSent r).next 2 (.replied 0 (.error (.timeout "slow")))).next 3
        (.pool 0 (.borrow 1))) := by
    refine .next .refl (Nat.le_succ 2) ?_
    rw [soloSent_replied]
    refine ⟨fun t w _ => rfl, fun p hp => ⟨?_, fun link hl => ?_⟩⟩
    · cases hp
      rfl
    · cases hl
  obtain ⟨-, he, hp⟩ := broken_never_used h (Nat.le_succ 1) ha hb hl
  refine ⟨soloSent r, _, h, ?_, hb, ?_, he, hp⟩
  · simp [soloSent, soloAt]
  · rw [soloSent_replied]
    exact List.mem_append_right _ List.mem_cons_self

end Story

end Shardway.Client
