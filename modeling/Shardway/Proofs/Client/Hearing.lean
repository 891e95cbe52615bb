import Shardway.Proofs.Client.Origins

/-!
# What calls make of what pools tell

A move of a pool ends one operation at most, so at most one call is concerned by it.
-/

namespace Shardway.Client

variable {c : Client} {i : PoolId} {t u : Ticket} {e : Pool.Effect} {es : List Pool.Effect}
  {f : Fleet}

/-! ## Calls by their tickets -/

@[simp] theorem find?_put {call : Call} : (c.put t call).find? t = some call := Pool.find?_putAt

@[simp] theorem find?_without : (c.without t).find? t = none := Pool.find?_without

theorem find?_put_of_ne {call : Call} (h : u ≠ t) : (c.put t call).find? u = c.find? u :=
  Pool.find?_putAt_of_ne h

theorem find?_without_of_ne (h : u ≠ t) : (c.without t).find? u = c.find? u :=
  Pool.find?_without_of_ne h

/-! ## One thing that is told -/

theorem hear_of_not_ended (h : e.ended? = none) : c.hear i e = ⟨c, []⟩ := by
  cases e <;> first | rfl | cases h

/-- The call has ended its attempt without sending anything. -/
structure Settles (t : Ticket) (c : Client) (r : Reaction) : Prop where
  router : r.state.router = c.router
  others : ∀ u, u ≠ t → r.state.find? u = c.find? u
  own : r.state.find? t = none ∨
    ∃ call, r.state.find? t = some call ∧ call.stage = .pausing
  effects : ∀ e ∈ r.effects, (∃ n, e = .notice n) ∨ (∃ s, e = .pause t s) ∨ ∃ o, e = .answered t o

theorem settles_settle (t : Ticket) (call : Call) (outcome : Except Fault Reply) (c : Client) :
    Settles t c (c.settle t call outcome) := by
  have ha (o : Except Fault Reply) : Settles t c ⟨c.without t, [.answered t o]⟩ :=
    ⟨rfl, fun u hu => find?_without_of_ne hu, .inl find?_without, by simp⟩
  unfold settle
  split
  · exact ha _
  · split
    · exact ha _
    · exact ⟨rfl, fun u hu => find?_put_of_ne hu, .inr ⟨_, find?_put, rfl⟩, by simp⟩

/-- What a call makes of the end of its operation on a pool. -/
inductive Hears (i : PoolId) (t : Ticket) (c : Client) : Pool.Effect → Reaction → Prop
  | ignores {e : Pool.Effect} : Hears i t c e ⟨c, []⟩
  | sends {link : Link} {call : Call} : c.find? t = some call →
      Hears i t c (.lent t link)
        ⟨c.put t { call with stage := .running i link }, [.send t i link call.request]⟩
  | settles {e : Pool.Effect} {call : Call} {r : Reaction} : c.find? t = some call → Settles t c r →
      Hears i t c e r

theorem hears_hear {w : Pool.Waiting} (h : e.ended? = some (t, w)) :
    Hears i t c e (c.hear i e) := by
  cases e with
  | lent u link =>
      cases h
      unfold hear
      dsimp only
      split
      · exact .sends ‹_›
      · exact .ignores
  | failed u f =>
      cases h
      unfold hear
      dsimp only
      split
      · exact .settles ‹_› (settles_settle ..)
      · exact .ignores
  | returned u =>
      cases h
      unfold hear
      dsimp only
      split
      · split
        · exact .settles ‹_› (settles_settle ..)
        · exact .ignores
      · exact .ignores
  | swept u n => exact .ignores
  | _ => cases h

/-! ## All that is told -/

theorem hearAll_append (es es' : List Effect) (c : Client) :
    hearAll (es ++ es') c = (hearAll es c).andThen (hearAll es') := by
  induction es generalizing c with
  | nil => rfl
  | cons e es ih => simp [hearAll, Reaction.andThen, ih]

theorem hearAll_of_not_ended {es : List Effect}
    (h : ∀ i e, .pool i e ∈ es → e.ended? = none) : hearAll es c = ⟨c, es⟩ := by
  induction es with
  | nil => rfl
  | cons e es ih =>
      have ih := ih fun i e he => h i e (List.mem_cons_of_mem _ he)
      cases e with
      | pool i e => simp [hearAll, Reaction.andThen, hear_of_not_ended (h i e List.mem_cons_self), ih]
      | _ => simp [hearAll, Reaction.andThen, ih]

theorem hearAll_of_endings_nil (h : Pool.endings es = []) :
    hearAll (es.map (.pool i)) c = ⟨c, es.map (.pool i)⟩ := by
  refine hearAll_of_not_ended fun j e he => ?_
  obtain ⟨e', he', heq⟩ := List.mem_map.mp he
  cases heq
  exact Pool.ended?_eq_none h he'

/-- Of all that is told only the end of the operation is heard. -/
theorem hearAll_of_endings_singleton (h : Pool.endings es = [e]) :
    ∃ pre post, es = pre ++ e :: post ∧ hearAll (es.map (.pool i)) c =
      ⟨(c.hear i e).state, pre.map (.pool i) ++
        .pool i e :: ((c.hear i e).effects ++ post.map (.pool i))⟩ := by
  obtain ⟨pre, post, rfl, hpre, -, hpost⟩ := List.filter_eq_cons_iff.mp h
  have hpre : Pool.endings pre = [] := List.filter_eq_nil_iff.mpr hpre
  refine ⟨pre, post, rfl, ?_⟩
  rw [List.map_append, List.map_cons, hearAll_append, hearAll_of_endings_nil hpre]
  simp [Reaction.andThen, hearAll, hearAll_of_endings_nil hpost]

/-! ## What is told, as events -/

theorem Settles.mute {r : Reaction} (h : Settles t c r) :
    Mute (r.effects.map (Event.ofEffect f)) := by
  intro x hx j
  obtain ⟨e, he, rfl⟩ := List.mem_map.mp hx
  rcases h.effects e he with ⟨n, rfl⟩ | ⟨s, rfl⟩ | ⟨o, rfl⟩ <;> rfl

theorem mute_hear (i : PoolId) (e : Pool.Effect) (c : Client) :
    Mute ((c.hear i e).effects.map (Event.ofEffect f)) := by
  cases he : e.ended? with
  | none => simp [hear_of_not_ended he, Mute]
  | some x =>
      obtain ⟨t, w⟩ := x
      have hh := hears_hear (i := i) (c := c) he
      generalize c.hear i e = r at hh
      cases hh with
      | ignores => simp [Mute]
      | sends _ => simp [Mute, Event.ofEffect, Event.ofPool?]
      | settles _ hr => exact hr.mute

theorem tells_hearAll {p : Pool} (hp : (f.pools[i]?).map Pool.addr = some p.addr)
    (es : List Pool.Effect) (c : Client) :
    Tells i p es ((hearAll (es.map (.pool i)) c).effects.map (Event.ofEffect f)) := by
  induction es generalizing c with
  | nil => exact Mute.tells (by simp [Mute, hearAll])
  | cons e es ih =>
      have hh := ((tells_ofEffect hp e).append (mute_hear (f := f) i e c).tells).append (ih (c.hear i e).state)
      simpa [hearAll, Reaction.andThen] using hh

end Shardway.Client
