import Shardway.Proofs.Client.Visits

/-!
# What is seen of a call

A call is told of its attempts, its pauses and its end, and its pool may refuse an attempt. A call
in progress that hears nothing of a move is not refused by it.
-/

namespace Shardway.Client

variable {c : Client} {t u : Ticket} {i : PoolId} {now : Nat} {call : Call}
  {o : Except Fault Reply} {es es' : List Event} {e : Pool.Effect} {m : Move} {pm : Pool.Move}
  {p : Pool}

/-! ## What is told of a call -/

/-- What a call is seen to do, apart from sending requests. -/
inductive Mark
  | begun (index : Index)
  | paused (span : Span)
  | answered (outcome : Except Fault Reply)

def mark? (t : Ticket) : Event → Option Mark
  | .begun u _ _ index => if u = t then some (.begun index) else none
  | .told (.pause u span) => if u = t then some (.paused span) else none
  | .told (.answered u o) => if u = t then some (.answered o) else none
  | _ => none

def marks (t : Ticket) (es : List Event) : List Mark := es.filterMap (mark? t)

@[simp] theorem marks_append : marks t (es ++ es') = marks t es ++ marks t es' :=
  List.filterMap_append

theorem mark?_eq_none {e : Event} (h : e.call? ≠ some t) : mark? t e = none := by
  unfold mark?
  split
  · rw [if_neg fun hu => h (congrArg some hu)]
  · rw [if_neg fun hu => h (congrArg some hu)]
  · rw [if_neg fun hu => h (congrArg some hu)]
  · rfl

theorem mem_heard {e : Event} (h : e ∈ es) (ht : e.call? = some t) : e ∈ heard t es :=
  List.mem_filter.mpr ⟨h, decide_eq_true ht⟩

theorem marks_heard (t : Ticket) (es : List Event) : marks t (heard t es) = marks t es := by
  unfold marks heard
  rw [List.filterMap_filter]
  apply List.filterMap_congr
  intro e _
  by_cases h : e.call? = some t
  · simp [h]
  · simp [h, mark?_eq_none h]

theorem marks_append_of_heard {hs : List Event} (h : heard t es' = hs) :
    marks t (es ++ es') = marks t es ++ marks t hs := by
  rw [marks_append, ← marks_heard t es', h]

theorem marks_append_of_quiet (h : heard t es' = []) : marks t (es ++ es') = marks t es :=
  (marks_append_of_heard h).trans (List.append_nil _)

/-- An attempt of the call begins. -/
def isBegun (t : Ticket) : Event → Bool
  | .begun u .. => u = t
  | _ => false

/-- How many attempts of a call have begun. -/
def attempts (t : Ticket) (es : List Event) : Nat := es.countP (isBegun t)

theorem isBegun_eq_false {e : Event} (h : e.call? ≠ some t) : isBegun t e = false := by
  cases e with
  | begun u key request index => simpa [isBegun, Event.call?] using h
  | _ => rfl

theorem attempts_append : attempts t (es ++ es') = attempts t es + attempts t es' :=
  List.countP_append

theorem attempts_heard : attempts t (heard t es) = attempts t es := by
  unfold attempts heard
  rw [List.countP_filter]
  apply List.countP_congr
  intro e _
  by_cases h : e.call? = some t
  · simp [h]
  · simp [h, isBegun_eq_false h]

/-- A pool does not serve an attempt of the call. -/
def refusal? (t : Ticket) : Effect → Option (Except Fault Reply)
  | .pool _ (.failed u f) => if u = t then some (.error f) else none
  | _ => none

def refusals (t : Ticket) (es : List Effect) : List (Except Fault Reply) :=
  es.filterMap (refusal? t)

/-! ## Refusals -/

theorem refusals_append (l l' : List Effect) :
    refusals t (l ++ l') = refusals t l ++ refusals t l' :=
  List.filterMap_append

theorem refusals_eq_nil {l : List Effect} (h : ∀ i f, .pool i (.failed t f) ∉ l) :
    refusals t l = [] := by
  apply List.filterMap_eq_nil_iff.mpr
  intro e he
  cases e with
  | pool i e =>
      cases e with
      | failed u f =>
          apply if_neg
          rintro rfl
          exact h i f he
      | _ => rfl
  | _ => rfl

theorem refusals_settle : refusals t (c.settle u call o).effects = [] := by
  apply refusals_eq_nil
  intro i f hm
  rcases (settles_settle u call o c).effects _ hm with ⟨n, h⟩ | ⟨s, h⟩ | ⟨o, h⟩ <;> cases h

theorem refusals_hear : refusals t (c.hear i e).effects = [] := by
  cases he : e.ended? with
  | none =>
      rw [hear_of_not_ended he]
      rfl
  | some x =>
      have hh := hears_hear (i := i) (c := c) he
      generalize c.hear i e = r at hh
      apply refusals_eq_nil
      intro j f hm
      cases hh with
      | ignores => cases hm
      | sends hc =>
          cases List.mem_singleton.mp hm
      | settles hc hs =>
          rcases hs.effects _ hm with ⟨n, h⟩ | ⟨s, h⟩ | ⟨o, h⟩ <;> cases h

/-- What is heard adds no refusals to those that are told. -/
theorem refusals_hearAll (l : List Effect) (c : Client) :
    refusals t (hearAll l c).effects = refusals t l := by
  induction l generalizing c with
  | nil => rfl
  | cons e l ih =>
      have hone (r : Reaction) (hr : refusals t r.effects = []) :
          refusals t ((⟨r.state, e :: r.effects⟩ : Reaction).andThen (hearAll l)).effects =
            refusals t (e :: l) := by
        have hes : e :: r.effects ++ (hearAll l r.state).effects =
            [e] ++ (r.effects ++ (hearAll l r.state).effects) := rfl
        rw [Reaction.andThen_effects, hes, refusals_append, refusals_append, hr, ih]
        exact (refusals_append [e] l).symm
      unfold hearAll
      cases e with
      | pool i e => exact hone _ refusals_hear
      | _ => exact hone _ rfl

/-- The call hears how its attempt ended. -/
theorem exists_told_settle (c : Client) (t : Ticket) (call : Call) (o : Except Fault Reply) :
    ∃ x ∈ (c.settle t call o).effects, x.call? = some t := by
  unfold settle
  split
  · exact ⟨_, List.mem_singleton_self _, rfl⟩
  · split
    · exact ⟨_, List.mem_singleton_self _, rfl⟩
    · exact ⟨_, List.mem_cons_of_mem _ (List.mem_singleton_self _), rfl⟩

theorem find?_put_ne_none (hc : c.find? t ≠ none) : (c.put u call).find? t ≠ none := by
  by_cases hu : t = u
  · subst hu
    simp
  · rwa [find?_put_of_ne hu]

/-- A call stays in progress as long as it hears nothing. -/
theorem find?_hear_of_untold (hc : c.find? t ≠ none)
    (h : ∀ x ∈ (c.hear i e).effects, x.call? ≠ some t) : (c.hear i e).state.find? t ≠ none := by
  have hsettle {u : Ticket} {call : Call} {o : Except Fault Reply}
      (h : ∀ x ∈ (c.settle u call o).effects, x.call? ≠ some t) :
      (c.settle u call o).state.find? t ≠ none := by
    have hu : t ≠ u := by
      rintro rfl
      obtain ⟨x, hx, ht⟩ := exists_told_settle c t call o
      exact h x hx ht
    rwa [(settles_settle u call o c).others t hu]
  cases e with
  | lent u link =>
      simp only [hear]
      cases c.find? u with
      | some call => exact find?_put_ne_none hc
      | none => exact hc
  | failed u f =>
      simp only [hear] at h ⊢
      cases hu : c.find? u with
      | some call =>
          rw [hu] at h
          exact hsettle h
      | none => exact hc
  | returned u =>
      simp only [hear] at h ⊢
      cases hu : c.find? u with
      | some call =>
          rw [hu] at h
          cases hs : call.stage with
          | returning j o =>
              simp only [hs] at h ⊢
              exact hsettle h
          | _ =>
              simp only [hs]
              exact hc
      | none => exact hc
  | _ => exact hc

/-- A call in progress that hears nothing has not been refused. -/
theorem refusals_of_untold {l : List Effect} (hc : c.find? t ≠ none)
    (h : ∀ x ∈ (hearAll l c).effects, x.call? ≠ some t) : refusals t l = [] := by
  induction l generalizing c with
  | nil => rfl
  | cons e l ih =>
      rw [show e :: l = [e] ++ l from rfl, refusals_append]
      cases e with
      | pool i e =>
          have hrest : ∀ x ∈ (hearAll l (c.hear i e).state).effects, x.call? ≠ some t :=
            fun x hx => h x (List.mem_append_right _ hx)
          have hhead : ∀ x ∈ (c.hear i e).effects, x.call? ≠ some t :=
            fun x hx => h x (List.mem_append_left _ (List.mem_cons_of_mem _ hx))
          rw [ih (find?_hear_of_untold hc hhead) hrest, List.append_nil]
          apply refusals_eq_nil
          intro j f hm
          cases List.mem_singleton.mp hm
          obtain ⟨call, hcall⟩ := Option.ne_none_iff_exists'.mp hc
          obtain ⟨x, hx, ht⟩ := exists_told_settle c t call (.error f)
          simp only [hear, hcall] at hhead
          exact hhead x hx ht
      | _ =>
          rw [ih hc fun x hx => h x (List.mem_cons_of_mem _ hx)]
          rfl

theorem refusals_onRouter {g : Router → Router.Reaction} (hc : c.find? t ≠ none)
    (h : ∀ x ∈ (c.onRouter g).effects, x.call? ≠ some t) :
    refusals t (c.onRouter g).effects = [] := by
  have hr : refusals t (g c.router).effects = [] :=
    refusals_of_untold (c := { c with router := (g c.router).state }) hc h
  exact (refusals_hearAll _ _).trans hr

/-- Of all that a move of a pool tells, only the end of the operation can be a refusal. -/
theorem refusals_onPool (hp : c.router.fleet.pools[i]? = some p)
    (he : Pool.endings (p.step now pm).effects = [e]) :
    refusals t (c.onPool now i pm).effects = refusals t [.pool i e] := by
  rw [onPool_of_some hp, refusals_hearAll]
  obtain ⟨pre, post, hes, hpre, -, hpost⟩ := List.filter_eq_cons_iff.mp he
  have hquiet {l : List Pool.Effect} (h : ∀ x ∈ l, ¬x.ended?.isSome = true) :
      refusals t (l.map (.pool i)) = [] := by
    apply refusals_eq_nil
    intro j f hm
    obtain ⟨x, hx, heq⟩ := List.mem_map.mp hm
    cases heq
    exact h _ hx rfl
  rw [hes, List.map_append, List.map_cons, refusals_append, hquiet hpre, List.nil_append,
    ← List.singleton_append, refusals_append, hquiet (List.filter_eq_nil_iff.mp hpost),
    List.append_nil]

theorem refusals_attempt (hc : c.find? t ≠ none)
    (h : ∀ x ∈ (c.attempt now u call).effects, x.call? ≠ some t) :
    refusals t (c.attempt now u call).effects = [] := by
  unfold attempt at h ⊢
  split
  · exact refusals_settle
  · rename_i i hr
    rw [hr] at h
    exact refusals_onRouter (find?_put_ne_none hc) h

/-- A call in progress that hears nothing of a move is not refused by it. -/
theorem refusals_step (hc : c.find? t ≠ none) (h : ∀ x ∈ (c.step now m).effects, x.call? ≠ some t) :
    refusals t (c.step now m).effects = [] := by
  cases m with
  | call u key request attempts => exact refusals_attempt hc h
  | replied u o =>
      simp only [step, replied] at h ⊢
      cases hu : c.find? u with
      | none => rfl
      | some call =>
          rw [hu] at h
          cases hs : call.stage with
          | running i link =>
              simp only [hs] at h ⊢
              exact refusals_onRouter (find?_put_ne_none hc) h
          | _ =>
              simp only [hs]
              rfl
  | woken u =>
      simp only [step, woken] at h ⊢
      cases hu : c.find? u with
      | none => rfl
      | some call =>
          rw [hu] at h
          cases hs : call.stage with
          | pausing =>
              simp only [hs] at h ⊢
              exact refusals_attempt hc h
          | _ =>
              simp only [hs]
              rfl
  | _ => exact refusals_onRouter hc h

theorem refusals_of_attempt?
    (hpm : c.poolMove? m = (c.router.route call.key).toOption.map fun i => (i, .borrow u))
    (hstep : c.step now m = c.attempt now u call) (h : c.poolMove? m = some (i, pm))
    (hp : c.router.fleet.pools[i]? = some p) (he : Pool.endings (p.step now pm).effects = [e]) :
    refusals t (c.step now m).effects = refusals t [.pool i e] := by
  rw [hpm] at h
  obtain ⟨j, hj, heq⟩ := Option.map_eq_some_iff.mp h
  cases heq
  cases hr : c.router.route call.key with
  | error g =>
      rw [hr] at hj
      cases hj
  | ok k =>
      rw [hr] at hj
      cases hj
      rw [hstep, attempt, hr]
      exact refusals_onPool (c := c.put u { call with stage := .borrowing i }) hp he

/-- A pool that ends an operation with a move refuses nothing else. -/
theorem refusals_of_poolMove? (hm : c.poolMove? m = some (i, pm))
    (hp : c.router.fleet.pools[i]? = some p) (he : Pool.endings (p.step now pm).effects = [e]) :
    refusals t (c.step now m).effects = refusals t [.pool i e] := by
  cases m with
  | call u key request attempts => exact refusals_of_attempt? rfl rfl hm hp he
  | replied u o =>
      cases hu : c.find? u with
      | none => simp [poolMove?, hu] at hm
      | some call =>
          cases hs : call.stage with
          | running j link =>
              have hj : (j, Pool.Move.giveBack u link (isHealthy o)) = (i, pm) := by
                simpa [poolMove?, hu, hs] using hm
              cases hj
              rw [step_replied hu hs]
              exact refusals_onPool (c := c.put u { call with stage := .returning i o }) hp he
          | _ => simp [poolMove?, hu, hs] at hm
  | woken u =>
      cases ha : c.attempt? (.woken u) with
      | none => simp [poolMove?, ha] at hm
      | some x =>
          obtain ⟨v, call⟩ := x
          obtain ⟨rfl, hf, hs⟩ := Story.attempt?_woken (s := ⟨c, 0, []⟩) ha
          have hpm : c.poolMove? (.woken u) =
              (c.router.route call.key).toOption.map fun i => (i, .borrow u) := by
            simp [poolMove?, ha]
          have hstep : c.step now (.woken u) = c.attempt now u call := by
            simp [step, woken, hf, hs]
          exact refusals_of_attempt? hpm hstep hm hp he
  | pool j pm' =>
      cases hm
      exact refusals_onPool hp he
  | _ => simp [poolMove?, attempt?] at hm

end Shardway.Client
