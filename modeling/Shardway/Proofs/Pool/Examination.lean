import Shardway.Proofs.Pool.Story

/-!
# What an eviction pass examines

Nothing outside a pool shows which connections a pass examines, and when. So beside the pass goes a
log of its examinations, read off the pools it runs through: `examined` picks where `examine` picks,
and a `Tour` is a pass from its beginning on, among moves of other operations.
-/

namespace Shardway.Pool

/-- An examination: the connection, when it was picked, and the connections that were idle then, it
included. -/
structure Exam where
  entry : Parked
  time : Nat
  idle : List Parked
  /-- Whether the connection answered its ping, once one is over. -/
  ping : Option Bool := none
deriving DecidableEq, Repr

/-- The connection leaves the examination, and the permit of the pass comes free. -/
def settled (e : Parked) (keep : Bool) (pass : Pass) (p : Pool) : Reaction × Pass :=
  ((p.settle e keep pass).1.andThen release, (p.settle e keep pass).2)

/-- The connection under examination has answered its ping, or has not. -/
def answered (t : Ticket) (alive : Bool) (e : Parked) (pass : Pass) (p : Pool) : Reaction × Pass :=
  (if alive then p.dropSweep t else (p.dropSweep t).countValidationFailure).settled e alive pass

/-- The pool with the connection at place `k` in the hand of the pass. -/
def takeOut (k : Nat) (p : Pool) : Pool := (p.setIdle (p.idle.eraseIdx k)).acquire

/-- The examinations that `examine` begins. -/
def examined (now : Nat) : (left : Nat) → Pass → Pool → List Exam
  | 0, _, _ => []
  | left + 1, pass, p =>
    if p.closed || p.free = 0 then []
    else
      match p.idle[pass.kept]? with
      | none => []
      | some e =>
        let stale := p.isStale now p.idle.length e
        let r := (p.takeOut pass.kept).settled e (!stale) pass
        { entry := e, time := now, idle := p.idle } ::
          if !stale && p.tuning.testWhileIdle then [] else examined now left r.2 r.1.state

/-- A run of `examine` with its log. -/
inductive Examines (now : Nat) (t : Ticket) : Nat → Pass → Pool → List Exam → Reaction → Prop
  | ends {left : Nat} {pass : Pass} {p : Pool} :
      left = 0 ∨ p.closed = true ∨ p.free = 0 ∨ p.idle[pass.kept]? = none →
      Examines now t left pass p [] (p.endExamination t pass)
  | ping {left : Nat} {pass : Pass} {p : Pool} {e : Parked} :
      p.closed = false → 0 < p.free → p.idle[pass.kept]? = some e →
      p.isStale now p.idle.length e = false → p.tuning.testWhileIdle = true →
      Examines now t (left + 1) pass p [{ entry := e, time := now, idle := p.idle }]
        ⟨(p.takeOut pass.kept).pause t (.pinging e left pass), [.ping t e.link]⟩
  | settle {left : Nat} {pass : Pass} {p : Pool} {e : Parked} {xs : List Exam} {r : Reaction} :
      p.closed = false → 0 < p.free → p.idle[pass.kept]? = some e →
      p.isStale now p.idle.length e = true ∨ p.tuning.testWhileIdle = false →
      Examines now t left ((p.takeOut pass.kept).settled e (!p.isStale now p.idle.length e) pass).2
        ((p.takeOut pass.kept).settled e (!p.isStale now p.idle.length e) pass).1.state xs r →
      Examines now t (left + 1) pass p ({ entry := e, time := now, idle := p.idle } :: xs)
        (((p.takeOut pass.kept).settled e (!p.isStale now p.idle.length e) pass).1.andThen
          fun _ => r)

variable {now : Nat} {t : Ticket} {p : Pool} {e : Parked} {left : Nat} {pass : Pass}

theorem examine_of_getElem? (hc : p.closed = false) (hf : 0 < p.free)
    (he : p.idle[pass.kept]? = some e) :
    p.examine now t (left + 1) pass =
      if !p.isStale now p.idle.length e && p.tuning.testWhileIdle then
        ⟨(p.takeOut pass.kept).pause t (.pinging e left pass), [.ping t e.link]⟩
      else
        let r := (p.takeOut pass.kept).settled e (!p.isStale now p.idle.length e) pass
        r.1.andThen (examine now t left r.2) := by
  have hf : p.free ≠ 0 := hf.ne'
  simp only [examine, hc, hf, he, decide_false, Bool.or_self, Bool.false_eq_true, if_false]
  rfl

theorem examine_of_ends
    (h : left = 0 ∨ p.closed = true ∨ p.free = 0 ∨ p.idle[pass.kept]? = none) :
    p.examine now t left pass = p.endExamination t pass := by
  cases left with
  | zero => rfl
  | succ left =>
      unfold examine
      rcases h with h | h | h | h
      · cases h
      · simp [h]
      · simp [h]
      · simp [h]

theorem examines (now : Nat) (t : Ticket) (left : Nat) (pass : Pass) (p : Pool) :
    Examines now t left pass p (examined now left pass p) (p.examine now t left pass) := by
  induction left generalizing pass p with
  | zero => exact .ends (.inl rfl)
  | succ left ih =>
      by_cases hg : p.closed = true ∨ p.free = 0 ∨ p.idle[pass.kept]? = none
      · have hx : examined now (left + 1) pass p = [] := by
          unfold examined
          rcases hg with h | h | h <;> simp [h]
        rw [hx, examine_of_ends (.inr hg)]
        exact .ends (.inr hg)
      · obtain ⟨hc, hf, he⟩ : p.closed = false ∧ 0 < p.free ∧ p.idle[pass.kept]? ≠ none := by
          simpa [Nat.pos_iff_ne_zero] using hg
        obtain ⟨e, he⟩ := Option.ne_none_iff_exists'.mp he
        rw [examine_of_getElem? hc hf he]
        simp only [examined, hc, hf.ne', he, decide_false, Bool.or_self, Bool.false_eq_true, if_false]
        split
        · rename_i h
          obtain ⟨hs, hw⟩ : p.isStale now p.idle.length e = false ∧ p.tuning.testWhileIdle = true := by
            simpa using h
          exact .ping hc hf he hs hw
        · rename_i h
          have hs : p.isStale now p.idle.length e = true ∨ p.tuning.testWhileIdle = false := by
            simpa [or_iff_not_imp_left] using h
          exact .settle hc hf he hs (ih _ _)

/-! ## After an examination -/

theorem settled_tuning {keep : Bool} : (p.settled e keep pass).1.state.tuning = p.tuning :=
  (release_tuning ..).trans (settle_tuning ..)

@[simp] theorem release_idle : p.release.state.idle = p.idle := by
  unfold release
  split <;> rfl

/-- The connection is back behind those that were kept before it, or gone. -/
theorem settled_idle {keep : Bool} :
    ((p.settled e keep pass).1.state.idle = p.idle ∧
        (p.settled e keep pass).2.kept = pass.kept) ∨
      (keep = true ∧ p.isFull = false ∧
        (p.settled e keep pass).1.state.idle =
          p.idle.insertIdx (min pass.kept p.idle.length) e ∧
        (p.settled e keep pass).2.kept = pass.kept + 1) := by
  simp only [settled, Reaction.andThen_state, release_idle]
  unfold settle
  split
  · rename_i q hq
    cases keep with
    | false => cases hq
    | true =>
        obtain ⟨hf, rfl⟩ := repark?_eq_some hq
        exact .inr ⟨rfl, hf, rfl, rfl⟩
  · exact .inl ⟨rfl, rfl⟩

theorem sweepPinged_eq {alive : Bool} (h : find? t p.sweeps = some (.pinging e left pass)) :
    p.sweepPinged now t alive =
      (p.answered t alive e pass).1.andThen
        (examine now t left (p.answered t alive e pass).2) := by
  unfold sweepPinged
  rw [h]
  rfl

/-! ## Logs -/

/-- `P` holds of each element and those before it. -/
def Each {α : Type} (P : List α → α → Prop) (xs : List α) : Prop :=
  ∀ before x after, xs = before ++ x :: after → P before x

section Each

variable {α : Type} {P : List α → α → Prop} {xs ys : List α} {x : α}

theorem each_nil : Each P [] := fun before x after h => by simp at h

theorem Each.of_append (h : Each P (xs ++ ys)) : Each P xs := by
  intro before x after hx
  exact h before x (after ++ ys) (by simp [hx])

theorem each_concat : Each P (xs ++ [x]) ↔ Each P xs ∧ P xs x := by
  constructor
  · intro h
    exact ⟨Each.of_append h, h xs x [] rfl⟩
  · rintro ⟨h, hx⟩ before y after hy
    rcases List.eq_nil_or_concat' after with rfl | ⟨after, z, rfl⟩
    · obtain ⟨hb, he⟩ := List.append_inj' hy rfl
      obtain rfl : x = y := List.singleton_inj.mp he
      rwa [← hb]
    · have hy : xs ++ [x] = (before ++ y :: after) ++ [z] := by simpa using hy
      exact h before y after (List.append_inj' hy rfl).1

end Each

/-! ## Passes -/

namespace Story

/-- The pass under ticket `t` that begins in `s`, and what happens until it is over: its log after
`n` answers. Other operations make their moves while it waits, as far as `Q` lets them. -/
inductive Tour (t : Ticket) (Q : Story → Nat → Move → Prop) (s : Story) :
    Nat → List Exam → Story → Prop
  | begins {now : Nat} : s.now ≤ now → s.Admits (.sweep t) →
      Tour t Q s 0 (examined now s.pool.tuning.testsPerEviction {} s.pool) (s.next now (.sweep t))
  | pinged {n : Nat} {xs : List Exam} {x : Exam} {s' : Story} {now left : Nat} {alive : Bool}
      {e : Parked} {pass : Pass} :
      Tour t Q s n (xs ++ [x]) s' → s'.now ≤ now → s'.pool.waiting? t = some .sweep →
      find? t s'.pool.sweeps = some (.pinging e left pass) →
      Tour t Q s (n + 1)
        (xs ++ { x with ping := some alive } ::
          examined now left (s'.pool.answered t alive e pass).2
            (s'.pool.answered t alive e pass).1.state)
        (s'.next now (.pinged t alive))
  | connected {n : Nat} {xs : List Exam} {s' : Story} {now closed : Nat}
      {result : Except Fault Link} :
      Tour t Q s n xs s' → s'.now ≤ now → s'.pool.waiting? t = some .sweep →
      find? t s'.pool.sweeps = some (.connecting closed) → s'.Admits (.connected t result) →
      Tour t Q s (n + 1) xs (s'.next now (.connected t result))
  | other {n : Nat} {xs : List Exam} {s' : Story} {now : Nat} {m : Move} :
      Tour t Q s n xs s' → s'.now ≤ now → s'.pool.waiting? t = some .sweep → s'.Admits m →
      (∀ alive, m ≠ .pinged t alive) → (∀ result, m ≠ .connected t result) → Q s' now m →
      Tour t Q s n xs (s'.next now m)

variable {Q : Story → Nat → Move → Prop} {s s' : Story} {n : Nat} {xs : List Exam}

theorem admits_pinged {alive : Bool} : s.Admits (.pinged t alive) := by
  refine ⟨trivial, fun link hl => ?_⟩
  rw [openings_inputs_pinged] at hl
  cases hl

theorem Tour.leads (h : Tour t Q s n xs s') : Leads s s' := by
  induction h with
  | begins hn ha => exact Leads.refl.next hn ha
  | pinged _ hn _ _ ih => exact ih.next hn admits_pinged
  | connected _ hn _ _ ha ih => exact ih.next hn ha
  | other _ hn _ ha _ _ _ ih => exact ih.next hn ha

end Story

end Shardway.Pool
