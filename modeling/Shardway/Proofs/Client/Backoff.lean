import Shardway.Client.Retry
import Mathlib.Algebra.Group.Nat.Defs

/-!
# Runs of attempts

A run ends with the first attempt that succeeds or meets a fault that does not pass, or with the
last one allowed. It pauses after each attempt before that, each time twice as long.
-/

namespace Shardway.Retry

variable {α : Type} {outcome outcome' : Nat → Except Fault α} {limit j k l left : Nat}
  {pause : Span}

/-! ## The end of a run -/

/-- Another attempt would not help. -/
def isDecisive : Except Fault α → Bool
  | .ok _ => true
  | .error f => !f.isRetryable

theorem exists_eq_error {o : Except Fault α} (h : isDecisive o = false) :
    ∃ f, o = .error f ∧ f.isRetryable = true := by
  cases o with
  | ok a => cases h
  | error f => exact ⟨f, rfl, by simpa [isDecisive] using h⟩

/-- The attempt that a run ends with. The first one has number 0. -/
def decisive (outcome : Nat → Except Fault α) (limit : Nat) : Nat :=
  ((List.range limit).find? fun i => isDecisive (outcome i)).getD (limit - 1)

/-- Of the attempts, this one is the first to be decisive or the last. -/
structure EndsAt (outcome : Nat → Except Fault α) (limit k : Nat) : Prop where
  earlier : ∀ i < k, isDecisive (outcome i) = false
  within : k < limit
  last : isDecisive (outcome k) = true ∨ k + 1 = limit

theorem endsAt_decisive (outcome : Nat → Except Fault α) (h : 0 < limit) :
    EndsAt outcome limit (decisive outcome limit) := by
  unfold decisive
  cases hf : (List.range limit).find? fun i => isDecisive (outcome i) with
  | none =>
      have hall : ∀ i < limit, isDecisive (outcome i) = false := by
        simpa [List.find?_eq_none] using hf
      rw [Option.getD_none]
      exact ⟨fun i hi => hall i (by omega), by omega, .inr (by omega)⟩
  | some k =>
      obtain ⟨hk, hlt, hb⟩ := List.find?_range_eq_some.mp hf
      exact ⟨fun i hi => by simpa using hb i hi, List.mem_range.mp hlt, .inl hk⟩

theorem EndsAt.congr (h : EndsAt outcome limit k) (ho : ∀ i ≤ k, outcome' i = outcome i) :
    EndsAt outcome' limit k where
  earlier := fun i hi => by rw [ho i (Nat.le_of_lt hi), h.earlier i hi]
  within := h.within
  last := by
    rw [ho k (Nat.le_refl k)]
    exact h.last

/-! ## One attempt after the other -/

/-- The retry seen from one of its attempts. -/
def seenFrom (limit : Nat) (pause : Span) (i : Nat) : Retry := ⟨limit, i, ⟨pause.nanos * 2 ^ i⟩⟩

theorem next?_seenFrom (f : Fault) : (seenFrom limit pause j).next? f =
    if f.isRetryable = true ∧ j + 1 < limit then some (seenFrom limit pause (j + 1)) else none := by
  have hd : pause.nanos * 2 ^ j * 2 = pause.nanos * 2 ^ (j + 1) := by
    rw [Nat.pow_succ, Nat.mul_assoc]
  simp only [next?, seenFrom, hd]

/-- Each pause with the outcome it follows. -/
def Run.paused (r : Run α) : List (Retry × Except Fault α) :=
  r.pauses.map fun p => (p.1, .error p.2)

/-- From the attempt `j` on: the run pauses after each attempt up to the one it ends with. -/
theorem attempt_seenFrom (pause : Span) (h : EndsAt outcome limit k) (hj : j ≤ k)
    (hl : j + left + 1 = limit) :
    (attempt outcome (seenFrom limit pause j) left).result = outcome k ∧
      (attempt outcome (seenFrom limit pause j) left).paused =
        (List.range' j (k - j)).map fun i => (seenFrom limit pause i, outcome i) := by
  induction left generalizing j with
  | zero =>
      have hk := h.within
      obtain rfl : k = j := by omega
      simp [attempt, Run.paused, seenFrom]
  | succ left ih =>
      rcases Nat.lt_or_eq_of_le hj with hlt | rfl
      · obtain ⟨f, hf, hr⟩ := exists_eq_error (h.earlier j hlt)
        have hk := h.within
        have hn : (seenFrom limit pause j).next? f = some (seenFrom limit pause (j + 1)) := by
          rw [next?_seenFrom, if_pos ⟨hr, by omega⟩]
        have hm : outcome (seenFrom limit pause j).made = .error f := hf
        obtain ⟨hres, hp⟩ := ih hlt (by omega)
        have hrange : List.range' j (k - j) = j :: List.range' (j + 1) (k - (j + 1)) := by
          rw [show k - j = k - (j + 1) + 1 by omega, List.range'_succ]
        simp only [attempt, hm, hn]
        refine ⟨hres, ?_⟩
        rw [hrange, List.map_cons, hf, ← hp]
        rfl
      · have hd : isDecisive (outcome j) = true := h.last.resolve_right (by omega)
        have hstop : attempt outcome (seenFrom limit pause j) (left + 1) = ⟨outcome j, []⟩ := by
          have hm : outcome (seenFrom limit pause j).made = outcome j := rfl
          rw [attempt, hm]
          cases ho : outcome j with
          | ok a => rfl
          | error f =>
              have hf : ¬f.isRetryable = true := by
                rw [ho] at hd
                simpa [isDecisive] using hd
              simp only [next?_seenFrom, if_neg fun h : f.isRetryable = true ∧ _ => hf h.1]
        rw [hstop, Nat.sub_self]
        exact ⟨rfl, rfl⟩

/-- What a run of at most `limit` attempts comes to. -/
structure Exact (outcome : Nat → Except Fault α) (limit : Nat) (pause : Span) (k : Nat)
    (r : Run α) : Prop where
  /-- The outcome of the attempt it ends with is the result. -/
  result : r.result = outcome k
  /-- It pauses after each attempt before that, and after no other. -/
  paused : r.paused = (List.range k).map fun i => (seenFrom limit pause i, outcome i)

theorem EndsAt.exact (h : EndsAt outcome limit k) (pause : Span) :
    Exact outcome limit pause k (run outcome limit pause) := by
  cases limit with
  | zero => exact absurd h.within (Nat.not_lt_zero k)
  | succ n =>
      obtain ⟨hr, hp⟩ := attempt_seenFrom pause h (Nat.zero_le k) (Nat.zero_add (n + 1))
      have hfirst : seenFrom (n + 1) pause 0 = ⟨n + 1, 0, pause⟩ := by simp [seenFrom]
      rw [hfirst] at hr hp
      refine ⟨hr, ?_⟩
      rw [List.range_eq_range']
      exact hp

theorem Exact.eq {r r' : Run α} (h : Exact outcome limit pause k r)
    (h' : Exact outcome limit pause k r') : r = r' := by
  have hinj (p q : Retry × Fault)
      (h : (p.1, (.error p.2 : Except Fault α)) = (q.1, .error q.2)) : p = q := by
    cases p
    cases q
    cases h
    rfl
  obtain ⟨result, pauses⟩ := r
  obtain ⟨result', pauses'⟩ := r'
  obtain rfl : result = result' := h.result.trans h'.result.symm
  obtain rfl : pauses = pauses' := (List.map_inj_right hinj).mp (h.paused.trans h'.paused.symm)
  rfl

/-- What comes after the end of a run is never looked at. -/
theorem EndsAt.run_congr (h : EndsAt outcome limit k) (ho : ∀ i ≤ k, outcome' i = outcome i)
    (pause : Span) : run outcome' limit pause = run outcome limit pause := by
  have hc := (h.congr ho).exact pause
  have he : Exact outcome limit pause k (run outcome' limit pause) := by
    refine ⟨by rw [hc.result, ho k (Nat.le_refl k)], ?_⟩
    rw [hc.paused]
    apply List.map_congr_left
    intro i hi
    rw [ho i (Nat.le_of_lt (List.mem_range.mp hi))]
  exact he.eq (h.exact pause)

/-- The spans double, so none exceeds the one after the last attempt allowed. -/
theorem seenFrom_le (h : pause.nanos * 2 ^ (limit - 1) ≤ Span.longest.nanos) (hj : j < limit) :
    (seenFrom limit pause j).pause.nanos ≤ Span.longest.nanos :=
  Nat.le_trans (Nat.mul_le_mul_left _ (Nat.pow_le_pow_right Nat.two_pos (by omega))) h

end Shardway.Retry
