import Shardway.Proofs.Pool.Story

/-!
# Operations that nobody disturbs

What happens to a pool while one operation is in progress and no other one makes a move: the answers
to what that operation waits for, and nothing else. What every such answer keeps holds all along.
-/

namespace Shardway.Pool

/-- The move answers what the operation under the ticket waits for: its time in the queue is over,
or there is an answer to a ping or to a call. -/
def Answers (p : Pool) (t : Ticket) : Move → Prop
  | .expire u => u = t ∧ find? t p.borrows = some .queued
  | .pinged u _ => u = t ∧ ∃ link, p.hand? t = some (.holds link)
  | .connected u _ => u = t ∧ p.hand? t = some .dialing
  | _ => False

variable {p : Pool} {t : Ticket} {m : Move}

theorem Answers.cases (h : p.Answers t m) :
    (m = .expire t ∧ find? t p.borrows = some .queued) ∨
      (∃ alive link, m = .pinged t alive ∧ p.hand? t = some (.holds link)) ∨
        ∃ result, m = .connected t result ∧ p.hand? t = some .dialing := by
  cases m with
  | expire u =>
      obtain ⟨rfl, hq⟩ := h
      exact .inl ⟨rfl, hq⟩
  | pinged u alive =>
      obtain ⟨rfl, link, hl⟩ := h
      exact .inr (.inl ⟨alive, link, rfl, hl⟩)
  | connected u result =>
      obtain ⟨rfl, hd⟩ := h
      exact .inr (.inr ⟨result, rfl, hd⟩)
  | _ => exact h.elim

/-- What a borrower waits for tells how it can be answered. -/
theorem Answers.of_borrower {s : BorrowStage} (h : p.Answers t m)
    (hs : find? t p.borrows = some s) :
    s = .queued ∧ m = .expire t ∨ (∃ link alive, s = .pinging link ∧ m = .pinged t alive) ∨
      s = .connecting ∧ ∃ result, m = .connected t result := by
  have hh : p.hand? t = s.hand? := by simp [hand?, waiting?, hs]
  rcases h.cases with ⟨rfl, hq⟩ | ⟨alive, link, rfl, hl⟩ | ⟨result, rfl, hd⟩
  · exact .inl ⟨Option.some.inj (hs.symm.trans hq), rfl⟩
  · rw [hh] at hl
    cases s with
    | pinging k => exact .inr (.inl ⟨k, alive, rfl, rfl⟩)
    | _ => cases hl
  · rw [hh] at hd
    cases s with
    | connecting => exact .inr (.inr ⟨rfl, result, rfl⟩)
    | _ => cases hd

theorem not_answers_of_waiting?_eq_none (h : p.waiting? t = none) : ¬p.Answers t m := fun ha => by
  have hh : p.hand? t = none := by simp [hand?, h]
  rcases ha.cases with ⟨-, hq⟩ | ⟨alive, link, -, hl⟩ | ⟨result, -, hd⟩
  · cases (waiting?_eq_none.mp h).1.symm.trans hq
  · cases hh.symm.trans hl
  · cases hh.symm.trans hd

instance (x : Option Hand) : Decidable (∃ link, x = some (.holds link)) :=
  match x with
  | some (.holds link) => isTrue ⟨link, rfl⟩
  | none | some .empty | some .dialing | some (.lent _) => isFalse fun ⟨_, h⟩ => nomatch h

instance (p : Pool) (t : Ticket) : (m : Move) → Decidable (p.Answers t m)
  | .expire u => inferInstanceAs (Decidable (u = t ∧ find? t p.borrows = some .queued))
  | .pinged u _ => inferInstanceAs (Decidable (u = t ∧ ∃ link, p.hand? t = some (.holds link)))
  | .connected u _ => inferInstanceAs (Decidable (u = t ∧ p.hand? t = some .dialing))
  | .borrow _ | .takeUp _ | .abandon _ | .giveBack .. | .letGo _ | .sweep _ | .shutdown =>
    inferInstanceAs (Decidable False)

namespace Story

variable {s : Story} {ms : List (Nat × Move)}

/-- The moves are answers to what the operation waits for, one after the other. -/
def Undisturbed (t : Ticket) (s : Story) : List (Nat × Move) → Prop
  | [] => True
  | (now, m) :: ms =>
    s.now ≤ now ∧ s.Admits m ∧ s.pool.Answers t m ∧ (s.next now m).Undisturbed t ms

instance decidableUndisturbed (t : Ticket) (s : Story) :
    (ms : List (Nat × Move)) → Decidable (s.Undisturbed t ms)
  | [] => inferInstanceAs (Decidable True)
  | (now, m) :: ms =>
    have := decidableUndisturbed t (s.next now m) ms
    inferInstanceAs
      (Decidable (s.now ≤ now ∧ s.Admits m ∧ s.pool.Answers t m ∧ (s.next now m).Undisturbed t ms))

/-- While an operation waits for an answer, there is one that it can be given. -/
theorem exists_admits_of_answers (h : s.pool.Answers t m) :
    ∃ m, s.Admits m ∧ s.pool.Answers t m := by
  rcases h.cases with ⟨rfl, -⟩ | ⟨alive, -, rfl, -⟩ | ⟨-, -, hd⟩
  · exact ⟨.expire t, ⟨trivial, by simp [inputs]⟩, h⟩
  · exact ⟨.pinged t alive, ⟨trivial, by simp [openings_inputs_pinged]⟩, h⟩
  · refine ⟨.connected t (.error .shutdown), ⟨trivial, ?_⟩, rfl, hd⟩
    simp [inputs, hd, Event.opened?]

/-- What each answer keeps of the answers, the events and the pool so far holds in the end. -/
theorem Undisturbed.keeps {P : List (Nat × Move) → List Event → Pool → Prop}
    (hstep : ∀ ms es now m (s : Story), P ms es s.pool → s.pool.Answers t m →
      P (ms ++ [(now, m)]) (es ++ s.news now m) (s.next now m).pool)
    (before : List (Nat × Move)) {es : List Event} (hs : P before es s.pool)
    (h : s.Undisturbed t ms) :
    ∃ es', (s.play ms).past = s.past ++ es' ∧ P (before ++ ms) (es ++ es') (s.play ms).pool := by
  induction ms generalizing s before es with
  | nil => exact ⟨[], by simp [play], by simpa [play] using hs⟩
  | cons x ms ih =>
      obtain ⟨now, m⟩ := x
      obtain ⟨-, -, ha, hr⟩ := h
      obtain ⟨es', he, hp⟩ := ih (before ++ [(now, m)]) (hstep before es now m s hs ha) hr
      refine ⟨s.news now m ++ es', he.trans (List.append_assoc ..), ?_⟩
      rw [List.append_assoc, List.append_assoc] at hp
      exact hp

end Story

end Shardway.Pool
