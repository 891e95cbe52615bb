import Shardway.Proofs.Pool.Story

/-!
# Borrowers in the queue

A permit that comes free goes to the borrower that has waited longest. So as long as a pool is open
and a permit is free, nobody is in the queue.
-/

namespace Shardway.Pool

/-- While a permit of an open pool is free, no borrower waits for one. -/
def Served (p : Pool) : Prop := p.closed = false → 0 < p.free → ∀ x ∈ p.borrows, x.2 ≠ .queued

/-- No permit came free and no borrower joined the queue. -/
structure Frugal (p q : Pool) : Prop where
  closed : q.closed = p.closed
  free : q.free ≤ p.free
  queued : ∀ t, (t, .queued) ∈ q.borrows → (t, .queued) ∈ p.borrows

variable {p q : Pool} {t : Ticket} {link : Link} {now : Nat}

theorem grant?_eq_none {l : List (Ticket × BorrowStage)} :
    grant? l = none ↔ ∀ x ∈ l, x.2 ≠ .queued := by
  induction l with
  | nil => simp [grant?]
  | cons x l ih =>
      obtain ⟨t, s⟩ := x
      cases s <;> simp [grant?, ih]

theorem Served.frugal (h : p.Served) (hq : Frugal p q) : q.Served := by
  intro hc hf x hx hs
  have hx : (x.1, .queued) ∈ q.borrows := hs ▸ hx
  exact h (hq.closed ▸ hc) (hf.trans_le hq.free) _ (hq.queued _ hx) rfl

theorem Frugal.trans {q' : Pool} (h : Frugal p q) (h' : Frugal q q') : Frugal p q' :=
  ⟨h'.closed.trans h.closed, h'.free.trans h.free, fun t ht => h.queued t (h'.queued t ht)⟩

theorem frugal_of_eq (hc : q.closed = p.closed) (hf : q.free ≤ p.free)
    (hb : q.borrows = p.borrows) : Frugal p q :=
  ⟨hc, hf, fun _ h => hb ▸ h⟩

theorem frugal_leave : Frugal p (p.leave t) :=
  ⟨rfl, le_rfl, fun _ h => (List.mem_filter.mp h).1⟩

theorem frugal_await {s : BorrowStage} (hs : s ≠ .queued) : Frugal p (p.await t s) := by
  refine ⟨rfl, le_rfl, fun u hu => ?_⟩
  rcases mem_putAt hu with hu | hu
  · exact absurd (Prod.mk.inj hu).2.symm hs
  · exact hu

theorem frugal_checkout : Frugal p (p.checkout t link).state :=
  frugal_leave.trans (frugal_of_eq rfl le_rfl rfl)

theorem frugal_lend : Frugal p (p.lend t).state := by
  unfold lend
  split
  · rename_i e q hq
    obtain ⟨i, -, rfl⟩ := takeIdle?_eq_some hq
    have hi : Frugal p (p.setIdle (p.idle.eraseIdx i)) := frugal_of_eq rfl le_rfl rfl
    split
    · exact hi.trans (frugal_await (by simp))
    · exact hi.trans frugal_checkout
  · exact frugal_await (by simp)

theorem frugal_discard : Frugal p (p.discard link).state := frugal_of_eq rfl le_rfl rfl

theorem frugal_reject : Frugal p (p.reject link).state := frugal_of_eq rfl le_rfl rfl

theorem frugal_turnAway {f : Fault} : Frugal p (p.turnAway t f).state :=
  frugal_leave.trans (frugal_of_eq rfl le_rfl rfl)

theorem frugal_park : Frugal p (p.park now link).state := by
  unfold park
  split
  · exact frugal_discard
  · exact frugal_of_eq rfl le_rfl rfl

theorem frugal_settle {e : Parked} {keep : Bool} {pass : Pass} :
    Frugal p (p.settle e keep pass).1.state := by
  obtain ⟨idle, metrics, hs⟩ := p.settle_state e keep pass
  exact hs ▸ frugal_of_eq rfl le_rfl rfl

theorem frugal_topUp {n : Nat} : Frugal p (p.topUp t n).state := by
  unfold topUp
  split
  · exact frugal_of_eq rfl (Nat.sub_le ..) rfl
  · exact frugal_of_eq rfl le_rfl rfl

/-- A permit only comes free when the queue is empty. -/
theorem Served.release (h : p.Served) : p.release.state.Served := by
  unfold Pool.release
  split
  · rename_i u borrows hg
    split at hg
    · cases hg
    · obtain ⟨l₁, l₂, hb, rfl⟩ := grant?_eq_some hg
      refine h.frugal ⟨rfl, le_rfl, fun v hv => ?_⟩
      rw [hb]
      rcases List.mem_append.mp hv with hv | hv
      · exact List.mem_append_left _ hv
      · have hv : (v, BorrowStage.queued) ∈ l₂ := by simpa using hv
        exact List.mem_append_right _ (List.mem_cons_of_mem _ hv)
  · rename_i hg
    intro hc _
    have hc : p.closed = false := hc
    rw [if_neg (by simp [hc])] at hg
    exact grant?_eq_none.mp hg

/-- With nobody in the queue, one more permit is free after one is given back. -/
theorem release_of_no_queued (hc : p.closed = false) (hq : ∀ x ∈ p.borrows, x.2 ≠ .queued) :
    p.release = ⟨{ p with free := p.free + 1 }, []⟩ := by
  simp [release, hc, grant?_eq_none.mpr hq]

/-! ## Moves -/

theorem Served.borrow (h : p.Served) : (p.borrow t).state.Served := by
  unfold Pool.borrow
  split
  · exact h
  split
  · have ha : Frugal p p.acquire := frugal_of_eq rfl (Nat.sub_le ..) rfl
    exact h.frugal (ha.trans frugal_lend)
  rename_i hf
  split
  · exact h.frugal frugal_turnAway
  · exact fun _ hf' => absurd hf' hf

theorem Served.takeUp (h : p.Served) : (p.takeUp t).state.Served := by
  unfold Pool.takeUp
  split
  · split
    · exact h.frugal frugal_leave
    · exact h
  · split
    · exact (h.frugal frugal_leave).release
    · exact h.frugal frugal_lend
  · exact h

theorem Served.expire (h : p.Served) : (p.expire t).state.Served := by
  unfold Pool.expire
  split
  · split
    · exact h.frugal frugal_leave
    · exact h.frugal frugal_turnAway
  · exact h

theorem Served.borrowPinged {alive : Bool} (h : p.Served) :
    (p.borrowPinged t alive).state.Served := by
  unfold Pool.borrowPinged
  split
  · split
    · exact h.frugal frugal_checkout
    · exact h.frugal (frugal_reject.trans frugal_lend)
  · exact h

theorem Served.borrowConnected {result : Except Fault Link} (h : p.Served) :
    (p.borrowConnected t result).state.Served := by
  unfold Pool.borrowConnected
  split
  · split
    · have hc : Frugal p p.countCreated := frugal_of_eq rfl le_rfl rfl
      exact h.frugal (hc.trans frugal_checkout)
    · simp only [Reaction.andThen_state]
      exact (h.frugal frugal_turnAway).release
  · exact h

theorem Served.abandon (h : p.Served) : (p.abandon t).state.Served := by
  unfold Pool.abandon
  split
  · exact h.frugal frugal_leave
  · exact (h.frugal frugal_leave).release
  · exact (h.frugal frugal_leave).release
  · exact h

theorem Served.endReturn (h : p.Served) : (p.endReturn t).state.Served := by
  have hr : Frugal p { p with returns := without t p.returns } := frugal_of_eq rfl le_rfl rfl
  exact (h.frugal hr).release

theorem Served.giveBack {healthy : Bool} (h : p.Served) :
    (p.giveBack now t link healthy).state.Served := by
  have hb : (p.takeBack link).Served := h.frugal (frugal_of_eq rfl le_rfl rfl)
  simp only [Pool.giveBack]
  split
  · simp only [Reaction.andThen_state]
    exact (hb.frugal frugal_discard).endReturn
  split
  · exact hb.frugal (frugal_of_eq rfl le_rfl rfl)
  · simp only [Reaction.andThen_state]
    exact (hb.frugal frugal_park).endReturn

theorem Served.returnPinged {alive : Bool} (h : p.Served) :
    (p.returnPinged now t alive).state.Served := by
  unfold Pool.returnPinged
  split
  · split
    · simp only [Reaction.andThen_state]
      exact (h.frugal frugal_park).endReturn
    · simp only [Reaction.andThen_state]
      exact (h.frugal frugal_reject).endReturn
  · exact h

theorem Served.letGo (h : p.Served) : (p.letGo link).state.Served := by
  have hb : Frugal p (p.takeBack link) := frugal_of_eq rfl le_rfl rfl
  simp only [Pool.letGo, Reaction.andThen_state]
  exact (h.frugal (hb.trans frugal_discard)).release

theorem Served.endExamination {pass : Pass} (h : p.Served) :
    (p.endExamination t pass).state.Served := by
  refine h.frugal (Frugal.trans ?_ frugal_topUp)
  exact frugal_of_eq rfl le_rfl rfl

theorem Served.examine {left : Nat} {pass : Pass} (h : p.Served) :
    (p.examine now t left pass).state.Served := by
  induction left generalizing p pass with
  | zero => exact h.endExamination
  | succ left ih =>
      unfold Pool.examine
      split
      · exact h.endExamination
      split
      · exact h.endExamination
      dsimp only
      split
      · exact h.frugal (frugal_of_eq rfl (Nat.sub_le ..) rfl)
      · refine ih (Served.release (h.frugal (Frugal.trans ?_ frugal_settle)))
        exact frugal_of_eq rfl (Nat.sub_le ..) rfl

theorem Served.sweep (h : p.Served) : (p.sweep now t).state.Served := by
  unfold Pool.sweep
  split
  · exact h.frugal (frugal_of_eq rfl le_rfl rfl)
  · exact h.examine

theorem Served.sweepPinged {alive : Bool} (h : p.Served) :
    (p.sweepPinged now t alive).state.Served := by
  unfold Pool.sweepPinged
  split
  · refine Served.examine (Served.release (h.frugal (Frugal.trans ?_ frugal_settle)))
    split <;> exact frugal_of_eq rfl le_rfl rfl
  · exact h

theorem Served.sweepConnected {result : Except Fault Link} (h : p.Served) :
    (p.sweepConnected now t result).state.Served := by
  unfold Pool.sweepConnected
  split
  · split
    · have hc : Frugal p p.countCreated := frugal_of_eq rfl le_rfl rfl
      simp only [Reaction.andThen_state]
      exact (h.frugal (hc.trans frugal_park)).release.frugal frugal_topUp
    · simp only [Reaction.andThen_state]
      exact h.release.frugal (frugal_of_eq rfl le_rfl rfl)
  · exact h

theorem Served.step {m : Move} (h : p.Served) : (p.step now m).state.Served := by
  cases m with
  | borrow t => exact h.borrow
  | takeUp t => exact h.takeUp
  | expire t => exact h.expire
  | abandon t => exact h.abandon
  | giveBack t link healthy => exact h.giveBack
  | letGo link => exact h.letGo
  | sweep t => exact h.sweep
  | pinged t alive =>
      simp only [Pool.step]
      split
      · exact h.borrowPinged
      · exact h.returnPinged
      · exact h.sweepPinged
      · exact h
  | connected t result =>
      simp only [Pool.step]
      split
      · exact h.borrowConnected
      · exact h.sweepConnected
      · exact h
  | shutdown =>
      simp only [Pool.step, Pool.shutdown]
      split
      · exact h
      · intro hc
        cases hc

theorem Story.Leads.served {node : Node} {tuning : Config.PoolTuning} {s : Story}
    (h : Leads (start node tuning) s) : s.pool.Served := by
  induction h with
  | refl =>
      intro _ _ x hx
      cases hx
  | next _ _ _ ih => exact ih.step

end Shardway.Pool
