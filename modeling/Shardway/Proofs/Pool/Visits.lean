import Shardway.Proofs.Pool.Closing
import Shardway.Proofs.Pool.Waiting

/-!
# Visits to a pool

An operation borrows a connection and returns it, and nothing comes between its moves except the
closing of the pool. Every way out of the visit puts its permit back.
-/

namespace Shardway

/-- How many permits a borrower has. -/
def BorrowStage.permits : BorrowStage → Nat
  | .queued => 0
  | _ => 1

namespace Pool

/-- The pool `q` is what a visitor has made of `p`, which now has so many permits. A visitor that
has one found the pool open and the queue empty. -/
structure Short (p : Pool) (permits : Nat) (q : Pool) : Prop where
  tuning : q.tuning = p.tuning
  free : q.free + permits = p.free
  opened : permits ≠ 0 → p.closed = false
  queued : permits ≠ 0 → ∀ x ∈ q.borrows, x.2 ≠ .queued

/-- The move belongs to the visit, or closes the pool. -/
def Move.IsOf (t : Ticket) : Move → Prop
  | .takeUp u | .expire u | .giveBack u _ _ | .pinged u _ | .connected u _ => u = t
  | .shutdown => True
  | _ => False

variable {p q q' : Pool} {t : Ticket} {link : Link} {now n : Nat} {m : Move} {r : Reaction}
  {f : Fault} {s : BorrowStage}

theorem short_refl : Short p 0 p := ⟨rfl, rfl, fun h => absurd rfl h, fun h => absurd rfl h⟩

theorem Short.frugal (h : Short p n q) (hq : Frugal q q') (ht : q'.tuning = q.tuning)
    (hf : q'.free = q.free) : Short p n q' where
  tuning := ht.trans h.tuning
  free := hf ▸ h.free
  opened := h.opened
  queued := fun hn x hx hs => by
    have hm : (x.1, BorrowStage.queued) ∈ q'.borrows := hs ▸ hx
    exact h.queued hn _ (hq.queued _ hm) rfl

theorem Short.inUse_eq (h : Short p 0 q) : q.inUse = p.inUse := by
  have hf : q.free = p.free := h.free
  simp only [inUse, h.tuning, hf]

theorem short_acquire (hp : p.Served) (hc : p.closed = false) (hf : 0 < p.free) :
    Short p 1 p.acquire where
  tuning := rfl
  free := Nat.sub_add_cancel hf
  opened := fun _ => hc
  queued := fun _ => hp hc hf

/-- The permit of the visitor goes to nobody else. -/
theorem Short.release_eq (h : Short p 1 q) : q.release = ⟨{ q with free := q.free + 1 }, []⟩ := by
  have hg : grant? q.borrows = none := grant?_eq_none.mpr (h.queued Nat.one_ne_zero)
  simp [release, hg]

theorem Short.park (h : Short p n q) : Short p n (q.park now link).state := by
  apply h.frugal frugal_park quiet_park.tuning
  unfold Pool.park
  split <;> rfl

theorem Short.release (h : Short p 1 q) : Short p 0 q.release.state := by
  rw [h.release_eq]
  exact ⟨h.tuning, h.free, fun h => absurd rfl h, fun h => absurd rfl h⟩

theorem Short.shutdown (h : Short p n q) : Short p n q.shutdown.state := by
  unfold Pool.shutdown
  split
  · exact h
  · exact ⟨h.tuning, h.free, h.opened, h.queued⟩

theorem shutdown_returns : q.shutdown.state.returns = q.returns := by
  unfold shutdown
  split <;> rfl

/-! ## Borrowing -/

/-- What a move comes to for a borrower. -/
inductive Seeks (t : Ticket) (p : Pool) (r : Reaction) : Prop
  | waits {s : BorrowStage} : find? t r.state.borrows = some s → Short p s.permits r.state →
      endings r.effects = [] → Seeks t p r
  | lends {link : Link} : Short p 1 r.state → endings r.effects = [.lent t link] → Seeks t p r
  | fails {f : Fault} : Short p 0 r.state → endings r.effects = [.failed t f] → Seeks t p r

theorem Seeks.after {es : List Effect} (h : Seeks t p r) (he : endings es = []) :
    Seeks t p ⟨r.state, es ++ r.effects⟩ := by
  cases h with
  | waits hs hq hr => exact .waits hs hq (by rw [endings_append, he, hr]; rfl)
  | lends hq hr => exact .lends hq (by rw [endings_append, he, hr]; rfl)
  | fails hq hr => exact .fails hq (by rw [endings_append, he, hr]; rfl)

theorem seeks_checkout (h : Short p 1 q) : Seeks t p (q.checkout t link) :=
  .lends (h.frugal frugal_checkout rfl rfl) rfl

theorem seeks_await {e : Effect} (h : Short p 1 q) (hs : s.permits = 1) (he : e.ended? = none) :
    Seeks t p ⟨q.await t s, [e]⟩ := by
  have hq : s ≠ .queued := by
    rintro rfl
    cases hs
  apply Seeks.waits (s := s)
  · exact find?_putAt
  · rw [hs]
    exact h.frugal (frugal_await hq) rfl rfl
  · simp [he]

theorem seeks_lend (h : Short p 1 q) : Seeks t p (q.lend t) := by
  unfold lend
  split
  · rename_i e q' hq
    obtain ⟨i, -, rfl⟩ := takeIdle?_eq_some hq
    have h : Short p 1 (q.setIdle (q.idle.eraseIdx i)) := ⟨h.tuning, h.free, h.opened, h.queued⟩
    split
    · exact seeks_await h rfl rfl
    · exact seeks_checkout h
  · exact seeks_await h rfl rfl

theorem seeks_leave (h : Short p 0 q) : Seeks t p ⟨q.leave t, [.failed t f]⟩ :=
  .fails (h.frugal frugal_leave rfl rfl) rfl

theorem seeks_turnAway (h : Short p 0 q) : Seeks t p (q.turnAway t f) :=
  .fails (h.frugal frugal_turnAway rfl rfl) rfl

theorem seeks_borrow (hp : p.Served) : Seeks t p (p.borrow t) := by
  unfold borrow
  split
  · exact .fails short_refl rfl
  rename_i hc
  split
  · exact seeks_lend (short_acquire hp (Bool.eq_false_iff.mpr hc) ‹_›)
  split
  · exact seeks_turnAway short_refl
  · apply Seeks.waits (s := .queued)
    · exact find?_putAt
    · exact ⟨rfl, rfl, fun h => absurd rfl h, fun h => absurd rfl h⟩
    · rfl

/-- A move that a borrower does not wait for leaves it waiting. -/
theorem seeks_self (hs : find? t q.borrows = some s) (h : Short p s.permits q) :
    Seeks t p ⟨q, []⟩ :=
  .waits hs h rfl

theorem seeks_takeUp (hs : find? t q.borrows = some s) (h : Short p s.permits q) :
    Seeks t p (q.takeUp t) := by
  unfold takeUp
  cases s with
  | queued =>
      simp only [hs]
      split
      · exact seeks_leave h
      · exact seeks_self hs h
  | granted =>
      simp only [hs]
      split
      · have hl : Short p 1 (q.leave t) := Short.frugal h frugal_leave rfl rfl
        apply Seeks.fails (f := q.closedFault)
        · exact hl.release
        · simp [hl.release_eq, Effect.ended?]
      · exact seeks_lend h
  | _ =>
      simp only [hs]
      exact seeks_self hs h

theorem seeks_expire (hs : find? t q.borrows = some s) (h : Short p s.permits q) :
    Seeks t p (q.expire t) := by
  unfold expire
  cases s with
  | queued =>
      simp only [hs]
      split
      · exact seeks_leave h
      · exact seeks_turnAway h
  | _ =>
      simp only [hs]
      exact seeks_self hs h

theorem seeks_borrowPinged {alive : Bool} (hs : find? t q.borrows = some s)
    (h : Short p s.permits q) : Seeks t p (q.borrowPinged t alive) := by
  unfold borrowPinged
  cases s with
  | pinging link =>
      simp only [hs]
      split
      · exact seeks_checkout h
      · have hr : Short p 1 (q.reject link).state := Short.frugal h frugal_reject rfl rfl
        exact (seeks_lend hr).after (quiet_reject (p := q)).endings
  | _ =>
      simp only [hs]
      exact seeks_self hs h

theorem seeks_borrowConnected {result : Except Fault Link} (hs : find? t q.borrows = some s)
    (h : Short p s.permits q) : Seeks t p (q.borrowConnected t result) := by
  unfold borrowConnected
  cases s with
  | connecting =>
      simp only [hs]
      cases result with
      | ok link =>
          have hc : Short p 1 q.countCreated := ⟨h.tuning, h.free, h.opened, h.queued⟩
          exact seeks_checkout hc
      | error f =>
          have ht : Short p 1 (q.turnAway t f).state := Short.frugal h frugal_turnAway rfl rfl
          apply Seeks.fails (f := f)
          · exact ht.release
          · simp only [Reaction.andThen, List.singleton_append, ht.release_eq]
            rfl
  | _ =>
      simp only [hs]
      exact seeks_self hs h

/-- The next move while a borrower waits. -/
theorem seeks_step (hs : find? t q.borrows = some s) (h : Short p s.permits q) (hm : m.IsOf t)
    (hb : m.begun? = none) : Seeks t p (q.step now m) := by
  cases m with
  | takeUp u =>
      cases hm
      exact seeks_takeUp hs h
  | expire u =>
      cases hm
      exact seeks_expire hs h
  | pinged u alive =>
      cases hm
      simp only [step, waiting?_of_borrows hs]
      exact seeks_borrowPinged hs h
  | connected u result =>
      cases hm
      simp only [step, waiting?_of_borrows hs]
      exact seeks_borrowConnected hs h
  | shutdown => exact .waits (shutdown_borrows.symm ▸ hs) h.shutdown endings_shutdown
  | giveBack u link healthy => cases hb
  | borrow u | abandon u | letGo link | sweep u => exact hm.elim

/-! ## Between borrowing and returning -/

theorem step_of_not_waiting (hw : q.waiting? t = none) (hm : m.IsOf t) (hb : m.begun? = none)
    (now : Nat) : q.step now m = ⟨q, []⟩ ∨ q.step now m = q.shutdown := by
  obtain ⟨hs, -, -⟩ := waiting?_eq_none.mp hw
  cases m with
  | takeUp u =>
      cases hm
      exact .inl (by simp only [step, takeUp, hs])
  | expire u =>
      cases hm
      exact .inl (by simp only [step, expire, hs])
  | pinged u alive =>
      cases hm
      exact .inl (by simp only [step, hw])
  | connected u result =>
      cases hm
      exact .inl (by simp only [step, hw])
  | shutdown => exact .inr rfl
  | giveBack u link healthy => cases hb
  | borrow u | abandon u | letGo link | sweep u => exact hm.elim

/-! ## Returning -/

/-- What becomes of a connection that comes back: a good one is idle if there is a place for it, and
any other one is closed. -/
inductive Fate (link : Link) (good : Bool) (r : Reaction) : Prop
  | idle : good = true → link ∈ r.state.idle.map (·.link) → Fate link good r
  | closed : .close link ∈ r.effects → (good = true → r.state.isFull = true) → Fate link good r

/-- What a move comes to for an operation that returns a connection. -/
inductive Returns (t : Ticket) (link : Link) (good : Bool) (p : Pool) (r : Reaction) : Prop
  | waits : find? t r.state.returns = some link → good = true → Short p 1 r.state →
      endings r.effects = [] → Returns t link good p r
  | ends : Short p 0 r.state → endings r.effects = [.returned t] → Fate link good r →
      Returns t link good p r

theorem fate_discard (h : q.isFull = true) {good : Bool} : Fate link good (q.discard link) :=
  .closed List.mem_cons_self fun _ => h

theorem fate_park : Fate link true (q.park now link) := by
  unfold park
  split
  · exact fate_discard ‹_›
  · apply Fate.idle rfl
    simp [setIdle]

/-- When the return is over, the connection stays where it was put. -/
theorem Returns.of_endReturn {good : Bool} (h : Short p 1 r.state) (hr : endings r.effects = [])
    (hf : Fate link good r) : Returns t link good p (r.andThen (endReturn t)) := by
  have h : Short p 1 { r.state with returns := without t r.state.returns } :=
    ⟨h.tuning, h.free, h.opened, h.queued⟩
  apply Returns.ends
  · exact h.release
  · simp [endReturn, h.release_eq, hr, Effect.ended?]
  · simp only [endReturn, h.release_eq, Reaction.andThen, Reaction.tell]
    cases hf with
    | idle hg hm => exact .idle hg hm
    | closed hc hg => exact .closed (List.mem_append_left _ hc) hg

theorem returns_giveBack {healthy : Bool} (h : Short p 1 q) :
    Returns t link healthy p (q.giveBack now t link healthy) := by
  have h : Short p 1 (q.takeBack link) := ⟨h.tuning, h.free, h.opened, h.queued⟩
  unfold giveBack
  dsimp only
  split
  · rename_i hc
    apply Returns.of_endReturn
    · exact h.frugal frugal_discard rfl rfl
    · rfl
    · apply Fate.closed List.mem_cons_self
      rintro rfl
      have hc : (q.takeBack link).closed = true := by simpa using hc
      simp [isFull, discard, hc]
  rename_i hc
  have hg : healthy = true := by
    cases healthy with
    | true => rfl
    | false => simp at hc
  split
  · apply Returns.waits
    · exact find?_putAt
    · exact hg
    · exact ⟨h.tuning, h.free, h.opened, h.queued⟩
    · rfl
  · subst hg
    exact .of_endReturn (h.park) quiet_park.endings fate_park

theorem returns_returnPinged {alive : Bool} (hs : find? t q.returns = some link)
    (h : Short p 1 q) : Returns t link alive p (q.returnPinged now t alive) := by
  simp only [returnPinged, hs]
  cases alive with
  | true =>
      exact .of_endReturn (h.park) quiet_park.endings fate_park
  | false =>
      apply Returns.of_endReturn
      · exact h.frugal frugal_reject rfl rfl
      · rfl
      · exact .closed List.mem_cons_self (by simp)

theorem waiting?_of_returns (hb : find? t q.borrows = none) (hs : find? t q.returns = some link) :
    q.waiting? t = some .giveBack := by
  simp [waiting?, hb, hs]

theorem returns_self (hs : find? t q.returns = some link) (h : Short p 1 q) :
    Returns t link true p ⟨q, []⟩ :=
  .waits hs rfl h rfl

/-- The next move while a return waits for its ping. The connection is good unless the ping
fails. -/
theorem returns_step (hb : find? t q.borrows = none) (hs : find? t q.returns = some link)
    (h : Short p 1 q) (hm : m.IsOf t) (hg : m.begun? = none) (now : Nat) :
    ∃ good, (good = false → m = .pinged t false) ∧ Returns t link good p (q.step now m) := by
  cases m with
  | takeUp u =>
      cases hm
      simp only [step, takeUp, hb]
      exact ⟨true, by simp, returns_self hs h⟩
  | expire u =>
      cases hm
      simp only [step, expire, hb]
      exact ⟨true, by simp, returns_self hs h⟩
  | pinged u alive =>
      cases hm
      simp only [step, waiting?_of_returns hb hs]
      refine ⟨alive, ?_, returns_returnPinged hs h⟩
      rintro rfl
      rfl
  | connected u result =>
      cases hm
      simp only [step, waiting?_of_returns hb hs]
      exact ⟨true, by simp, returns_self hs h⟩
  | shutdown =>
      exact ⟨true, by simp, .waits (shutdown_returns.symm ▸ hs) rfl h.shutdown endings_shutdown⟩
  | giveBack u link healthy => cases hg
  | borrow u | abandon u | letGo link | sweep u => exact hm.elim

end Pool

end Shardway
