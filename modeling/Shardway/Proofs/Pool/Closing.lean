import Shardway.Proofs.Pool.Actors
import Shardway.Proofs.Pool.Capacity

/-!
# Closed pools

A pool that was shut down has no idle connection and gets none: what its operations still have in
hand is closed when it comes back. `IsShut.step_cases` says all that a move can do to such a pool.
-/

namespace Shardway.Pool

/-- The pool was shut down. -/
structure IsShut (p : Pool) : Prop where
  closed : p.closed = true
  idle : p.idle = []

/-- What every move of a closed pool leaves alone. -/
structure Rests (p q : Pool) : Prop where
  node : q.node = p.node
  closed : q.closed = p.closed
  idle : q.idle = p.idle

/-- A move that also leaves the borrowers alone, and opens no connection. -/
structure Still (p : Pool) (r : Reaction) : Prop extends Rests p r.state where
  borrows : r.state.borrows = p.borrows
  connect : ∀ t, .connect t ∉ r.effects

variable {p : Pool} {t : Ticket} {link : Link} {now : Nat} {r : Reaction}

theorem Rests.refl : Rests p p := ⟨rfl, rfl, rfl⟩

theorem Rests.trans {q q' : Pool} (h : Rests p q) (h' : Rests q q') : Rests p q' :=
  ⟨h'.node.trans h.node, h'.closed.trans h.closed, h'.idle.trans h.idle⟩

theorem Rests.shut {q : Pool} (h : Rests p q) (hp : p.IsShut) : q.IsShut :=
  ⟨h.closed.trans hp.closed, h.idle.trans hp.idle⟩

theorem Still.refl : Still p ⟨p, []⟩ := ⟨.refl, rfl, by simp⟩

theorem Still.andThen {f : Pool → Reaction} (h : Still p r) (hf : Still r.state (f r.state)) :
    Still p (r.andThen f) where
  toRests := h.toRests.trans hf.toRests
  borrows := hf.borrows.trans h.borrows
  connect := fun t ht => (List.mem_append.mp ht).elim (h.connect t) (hf.connect t)

/-! ## What is left of the functions of a closed pool -/

theorem release_of_closed (h : p.closed = true) :
    p.release = ⟨{ p with free := p.free + 1 }, []⟩ := by
  simp [release, h]

theorem park_of_closed (h : p.closed = true) : p.park now link = p.discard link := by
  simp [park, isFull, h]

theorem settle_of_closed {e : Parked} {keep : Bool} {pass : Pass} (h : p.closed = true) :
    p.settle e keep pass = (p.discard e.link, { pass with closed := pass.closed + 1 }) := by
  cases keep <;> simp [settle, repark?, isFull, h]

theorem topUp_of_closed {n : Nat} (h : p.closed = true) : p.topUp t n = p.endSweep t n := by
  simp [topUp, h]

theorem examine_of_closed {left : Nat} {pass : Pass} (h : p.closed = true) :
    p.examine now t left pass = p.endExamination t pass := by
  cases left with
  | zero => rfl
  | succ left => simp [examine, h]

theorem lend_of_idle_eq_nil (h : p.idle = []) :
    p.lend t = ⟨p.await t .connecting, [.connect t]⟩ := by
  simp [lend, takeIdle?, h]

theorem shutdown_of_closed (h : p.closed = true) : p.shutdown = ⟨p, []⟩ := by
  simp [shutdown, h]

theorem closed_shutdown : p.shutdown.state.closed = true := by
  unfold shutdown
  split
  · assumption
  · rfl

theorem shutdown_shutdown : p.shutdown.state.shutdown.state = p.shutdown.state := by
  rw [shutdown_of_closed closed_shutdown]

theorem isShut_shutdown (hi : p.closed = true → p.idle = []) : p.shutdown.state.IsShut := by
  unfold shutdown
  split
  · rename_i hc
    exact ⟨hc, hi hc⟩
  · exact ⟨rfl, rfl⟩

theorem shutdown_borrows : p.shutdown.state.borrows = p.borrows := by
  unfold shutdown
  split <;> rfl

/-! ## Moves that leave the borrowers alone -/

theorem still_discard : Still p (p.discard link) := ⟨⟨rfl, rfl, rfl⟩, rfl, by simp [discard]⟩

theorem still_release (h : p.closed = true) : Still p p.release := by
  rw [release_of_closed h]
  exact ⟨⟨rfl, rfl, rfl⟩, rfl, by simp⟩

theorem still_endReturn (h : p.closed = true) : Still p (p.endReturn t) := by
  rw [endReturn, release_of_closed (by exact h)]
  exact ⟨⟨rfl, rfl, rfl⟩, rfl, by simp⟩

theorem still_discard_endReturn (h : p.closed = true) :
    Still p ((p.discard link).andThen (endReturn t)) :=
  still_discard.andThen (still_endReturn h)

theorem still_endSweep {n : Nat} : Still p (p.endSweep t n) :=
  ⟨⟨rfl, rfl, rfl⟩, rfl, by simp [endSweep]⟩

theorem still_endExamination {pass : Pass} (h : p.closed = true) :
    Still p (p.endExamination t pass) := by
  rw [endExamination, topUp_of_closed (by exact h)]
  exact { (still_endSweep (p := p) (t := t) (n := pass.closed)) with }

theorem still_giveBack {healthy : Bool} (h : p.closed = true) :
    Still p (p.giveBack now t link healthy) := by
  have hg : p.giveBack now t link healthy =
      ((p.takeBack link).discard link).andThen (endReturn t) := by
    have ht : (p.takeBack link).closed = true := h
    simp [giveBack, ht]
  rw [hg]
  exact { (still_discard_endReturn (p := p.takeBack link) h) with }

theorem still_letGo (h : p.closed = true) : Still p (p.letGo link) :=
  { (still_discard (p := p.takeBack link)).andThen (still_release (by exact h)) with }

theorem still_returnPinged {alive : Bool} (h : p.closed = true) :
    Still p (p.returnPinged now t alive) := by
  unfold returnPinged
  split
  · split
    · rw [park_of_closed h]
      exact still_discard_endReturn h
    · exact { (still_discard_endReturn (p := p.countValidationFailure) h) with }
  · exact .refl

theorem still_sweep (h : p.closed = true) : Still p (p.sweep now t) := by
  rw [sweep, if_pos h]
  exact still_endSweep

theorem still_sweepPinged {alive : Bool} (h : p.closed = true) :
    Still p (p.sweepPinged now t alive) := by
  unfold sweepPinged
  split
  · rename_i e left pass _
    have hq {q : Pool} (hq : q.closed = true) :
        Still q (((q.settle e alive pass).1.andThen release).andThen
          (examine now t left (q.settle e alive pass).2)) := by
      rw [settle_of_closed hq]
      refine (still_discard.andThen (still_release hq)).andThen ?_
      rw [examine_of_closed]
      · refine still_endExamination ?_
        exact (still_discard.andThen (still_release hq)).closed.trans hq
      · exact (still_discard.andThen (still_release hq)).closed.trans hq
    cases alive with
    | true => exact { (hq (q := { p with sweeps := without t p.sweeps }) h) with }
    | false =>
        exact { (hq (q := countValidationFailure { p with sweeps := without t p.sweeps }) h) with }
  · exact .refl

theorem still_sweepConnected {result : Except Fault Link} (h : p.closed = true) :
    Still p (p.sweepConnected now t result) := by
  unfold sweepConnected
  split
  · split
    · rename_i link
      have hd : Still p (p.countCreated.discard link) :=
        { (still_discard (p := p.countCreated)) with }
      have hr : Still p ((p.countCreated.discard link).andThen release) :=
        hd.andThen (still_release h)
      rw [park_of_closed (by exact h)]
      refine hr.andThen ?_
      rw [topUp_of_closed (hr.closed.trans h)]
      exact still_endSweep
    · rename_i f
      have hn : Still p ⟨p, [.notice (.refillFailed p.addr f)]⟩ := { Still.refl with connect := by simp }
      exact (hn.andThen (still_release h)).andThen still_endSweep
  · exact .refl

/-! ## Moves as a whole -/

/-- A borrower of a closed pool is done. One in the queue has failed, or was given up. -/
structure Departs (t : Ticket) (s : BorrowStage) (p : Pool) (m : Move) (r : Reaction) : Prop
    extends Rests p r.state where
  borrows : r.state.borrows = without t p.borrows
  connect : ∀ u, .connect u ∉ r.effects
  failed : s = .queued → m = .abandon t ∨ .failed t p.closedFault ∈ r.effects

/-- A borrower of a closed pool whose connection did not answer opens another one. -/
structure Redials (t : Ticket) (link : Link) (p : Pool) (r : Reaction) : Prop
    extends Rests p r.state where
  borrows : r.state.borrows = putAt t .connecting p.borrows
  effects : r.effects = [.close link, .connect t]

theorem departs_release {s : BorrowStage} {m : Move} (h : p.closed = true) (hs : s ≠ .queued) :
    Departs t s p m (p.leave t).release := by
  rw [release_of_closed (by exact h)]
  exact ⟨⟨rfl, rfl, rfl⟩, rfl, by simp, fun hq => absurd hq hs⟩

theorem departs_checkout {s : BorrowStage} {m : Move} (hs : s ≠ .queued) :
    Departs t s p m (p.checkout t link) :=
  ⟨⟨rfl, rfl, rfl⟩, rfl, by simp [checkout], fun hq => absurd hq hs⟩

theorem IsShut.takeUp (h : p.IsShut) :
    Still p (p.takeUp t) ∨
      ∃ s, find? t p.borrows = some s ∧ Departs t s p (.takeUp t) (p.takeUp t) := by
  have hc : (p.leave t).closed = true := h.closed
  cases hs : find? t p.borrows with
  | none =>
      have : p.takeUp t = ⟨p, []⟩ := by simp [Pool.takeUp, hs]
      exact .inl (this ▸ .refl)
  | some s =>
      cases s with
      | queued =>
          refine .inr ⟨_, rfl, ?_⟩
          simp only [Pool.takeUp, hs, h.closed, if_true]
          exact ⟨⟨rfl, rfl, rfl⟩, rfl, by simp, fun _ => .inr (by simp)⟩
      | granted =>
          refine .inr ⟨_, rfl, ?_⟩
          simp only [Pool.takeUp, hs, h.closed, if_true, release_of_closed hc]
          exact ⟨⟨rfl, rfl, rfl⟩, rfl, by simp, by simp⟩
      | _ =>
          have : p.takeUp t = ⟨p, []⟩ := by simp [Pool.takeUp, hs]
          exact .inl (this ▸ .refl)

theorem IsShut.expire (h : p.IsShut) :
    Still p (p.expire t) ∨
      ∃ s, find? t p.borrows = some s ∧ Departs t s p (.expire t) (p.expire t) := by
  cases hs : find? t p.borrows with
  | none =>
      have : p.expire t = ⟨p, []⟩ := by simp [Pool.expire, hs]
      exact .inl (this ▸ .refl)
  | some s =>
      cases s with
      | queued =>
          refine .inr ⟨_, rfl, ?_⟩
          simp only [Pool.expire, hs, h.closed, if_true]
          exact ⟨⟨rfl, rfl, rfl⟩, rfl, by simp, fun _ => .inr (by simp)⟩
      | _ =>
          have : p.expire t = ⟨p, []⟩ := by simp [Pool.expire, hs]
          exact .inl (this ▸ .refl)

theorem IsShut.abandon (h : p.IsShut) :
    Still p (p.abandon t) ∨
      ∃ s, find? t p.borrows = some s ∧ Departs t s p (.abandon t) (p.abandon t) := by
  have hc : (p.leave t).closed = true := h.closed
  cases hs : find? t p.borrows with
  | none =>
      have : p.abandon t = ⟨p, []⟩ := by simp [Pool.abandon, hs]
      exact .inl (this ▸ .refl)
  | some s =>
      refine .inr ⟨_, rfl, ?_⟩
      cases s with
      | queued =>
          simp only [Pool.abandon, hs]
          exact ⟨⟨rfl, rfl, rfl⟩, rfl, by simp, fun _ => .inl rfl⟩
      | pinging link =>
          simp only [Pool.abandon, hs, Reaction.andThen, release_of_closed hc]
          exact ⟨⟨rfl, rfl, rfl⟩, rfl, by simp, by simp⟩
      | _ =>
          simp only [Pool.abandon, hs]
          exact departs_release h.closed (by simp)

theorem IsShut.borrowPinged (h : p.IsShut) (t : Ticket) (alive : Bool) :
    Still p (p.borrowPinged t alive) ∨
      (∃ s, find? t p.borrows = some s ∧
        Departs t s p (.pinged t alive) (p.borrowPinged t alive)) ∨
      alive = false ∧ ∃ link, find? t p.borrows = some (.pinging link) ∧
        Redials t link p (p.borrowPinged t alive) := by
  unfold Pool.borrowPinged
  split
  · rename_i link hs
    split
    · exact .inr (.inl ⟨_, hs, departs_checkout (by simp)⟩)
    · rename_i ha
      refine .inr (.inr ⟨by simpa using ha, link, hs, ?_⟩)
      rw [Reaction.andThen, lend_of_idle_eq_nil (by exact h.idle)]
      exact ⟨⟨rfl, rfl, rfl⟩, rfl, rfl⟩
  · exact .inl .refl

theorem IsShut.borrowConnected {result : Except Fault Link} (h : p.IsShut) :
    Still p (p.borrowConnected t result) ∨
      ∃ s, find? t p.borrows = some s ∧
        Departs t s p (.connected t result) (p.borrowConnected t result) := by
  unfold Pool.borrowConnected
  split
  · refine .inr ⟨_, ‹_›, ?_⟩
    split
    · exact ⟨⟨rfl, rfl, rfl⟩, rfl, by simp [checkout], by simp⟩
    · rename_i f
      have hc : (p.turnAway t f).state.closed = true := h.closed
      simp only [Reaction.andThen, release_of_closed hc]
      exact ⟨⟨rfl, rfl, rfl⟩, rfl, by simp [turnAway], by simp⟩
  · exact .inl .refl

/-- All that a move can do to a closed pool. -/
theorem IsShut.step_cases (h : p.IsShut) (now : Nat) (m : Move) :
    Still p (p.step now m) ∨
      (∃ t s, find? t p.borrows = some s ∧ Departs t s p m (p.step now m)) ∨
      ∃ t link, m = .pinged t false ∧ find? t p.borrows = some (.pinging link) ∧
        Redials t link p (p.step now m) := by
  cases m with
  | borrow t =>
      have hb : p.borrow t = ⟨p, [.failed t p.closedFault]⟩ := borrow_of_closed h.closed
      left
      simp only [step, hb]
      exact { Still.refl with connect := by simp }
  | takeUp t => exact h.takeUp.imp id fun hs => .inl (Exists.intro t hs)
  | expire t => exact h.expire.imp id fun hs => .inl (Exists.intro t hs)
  | abandon t => exact h.abandon.imp id fun hs => .inl (Exists.intro t hs)
  | giveBack t link healthy => exact .inl (still_giveBack h.closed)
  | letGo link => exact .inl (still_letGo h.closed)
  | sweep t => exact .inl (still_sweep h.closed)
  | pinged t alive =>
      simp only [step]
      split
      · rcases h.borrowPinged t alive with hs | ⟨s, hs⟩ | ⟨rfl, link, hs⟩
        · exact .inl hs
        · exact .inr (.inl ⟨t, s, hs⟩)
        · exact .inr (.inr ⟨t, link, rfl, hs⟩)
      · exact .inl (still_returnPinged h.closed)
      · exact .inl (still_sweepPinged h.closed)
      · exact .inl .refl
  | connected t result =>
      simp only [step]
      split
      · exact h.borrowConnected.imp id fun hs => .inl (Exists.intro t hs)
      · exact .inl (still_sweepConnected h.closed)
      · exact .inl .refl
  | shutdown =>
      left
      simp only [step, shutdown_of_closed h.closed]
      exact .refl

/-! ## What comes back -/

/-- A move that brings a connection back to the pool: from a borrower, from its ping on return or
while idle, or a new one that should have become idle. -/
inductive Brings (p : Pool) : Move → Link → Prop
  | giveBack {t : Ticket} {link : Link} {healthy : Bool} : Brings p (.giveBack t link healthy) link
  | letGo {link : Link} : Brings p (.letGo link) link
  | tested {t : Ticket} {link : Link} {alive : Bool} : p.waiting? t = some .giveBack →
      find? t p.returns = some link → Brings p (.pinged t alive) link
  | examined {t : Ticket} {e : Parked} {left : Nat} {pass : Pass} {alive : Bool} :
      p.waiting? t = some .sweep → find? t p.sweeps = some (.pinging e left pass) →
      Brings p (.pinged t alive) e.link
  | refilled {t : Ticket} {n : Nat} {link : Link} : p.waiting? t = some .sweep →
      find? t p.sweeps = some (.connecting n) → Brings p (.connected t (.ok link)) link

theorem close_of_brings {m : Move} (hc : p.closed = true) (h : p.Brings m link) :
    .close link ∈ (p.step now m).effects := by
  cases h with
  | giveBack =>
      have ht : (p.takeBack link).closed = true := hc
      simp [step, Pool.giveBack, ht, discard]
  | letGo => simp [step, Pool.letGo, discard]
  | @tested t _ alive hw hr =>
      cases alive <;> simp [step, hw, Pool.returnPinged, hr, park_of_closed hc, reject, discard]
  | @examined t e left pass alive hw hs =>
      have hd {q : Pool} (hq : q.closed = true) : .close e.link ∈ (q.settle e alive pass).1.effects := by
        simp [settle_of_closed hq, discard]
      simp only [step, hw, Pool.sweepPinged, hs]
      cases alive with
      | true => exact List.mem_append_left _ (List.mem_append_left _ (hd (by exact hc)))
      | false => exact List.mem_append_left _ (List.mem_append_left _ (hd (by exact hc)))
  | refilled hw hs =>
      have hk : p.countCreated.closed = true := hc
      simp [step, hw, Pool.sweepConnected, hs, park_of_closed hk, discard]

/-! ## Stories after a shutdown -/

theorem Ledger.Step.drained {R : Nat → Parked → List Parked → Prop} {l l' : Ledger}
    {es : List Event} (h : Ledger.Step R now l es l') (hl : l.closed = true → l.idle = []) :
    l'.closed = true → l'.idle = [] := by
  intro hc
  cases h with
  | @take l _ _ hi =>
      have hn : l.idle = [] := hl hc
      rw [hn] at hi
      cases hi
  | park hp => exact absurd (hp.isOpen.symm.trans hc) Bool.false_ne_true
  | repark hp => exact absurd (hp.isOpen.symm.trans hc) Bool.false_ne_true
  | shut _ => rfl
  | _ => exact hl hc

theorem Ledger.Steps.drained {R : Nat → Parked → List Parked → Prop} {l l' : Ledger}
    {es : List Event} (h : Ledger.Steps R now l es l') (hl : l.closed = true → l.idle = []) :
    l'.closed = true → l'.idle = [] := by
  induction h with
  | refl => exact hl
  | cons hs _ ih => exact ih (hs.drained hl)

namespace Story

variable {node : Node} {tuning : Config.PoolTuning} {s s' : Story} {ms : List (Nat × Move)}

theorem Leads.drained (h : Leads (start node tuning) s) (hc : s.pool.closed = true) :
    s.pool.idle = [] := by
  induction h with
  | refl => rfl
  | @next s now m h hn ha ih =>
      have hr := ((h.kept kept_start).reaches hn ha).steps.drained ih
      exact hr hc

/-- What a move does to a closed pool leaves it closed. -/
theorem rests_next (h : s.pool.IsShut) (now : Nat) (m : Move) : Rests s.pool (s.next now m).pool := by
  rcases h.step_cases now m with hs | ⟨t, b, -, hs⟩ | ⟨t, link, -, -, hs⟩
  · exact hs.toRests
  · exact hs.toRests
  · exact hs.toRests

theorem rests_play (h : s.pool.IsShut) (ms : List (Nat × Move)) :
    Rests s.pool (s.play ms).pool := by
  induction ms generalizing s with
  | nil => exact .refl
  | cons x ms ih =>
      have hr := rests_next h x.1 x.2
      exact hr.trans (ih (hr.shut h))

theorem play_past (s : Story) (ms : List (Nat × Move)) : ∃ es, (s.play ms).past = s.past ++ es := by
  induction ms generalizing s with
  | nil => exact ⟨[], (List.append_nil _).symm⟩
  | cons x ms ih =>
      obtain ⟨es, he⟩ := ih (s.next x.1 x.2)
      exact ⟨s.news x.1 x.2 ++ es, he.trans (List.append_assoc ..)⟩

/-- A borrower in the queue of a closed pool stays there until it fails, unless it is given up. -/
theorem queued_play {t : Ticket} (h : s.pool.IsShut) (hq : find? t s.pool.borrows = some .queued)
    (ha : .abandon t ∉ ms.map (·.2)) :
    find? t (s.play ms).pool.borrows = some .queued ∨
      ∃ es, (s.play ms).past = s.past ++ es ∧ .told (.failed t s.pool.closedFault) ∈ es := by
  induction ms generalizing s with
  | nil => exact .inl hq
  | cons x ms ih =>
      obtain ⟨now, m⟩ := x
      have hr := rests_next h now m
      obtain ⟨hm, hms⟩ := not_or.mp (fun hm => ha (List.mem_cons.mpr hm))
      have hgo (hq' : find? t (s.next now m).pool.borrows = some .queued) :
          find? t ((s.next now m).play ms).pool.borrows = some .queued ∨
            ∃ es, ((s.next now m).play ms).past = s.past ++ es ∧
              .told (.failed t s.pool.closedFault) ∈ es := by
        refine (ih (hr.shut h) hq' hms).imp id ?_
        rintro ⟨es, he, hf⟩
        have hn : (s.next now m).pool.closedFault = s.pool.closedFault := by
          rw [closedFault, addr, hr.node]
          rfl
        exact ⟨s.news now m ++ es, he.trans (List.append_assoc ..),
          List.mem_append_right _ (hn ▸ hf)⟩
      rcases h.step_cases now m with hs | ⟨u, b, hb, hs⟩ | ⟨u, link, -, hb, hs⟩
      · exact hgo ((congrArg (find? t) hs.borrows).trans hq)
      · by_cases hu : t = u
        · subst hu
          cases hq.symm.trans hb
          right
          obtain ⟨es, he⟩ := play_past (s.next now m) ms
          refine ⟨s.news now m ++ es, he.trans (List.append_assoc ..), ?_⟩
          have hf := (hs.failed rfl).resolve_left (Ne.symm hm)
          exact List.mem_append_left _ (List.mem_append_right _ (List.mem_map_of_mem hf))
        · refine hgo ((congrArg (find? t) hs.borrows).trans ?_)
          rw [find?_without_of_ne hu, hq]
      · have hu : t ≠ u := by
          rintro rfl
          cases hq.symm.trans hb
        refine hgo ((congrArg (find? t) hs.borrows).trans ?_)
        rw [find?_putAt_of_ne hu, hq]

/-- Shutting a pool down is final. From then on nothing is idle: what was idle then is closed, and
so is what comes back later. No borrower that comes later or is in the queue without a permit has
anything but the fault of a closed pool, and to shut the pool down again changes nothing. -/
theorem shutdown_final (h : Leads (start node tuning) s) (now : Nat) (ms : List (Nat × Move)) :
    let s' := (s.next now .shutdown).play ms
    s'.pool.closed = true ∧ s'.pool.idle = [] ∧
      (∀ e ∈ s.pool.idle, .told (.close e.link) ∈ s.news now .shutdown) ∧
      (∀ now' m link, s'.pool.Brings m link →
        .told (.close link) ∈ s'.news now' m ∧ (s'.next now' m).pool.idle = []) ∧
      (∀ now' t, s'.pool.step now' (.borrow t) = ⟨s'.pool, [.failed t s'.pool.closedFault]⟩) ∧
      (∀ t, find? t s.pool.borrows = some .queued →
        (s.pool.closed = false → .told (.wake t) ∈ s.news now .shutdown) ∧
          (.abandon t ∉ ms.map (·.2) →
            (find? t s'.pool.borrows = some .queued ∧ ∀ now', ∀ m ∈ [.takeUp t, .expire t],
              s'.pool.step now' m = ⟨s'.pool.leave t, [.failed t s'.pool.closedFault]⟩) ∨
            ∃ es, s'.past = (s.next now .shutdown).past ++ es ∧
              .told (.failed t s'.pool.closedFault) ∈ es)) ∧
      ∀ now', s'.pool.step now' .shutdown = ⟨s'.pool, []⟩ := by
  have hd : s.pool.closed = true → s.pool.idle = [] := h.drained
  have h0 : (s.next now .shutdown).pool.IsShut := isShut_shutdown hd
  have hr : Rests (s.next now .shutdown).pool ((s.next now .shutdown).play ms).pool :=
    rests_play h0 ms
  have hs := hr.shut h0
  refine ⟨hs.closed, hs.idle, fun e he => ?_, fun now' m link hb => ⟨?_, ?_⟩,
    fun now' t => borrow_of_closed hs.closed, fun t ht => ⟨fun ho => ?_, fun ha => ?_⟩,
    fun now' => shutdown_of_closed hs.closed⟩
  · have ho : s.pool.closed = false := by
      cases hc : s.pool.closed with
      | false => rfl
      | true => simp [hd hc] at he
    simp only [news, List.mem_append, mem_tell, step, shutdown, ho]
    exact .inr (by simpa using ⟨e, he, rfl⟩)
  · exact List.mem_append_right _ (List.mem_map_of_mem (close_of_brings hs.closed hb))
  · exact ((rests_next hs now' m).shut hs).idle
  · have hq : t ∈ s.pool.queue :=
      List.mem_filterMap.mpr ⟨_, mem_of_find? ht, by simp⟩
    simp only [news, List.mem_append, mem_tell, step, shutdown, ho]
    exact .inr (by simpa using hq)
  · have hq : find? t (s.next now .shutdown).pool.borrows = some .queued :=
      (congrArg (find? t) shutdown_borrows).trans ht
    have hf : (s.next now .shutdown).pool.closedFault =
        ((s.next now .shutdown).play ms).pool.closedFault := by
      rw [closedFault, closedFault, addr, addr, hr.node]
    refine (queued_play h0 hq ha).imp (fun hq => ⟨hq, fun now' m hm => ?_⟩) (hf ▸ id)
    rcases List.mem_pair.mp hm with rfl | rfl
    · simp [step, Pool.takeUp, hq, hs.closed]
    · simp [step, Pool.expire, hq, hs.closed]

/-- One connection is idle, another one is pinged on its way back, a third one is being opened, and
of two more borrowers only the first one has a permit. -/
def lastOrders : List (Nat × Move) :=
  [(0, .borrow 0), (0, .connected 0 (.ok 0)), (0, .borrow 1), (0, .borrow 2),
    (0, .connected 2 (.ok 2)), (1, .giveBack 3 0 true), (1, .giveBack 4 2 true), (1, .borrow 5),
    (2, .pinged 3 true), (2, .borrow 6)]

/-- After the shutdown, all of them go on. -/
def afterHours : List (Nat × Move) :=
  [(4, .connected 1 (.ok 1)), (4, .takeUp 5), (4, .takeUp 6), (5, .pinged 4 true),
    (6, .giveBack 7 1 true)]

theorem shutdown_final_afterHours :
    let s := (start default { maxTotal := 3, testOnReturn := true }).play lastOrders
    let s' := (s.next 3 .shutdown).play afterHours
    s.pool.idle = [⟨0, 2⟩] ∧ find? 6 s.pool.borrows = some .queued ∧
      s'.pool.idle = [] ∧ closings s'.past = [0, 2, 1] ∧
      .told (.close 0) ∈ s.news 3 .shutdown ∧ .told (.wake 6) ∈ s.news 3 .shutdown ∧
      (∃ es, s'.past = (s.next 3 .shutdown).past ++ es ∧
        .told (.failed 6 s'.pool.closedFault) ∈ es) ∧
      s'.pool.step 7 .shutdown = ⟨s'.pool, []⟩ := by
  intro s s'
  have h : Leads (start default { maxTotal := 3, testOnReturn := true }) s :=
    Plays.leads (by decide)
  obtain ⟨-, hi, hc, -, -, hq, hs⟩ := shutdown_final h 3 afterHours
  have h6 : find? 6 s.pool.borrows = some .queued := by decide
  have hf := ((hq 6 h6).2 (by simp [afterHours])).resolve_left fun hl => absurd hl.1 (by decide)
  exact ⟨by decide, h6, hi, by decide, hc ⟨0, 2⟩ (by decide), (hq 6 h6).1 (by decide), hf, hs 7⟩

end Story
end Shardway.Pool
