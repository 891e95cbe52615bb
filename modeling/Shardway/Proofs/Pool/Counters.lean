import Shardway.Proofs.Pool.Tally

/-!
# What the counters of a pool tell

Each counter of a pool is moved in several functions, often after a wait in which others had the
pool. Whatever happens, each event that a counter stands for is counted once: the counters are the
sums of what the past tells.
-/

namespace Shardway

/-- The counter has counted so many, as far as 64 bits can tell. -/
def Counter.Shows (c : Counter) (n : Nat) : Prop := c.value = n.toUInt64

theorem Counter.Shows.next {c c' : Counter} {n k : Nat} (h : c.Shows n)
    (hc : c'.value = c.value + k.toUInt64) : c'.Shows (n + k) := by
  rw [Counter.Shows] at h ⊢
  simp [hc, h]

/-- What an eviction pass that waits like this has counted already and will return. -/
def SweepStage.due : SweepStage → Nat
  | connecting closed => closed
  | pinging .. => 0

namespace Pool

/-! ## What is counted -/

def Event.isSilence : Event → Bool
  | .silent _ => true
  | _ => false

/-- How many pings got no answer. -/
def silences (past : List Event) : Nat := past.countP Event.isSilence

/-- A borrower ends for want of a permit, or because no connection could be opened. A chapter is all
that happened in one move: what the connector said to a borrower stands in it. -/
def Event.isFailure (chapter : List Event) : Event → Bool
  | .told (.failed _ (.poolExhausted ..)) => true
  | .told (.failed t f) => .missed t f ∈ chapter
  | _ => false

/-- How many borrowers ended in such a way in one move. -/
def failures (chapter : List Event) : Nat := chapter.countP (Event.isFailure chapter)

/-- How many connections were closed by the eviction pass that is over with this event. -/
def Event.evicted : Event → Nat
  | .told (.swept _ n) => n
  | _ => 0

/-- The sum of what the eviction passes returned. -/
def sweepings (past : List Event) : Nat := (past.map Event.evicted).sum

/-- What the passes in progress have counted already and will return. -/
def due (p : Pool) : Nat := (p.sweeps.map (·.2.due)).sum

@[simp] theorem silences_nil : silences [] = 0 := rfl

@[simp] theorem silences_cons (e : Event) (past : List Event) :
    silences (e :: past) = silences past + if e.isSilence then 1 else 0 := List.countP_cons ..

@[simp] theorem silences_append (p q : List Event) : silences (p ++ q) = silences p + silences q :=
  List.countP_append ..

@[simp] theorem sweepings_nil : sweepings [] = 0 := rfl

@[simp] theorem sweepings_cons (e : Event) (past : List Event) :
    sweepings (e :: past) = e.evicted + sweepings past := rfl

@[simp] theorem sweepings_append (p q : List Event) :
    sweepings (p ++ q) = sweepings p + sweepings q := by
  simp [sweepings]

/-! ## Loans and pings -/

namespace Ledger

variable {R : Nat → Parked → List Parked → Prop} {now : Nat} {l l' : Ledger} {es : List Event}

theorem silences_closeAll (idle : List Parked) :
    silences (tell (idle.map (.close ·.link))) = 0 := by
  induction idle with
  | nil => rfl
  | cons e idle ih => simpa [Event.isSilence] using ih

theorem Step.borrows_eq (h : Step R now l es l') :
    l'.metrics.borrows.value = l.metrics.borrows.value + (loans es).toUInt64 := by
  cases h with
  | lend => simp [Counter.increment, Counter.add, Event.isLoan]
  | @shut l _ =>
      obtain ⟨-, -, hl, -⟩ := events_closeAll l.idle
      simp [hl]
  | say ha => cases ha <;> simp [Event.isLoan]
  | _ => simp [Event.isLoan]

theorem Step.validationFailures_eq (h : Step R now l es l') :
    l'.metrics.validationFailures.value =
      l.metrics.validationFailures.value + (silences es).toUInt64 := by
  cases h with
  | reject => simp [Counter.increment, Counter.add, Event.isSilence]
  | @shut l _ => simp [silences_closeAll]
  | say ha => cases ha <;> simp [Event.isSilence]
  | _ => simp [Event.isSilence]

theorem Steps.borrows_eq (h : Steps R now l es l') :
    l'.metrics.borrows.value = l.metrics.borrows.value + (loans es).toUInt64 := by
  induction h with
  | refl => simp
  | cons hs _ ih => simp [ih, hs.borrows_eq, UInt64.add_assoc]

theorem Steps.validationFailures_eq (h : Steps R now l es l') :
    l'.metrics.validationFailures.value =
      l.metrics.validationFailures.value + (silences es).toUInt64 := by
  induction h with
  | refl => simp
  | cons hs _ ih => simp [ih, hs.validationFailures_eq, UInt64.add_assoc]

end Ledger

/-! ## Failures and evictions -/

def Effect.isVerdict : Effect → Bool
  | .failed .. | .swept .. => true
  | _ => false

/-- A part of a move ends no borrower without a connection, and no eviction pass. -/
structure Calm (p : Pool) (r : Reaction) : Prop where
  borrowFailures : r.state.metrics.borrowFailures = p.metrics.borrowFailures
  evictions : r.state.metrics.evictions = p.metrics.evictions
  sweeps : r.state.sweeps = p.sweeps
  verdicts : ∀ e ∈ r.effects, e.isVerdict = false

/-- What a part of a move that came with `ins` tells of failures and evictions is what it counts. A
failure that is not counted is the one of a closed pool. -/
structure Reports (ins : List Event) (p : Pool) (r : Reaction) : Prop where
  failures : r.state.metrics.borrowFailures.value = p.metrics.borrowFailures.value +
    ((tell r.effects).countP (Event.isFailure ins)).toUInt64
  evictions : ∃ n : Nat,
    r.state.metrics.evictions.value = p.metrics.evictions.value + n.toUInt64 ∧
      sweepings (tell r.effects) + r.state.due = p.due + n
  refused : ∀ t f, .failed t f ∈ r.effects →
    Event.isFailure ins (.told (.failed t f)) = true ∨ ∃ addr, f = .poolClosed addr

variable {p q : Pool} {t : Ticket} {link : Link} {now : Nat} {r : Reaction} {es : List Effect}
  {ins : List Event} {f : Pool → Reaction}

theorem calm_of_eq (hf : q.metrics.borrowFailures = p.metrics.borrowFailures)
    (he : q.metrics.evictions = p.metrics.evictions) (hs : q.sweeps = p.sweeps)
    (hv : ∀ e ∈ es, e.isVerdict = false) : Calm p ⟨q, es⟩ :=
  ⟨hf, he, hs, hv⟩

theorem Calm.of_eq (h : Calm q r) (hf : q.metrics.borrowFailures = p.metrics.borrowFailures)
    (he : q.metrics.evictions = p.metrics.evictions) (hs : q.sweeps = p.sweeps) : Calm p r :=
  ⟨h.borrowFailures.trans hf, h.evictions.trans he, h.sweeps.trans hs, h.verdicts⟩

theorem Calm.andThen (h : Calm p r) (hf : Calm r.state (f r.state)) : Calm p (r.andThen f) where
  borrowFailures := hf.borrowFailures.trans h.borrowFailures
  evictions := hf.evictions.trans h.evictions
  sweeps := hf.sweeps.trans h.sweeps
  verdicts := fun e he => (List.mem_append.mp he).elim (h.verdicts e) (hf.verdicts e)

theorem Calm.tell {e : Effect} (h : Calm p r) (he : e.isVerdict = false) : Calm p (r.tell e) where
  borrowFailures := h.borrowFailures
  evictions := h.evictions
  sweeps := h.sweeps
  verdicts := fun x hx => by
    rcases List.mem_append.mp hx with hx | hx
    · exact h.verdicts x hx
    · rw [List.mem_singleton.mp hx]
      exact he

theorem sweepings_tell (h : ∀ e ∈ es, e.isVerdict = false) : sweepings (tell es) = 0 := by
  induction es with
  | nil => rfl
  | cons e es ih =>
      obtain ⟨he, hes⟩ := List.forall_mem_cons.mp h
      rw [tell_cons, sweepings_cons, ih hes]
      cases e with
      | swept t n => cases he
      | _ => rfl

theorem failures_tell (h : ∀ e ∈ es, e.isVerdict = false) :
    (Pool.tell es).countP (Event.isFailure ins) = 0 := by
  rw [List.countP_eq_zero]
  intro x hx
  obtain ⟨e, he, rfl⟩ := List.mem_map.mp hx
  have hv := h e he
  cases e with
  | failed t f => cases hv
  | _ => simp [Event.isFailure]

theorem due_congr (h : q.sweeps = p.sweeps) : q.due = p.due := by
  rw [due, due, h]

theorem Calm.reports (h : Calm p r) : Reports ins p r where
  failures := by simp [failures_tell h.verdicts, h.borrowFailures]
  evictions := ⟨0, by simp [h.evictions], by
    simp [sweepings_tell h.verdicts, due_congr h.sweeps]⟩
  refused := fun t f hm => by cases h.verdicts _ hm

theorem Reports.andThen (h : Reports ins p r) (hf : Reports ins r.state (f r.state)) :
    Reports ins p (r.andThen f) where
  failures := by simp [hf.failures, h.failures, UInt64.add_assoc]
  evictions := by
    obtain ⟨n, hn, hd⟩ := h.evictions
    obtain ⟨n', hn', hd'⟩ := hf.evictions
    refine ⟨n + n', by simp [hn', hn, UInt64.add_assoc], ?_⟩
    simp only [Reaction.andThen_effects, Reaction.andThen_state, tell_append, sweepings_append]
    omega
  refused := fun t f hm => (List.mem_append.mp hm).elim (h.refused t f) (hf.refused t f)

theorem Reports.of_eq (h : Reports ins q r)
    (hf : q.metrics.borrowFailures = p.metrics.borrowFailures)
    (he : q.metrics.evictions = p.metrics.evictions) (hs : q.due = p.due) : Reports ins p r where
  failures := hf ▸ h.failures
  evictions := by
    obtain ⟨n, hn, hd⟩ := h.evictions
    exact ⟨n, he ▸ hn, hs ▸ hd⟩
  refused := h.refused

theorem calm_wait {e : Effect} (hf : q.metrics = p.metrics) (hs : q.sweeps = p.sweeps)
    (he : e.isVerdict = false) : Calm p ⟨q, [e]⟩ :=
  calm_of_eq (hf ▸ rfl) (hf ▸ rfl) hs fun x hx => by rwa [List.mem_singleton.mp hx]

theorem calm_refl : Calm p ⟨p, []⟩ := calm_of_eq rfl rfl rfl (by simp)

theorem calm_discard : Calm p (p.discard link) :=
  calm_of_eq rfl rfl rfl (by simp [Effect.isVerdict])

theorem calm_reject : Calm p (p.reject link) :=
  calm_of_eq rfl rfl rfl (by simp [Effect.isVerdict])

theorem calm_release : Calm p p.release := by
  unfold release
  split
  · exact calm_of_eq rfl rfl rfl (by simp [Effect.isVerdict])
  · exact calm_of_eq rfl rfl rfl (by simp)

theorem calm_park : Calm p (p.park now link) := by
  unfold park
  split
  · exact calm_discard
  · exact calm_of_eq rfl rfl rfl (by simp)

theorem calm_settle {e : Parked} {keep : Bool} {pass : Pass} :
    Calm p (p.settle e keep pass).1 := by
  unfold settle
  split
  · rename_i q hq
    cases keep with
    | false => cases hq
    | true =>
        obtain ⟨-, rfl⟩ := repark?_eq_some hq
        exact calm_of_eq rfl rfl rfl (by simp)
  · exact calm_discard

/-! ### Borrowers and returns -/

theorem calm_checkout : Calm p (p.checkout t link) :=
  calm_of_eq rfl rfl rfl (by simp [Effect.isVerdict])

theorem calm_lend : Calm p (p.lend t) := by
  unfold lend
  split
  · rename_i e q hq
    obtain ⟨i, -, rfl⟩ := takeIdle?_eq_some hq
    split
    · exact calm_of_eq rfl rfl rfl (by simp [Effect.isVerdict])
    · exact calm_checkout.of_eq rfl rfl rfl
  · exact calm_wait rfl rfl rfl

theorem calm_endReturn : Calm p (p.endReturn t) :=
  ((calm_release (p := p.dropReturn t)).tell rfl).of_eq rfl rfl rfl

/-- A pool that is closed turns a borrower away, which is no failure. -/
theorem Calm.refuse {addr : String} (h : Calm p r) :
    Reports [] p (r.tell (.failed t (.poolClosed addr))) where
  failures := by simp [failures_tell h.verdicts, h.borrowFailures, Event.isFailure]
  evictions := ⟨0, by simp [h.evictions], by
    simp [sweepings_tell h.verdicts, due_congr h.sweeps, Event.evicted]⟩
  refused := fun u f hm => by
    rcases List.mem_append.mp hm with hm | hm
    · cases h.verdicts _ hm
    · cases List.mem_singleton.mp hm
      exact .inr ⟨_, rfl⟩

/-- A borrower that is turned away for want of a permit or of a connection counts. -/
theorem reports_turnAway {f : Fault} (h : Event.isFailure ins (.told (.failed t f)) = true) :
    Reports ins p (p.turnAway t f) where
  failures := by
    simp [turnAway, countBorrowFailure, leave, Counter.increment, Counter.add, h]
  evictions := ⟨0, by simp [turnAway, countBorrowFailure, leave],
    by simp [turnAway, countBorrowFailure, leave, due, Event.evicted]⟩
  refused := fun u f' hm => by
    simp only [turnAway, List.mem_singleton, Effect.failed.injEq] at hm
    obtain ⟨rfl, rfl⟩ := hm
    exact .inl h

theorem calm_leave : Calm p ⟨p.leave t, []⟩ := calm_of_eq rfl rfl rfl (by simp)

theorem reports_borrow : Reports [] p (p.borrow t) := by
  unfold borrow
  split
  · exact calm_refl.refuse
  split
  · apply Calm.reports
    exact calm_lend.of_eq rfl rfl rfl
  split
  · exact reports_turnAway rfl
  · apply Calm.reports
    exact calm_wait rfl rfl rfl

theorem reports_takeUp : Reports [] p (p.takeUp t) := by
  unfold takeUp
  split
  · split
    · exact calm_leave.refuse
    · exact calm_refl.reports
  · split
    · exact (calm_leave.andThen calm_release).refuse
    · exact calm_lend.reports
  · exact calm_refl.reports

theorem reports_expire : Reports [] p (p.expire t) := by
  unfold expire
  split
  · split
    · exact calm_leave.refuse
    · exact reports_turnAway rfl
  · exact calm_refl.reports

theorem calm_borrowPinged {alive : Bool} : Calm p (p.borrowPinged t alive) := by
  unfold borrowPinged
  split
  · split
    · exact calm_checkout
    · exact calm_reject.andThen calm_lend
  · exact calm_refl

theorem reports_borrowConnected {result : Except Fault Link}
    (hm : ∀ f, result = .error f → find? t p.borrows = some .connecting →
      .missed t f ∈ ins) : Reports ins p (p.borrowConnected t result) := by
  unfold borrowConnected
  split
  · rename_i hb
    split
    · apply Calm.reports
      exact calm_checkout.of_eq rfl rfl rfl
    · rename_i f
      have hn : Calm p ⟨p, [.notice (.connectFailed p.addr f)]⟩ := calm_wait rfl rfl rfl
      have hf : Event.isFailure ins (.told (.failed t f)) = true := by
        cases f <;> simp [Event.isFailure, hm _ rfl hb]
      exact (hn.reports.andThen (reports_turnAway hf)).andThen calm_release.reports
  · exact calm_refl.reports

theorem calm_abandon : Calm p (p.abandon t) := by
  unfold abandon
  split
  · exact calm_leave
  · rename_i link _
    have hc : Calm p ⟨p.leave t, [.close link]⟩ := calm_wait rfl rfl rfl
    exact hc.andThen calm_release
  · exact calm_leave.andThen calm_release
  · exact calm_refl

theorem calm_giveBack {healthy : Bool} : Calm p (p.giveBack now t link healthy) := by
  have hb {r : Reaction} (h : Calm (p.takeBack link) r) : Calm p r := h.of_eq rfl rfl rfl
  unfold giveBack
  dsimp only
  split
  · exact hb (calm_discard.andThen calm_endReturn)
  split
  · exact hb (calm_wait rfl rfl rfl)
  · exact hb (calm_park.andThen calm_endReturn)

theorem calm_returnPinged {alive : Bool} : Calm p (p.returnPinged now t alive) := by
  unfold returnPinged
  split
  · split
    · exact calm_park.andThen calm_endReturn
    · exact calm_reject.andThen calm_endReturn
  · exact calm_refl

theorem calm_letGo : Calm p (p.letGo link) :=
  (calm_discard.andThen calm_release).of_eq (q := p.takeBack link) rfl rfl rfl

theorem calm_shutdown : Calm p p.shutdown := by
  unfold shutdown
  split
  · exact calm_refl
  · refine calm_of_eq rfl rfl rfl fun e he => ?_
    simp only [List.mem_append, List.mem_map, List.mem_singleton] at he
    rcases he with (⟨x, -, rfl⟩ | ⟨x, -, rfl⟩) | rfl
    · rfl
    · rfl
    · rfl

/-! ### Eviction passes -/

/-- A pass owes as many as it has counted and not returned. -/
def Owes (t : Ticket) (n : Nat) (p : Pool) : Prop := p.due = n + (p.dropSweep t).due

theorem Owes.congr {n : Nat} (h : p.Owes t n) (hs : q.sweeps = p.sweeps) : q.Owes t n := by
  unfold Owes dropSweep due at h ⊢
  rwa [hs]

theorem owes_of_find? {s : SweepStage} (hd : Distinct p.sweeps) (h : find? t p.sweeps = some s) :
    p.Owes t s.due := by
  unfold Owes due
  rw [((perm_without hd h).map _).sum_nat]
  rfl

theorem owes_zero (h : find? t p.sweeps = none) : p.Owes t 0 := by
  unfold Owes
  rw [dropSweep, without_of_find?_eq_none h, Nat.zero_add]

/-- A pass returns this number, some of which has been counted just now. -/
theorem reports_endSweep {n k : Nat} (hf : q.metrics.borrowFailures = p.metrics.borrowFailures)
    (he : q.metrics.evictions.value = p.metrics.evictions.value + k.toUInt64)
    (h : p.due + k = n + (q.dropSweep t).due) : Reports ins p (q.endSweep t n) where
  failures := by simp [endSweep, Event.isFailure, hf]
  evictions := ⟨k, he, h.symm⟩
  refused := fun u f hm => by simp [endSweep] at hm

/-- The same if the pass goes on with it. -/
theorem reports_topUp {n k : Nat} (hf : q.metrics.borrowFailures = p.metrics.borrowFailures)
    (he : q.metrics.evictions.value = p.metrics.evictions.value + k.toUInt64)
    (h : p.due + k = n + (q.dropSweep t).due) : Reports ins p (q.topUp t n) := by
  unfold topUp
  split
  · refine ⟨by simp [pause, acquire, Event.isFailure, hf], ⟨k, he, ?_⟩, by simp⟩
    rw [h]
    simp [due, pause, putAt, dropSweep, acquire, Event.evicted, SweepStage.due, Nat.add_comm]
  · exact reports_endSweep hf he h

theorem reports_endExamination {pass : Pass} (h : p.Owes t 0) :
    Reports ins p (p.endExamination t pass) := by
  have hd : p.due + pass.closed = pass.closed + (p.dropSweep t).due := by
    rw [h, Nat.zero_add, Nat.add_comm]
  unfold endExamination
  refine reports_topUp ?_ ?_ hd
  · rfl
  · rfl

theorem reports_examine {left : Nat} {pass : Pass} (hd : p.Owes t 0) :
    Reports ins p (p.examine now t left pass) := by
  induction left generalizing p pass with
  | zero => exact reports_endExamination hd
  | succ left ih =>
      unfold examine
      split
      · exact reports_endExamination hd
      split
      · exact reports_endExamination hd
      · rename_i e _
        dsimp only
        split
        · -- The pass waits for a ping and has counted nothing meanwhile.
          refine ⟨by simp [pause, acquire, setIdle, Event.isFailure], ⟨0, ?_, ?_⟩, by simp⟩
          · simp [pause, acquire, setIdle]
          · rw [hd]
            simp [pause, acquire, setIdle, putAt, due, dropSweep, Event.evicted, SweepStage.due]
        · have hs : Calm p (((p.setIdle (p.idle.eraseIdx pass.kept)).acquire).settle e
              (!p.isStale now p.idle.length e) pass).1 := calm_settle.of_eq rfl rfl rfl
          have hr := hs.andThen calm_release
          exact hr.reports.andThen (ih (hd.congr hr.sweeps))

theorem reports_sweep (ht : find? t p.sweeps = none) : Reports ins p (p.sweep now t) := by
  unfold sweep
  split
  · exact reports_endSweep (k := 0) rfl (by simp) (owes_zero ht)
  · exact reports_examine (owes_zero ht)

theorem reports_sweepPinged {alive : Bool} (hd : Distinct p.sweeps) :
    Reports ins p (p.sweepPinged now t alive) := by
  unfold sweepPinged
  split
  · rename_i e left pass hs
    have ho : p.Owes t 0 := owes_of_find? hd hs
    -- Whatever the answer, the connection leaves the examination and the pass owes nothing.
    have hq {q : Pool} (hf : q.metrics.borrowFailures = p.metrics.borrowFailures)
        (he : q.metrics.evictions = p.metrics.evictions) (hw : q.sweeps = without t p.sweeps) :
        Reports ins p (((q.settle e alive pass).1.andThen release).andThen
          (examine now t left (q.settle e alive pass).2)) := by
      have hr : Calm q ((q.settle e alive pass).1.andThen release) :=
        calm_settle.andThen calm_release
      have ht : find? t ((q.settle e alive pass).1.andThen release).state.sweeps = none := by
        rw [hr.sweeps, hw, find?_without]
      refine (hr.reports.andThen (reports_examine (owes_zero ht))).of_eq hf he ?_
      rw [ho, Nat.zero_add]
      exact due_congr hw
    cases alive with
    | true => exact hq rfl rfl rfl
    | false => exact hq rfl rfl rfl
  · exact calm_refl.reports

theorem reports_sweepConnected {result : Except Fault Link} (hd : Distinct p.sweeps) :
    Reports ins p (p.sweepConnected now t result) := by
  unfold sweepConnected
  split
  · rename_i closed hs
    have ho : p.Owes t closed := owes_of_find? hd hs
    split
    · rename_i link
      have hp : Calm p (p.countCreated.park now link) := calm_park.of_eq rfl rfl rfl
      have hr := hp.andThen calm_release
      exact hr.reports.andThen (reports_topUp (k := 0) rfl (by simp) (ho.congr hr.sweeps))
    · rename_i f
      have hn : Calm p ⟨p, [.notice (.refillFailed p.addr f)]⟩ := calm_wait rfl rfl rfl
      have hr := hn.andThen calm_release
      exact hr.reports.andThen (reports_endSweep (k := 0) rfl (by simp) (ho.congr hr.sweeps))
  · exact calm_refl.reports

/-! ### Moves as a whole -/

theorem reports_pinged {alive : Bool} (hd : Distinct p.sweeps) :
    Reports ins p (p.step now (.pinged t alive)) := by
  simp only [step]
  split
  · exact calm_borrowPinged.reports
  · exact calm_returnPinged.reports
  · exact reports_sweepPinged hd
  · exact calm_refl.reports

theorem missed_mem_inputs {g : Fault} (hw : p.waiting? t = some .borrow)
    (hb : find? t p.borrows = some .connecting) :
    .missed t g ∈ p.inputs (.connected t (.error g)) := by
  simp [inputs, hand?, hw, hb, BorrowStage.hand?]

theorem reports_connected {result : Except Fault Link} (hd : Distinct p.sweeps) :
    Reports (p.inputs (.connected t result)) p (p.step now (.connected t result)) := by
  simp only [step]
  split
  · rename_i hw
    apply reports_borrowConnected
    rintro g rfl hb
    exact missed_mem_inputs hw hb
  · exact reports_sweepConnected hd
  · exact calm_refl.reports

theorem reports_step {m : Move} (hd : Distinct p.sweeps) (ha : p.Accepts m) (now : Nat) :
    Reports (p.inputs m) p (p.step now m) := by
  cases m with
  | borrow t => exact reports_borrow
  | takeUp t => exact reports_takeUp
  | expire t => exact reports_expire
  | abandon t => exact calm_abandon.reports
  | giveBack t link healthy => exact calm_giveBack.reports
  | letGo link => exact calm_letGo.reports
  | sweep t => exact reports_sweep (waiting?_eq_none.mp ha).2.2
  | pinged t alive => exact reports_pinged hd
  | connected t result => exact reports_connected hd
  | shutdown => exact calm_shutdown.reports

/-! ## Stories -/

namespace Story

variable {node : Node} {tuning : Config.PoolTuning} {s : Story} {m : Move} {ms : List (Nat × Move)}

/-- What each of the moves adds to the past. -/
def chapters (s : Story) : List (Nat × Move) → List (List Event)
  | [] => []
  | (now, m) :: ms => s.news now m :: (s.next now m).chapters ms

theorem past_play : (s.play ms).past = s.past ++ (s.chapters ms).flatten := by
  induction ms generalizing s with
  | nil => simp [play, chapters]
  | cons x ms ih =>
      rw [play, ih, chapters, List.flatten_cons, ← List.append_assoc]
      rfl

theorem isFailure_failed {chapter : List Event} {t : Ticket} {f : Fault} :
    Event.isFailure chapter (.told (.failed t f)) = true ↔
      (∃ addr waited, f = .poolExhausted addr waited) ∨ .missed t f ∈ chapter := by
  cases f <;> simp [Event.isFailure]

theorem missed_mem_news {t : Ticket} {f : Fault} :
    .missed t f ∈ s.news now m ↔ .missed t f ∈ s.pool.inputs m := by
  simp [news, Pool.tell]

theorem isFailure_news (e : Event) :
    Event.isFailure (s.news now m) e = Event.isFailure (s.pool.inputs m) e := by
  unfold Event.isFailure
  split
  · rfl
  · exact decide_eq_decide.mpr missed_mem_news
  · rfl

theorem failures_news :
    failures (s.news now m) =
      (Pool.tell (s.pool.step now m).effects).countP (Event.isFailure (s.pool.inputs m)) := by
  have hi : (s.pool.inputs m).countP (Event.isFailure (s.pool.inputs m)) = 0 := by
    rw [List.countP_eq_zero]
    intro e he
    cases e with
    | told e => exact absurd he (told_notMem_inputs _ _ e)
    | _ => simp [Event.isFailure]
  unfold failures
  rw [List.countP_congr fun e _ => by rw [isFailure_news], news, List.countP_append, hi,
    Nat.zero_add]

theorem sweepings_news :
    sweepings (s.news now m) = sweepings (Pool.tell (s.pool.step now m).effects) := by
  have hi : sweepings (s.pool.inputs m) = 0 := by
    apply List.sum_eq_zero_iff_forall_eq_nat.mpr
    intro n hn
    obtain ⟨e, he, rfl⟩ := List.mem_map.mp hn
    cases e with
    | told e => exact absurd he (told_notMem_inputs _ _ e)
    | _ => rfl
  rw [news, sweepings_append, hi, Nat.zero_add]

/-- The counters tell the history, in which so many borrowers failed. -/
structure Tallied (s : Story) (failures : Nat) : Prop where
  borrows : s.pool.metrics.borrows.Shows (loans s.past)
  borrowFailures : s.pool.metrics.borrowFailures.Shows failures
  validationFailures : s.pool.metrics.validationFailures.Shows (silences s.past)
  created : s.pool.metrics.created.Shows (openings s.past).length
  evictions : s.pool.metrics.evictions.Shows (sweepings s.past + s.pool.due)

theorem tallied_start : (start node tuning).Tallied 0 := ⟨rfl, rfl, rfl, rfl, rfl⟩

theorem Tallied.next {k : Nat} (h : s.Tallied k) (hk : s.Kept) (hn : s.now ≤ now)
    (ha : s.Admits m) : (s.next now m).Tallied (k + failures (s.news now m)) := by
  have hs := (hk.reaches hn ha).steps
  rw [Ledger.add_zero] at hs
  have hr : Reports (s.pool.inputs m) s.pool (s.pool.step now m) :=
    reports_step hk.coherent.sweeps ha.accepts now
  have hp : (s.next now m).past = s.past ++ s.news now m := rfl
  constructor
  · rw [hp, loans_append]
    exact h.borrows.next hs.borrows_eq
  · rw [failures_news]
    exact h.borrowFailures.next hr.failures
  · rw [hp, silences_append]
    exact h.validationFailures.next hs.validationFailures_eq
  · rw [hp, openings_append, List.length_append]
    exact h.created.next hs.created_eq
  · obtain ⟨n, he, hd⟩ := hr.evictions
    have hsum : sweepings s.past + s.pool.due + n =
        sweepings (s.past ++ s.news now m) + (s.next now m).pool.due := by
      rw [sweepings_append, sweepings_news, Nat.add_assoc, ← hd, Nat.add_assoc]
      rfl
    rw [hp, ← hsum]
    exact h.evictions.next he

theorem Tallied.play {k : Nat} (h : s.Tallied k) (hk : s.Kept) (hp : s.Plays ms) :
    (s.play ms).Tallied (k + ((s.chapters ms).map failures).sum) := by
  induction ms generalizing s k with
  | nil => exact h
  | cons x ms ih =>
      obtain ⟨hn, ha, hr⟩ := hp
      rw [chapters, List.map_cons, List.sum_cons, ← Nat.add_assoc]
      exact ih (h.next hk hn ha) (hk.next hn ha) hr

/-- What a borrower gets when it gets no connection, and when that is not counted. -/
theorem refused_of_plays (hk : s.Kept) (hp : s.Plays ms) {chapter : List Event} {t : Ticket}
    {f : Fault} (hc : chapter ∈ s.chapters ms) (hf : .told (.failed t f) ∈ chapter) :
    Event.isFailure chapter (.told (.failed t f)) = true ∨ ∃ addr, f = .poolClosed addr := by
  induction ms generalizing s with
  | nil => cases hc
  | cons x ms ih =>
      obtain ⟨hn, ha, hr⟩ := hp
      rcases List.mem_cons.mp hc with rfl | hc
      · have hm := (List.mem_append.mp hf).resolve_left (told_notMem_inputs _ _ _)
        rw [isFailure_news]
        exact (reports_step hk.coherent.sweeps ha.accepts x.1).refused t f (mem_tell.mp hm)
      · exact ih (hk.next hn ha) hr hc

theorem due_of_atRest {p : Pool} (h : p.AtRest) : p.due = 0 := by
  rw [due, h.sweeps]
  rfl

/-- The counters of a pool tell its history, whatever operations ran side by side. A borrower that
got no connection counts if no permit was to be had in time or the connector failed, and not if the
pool was closed. Only an eviction pass in progress may have counted what it has not returned yet. -/
theorem counters_tell (h : (start node tuning).Plays ms) :
    let s := (start node tuning).play ms
    let chapters := (start node tuning).chapters ms
    s.past = chapters.flatten ∧
      s.pool.metrics.borrows.Shows (loans s.past) ∧
      s.pool.metrics.borrowFailures.Shows (chapters.map failures).sum ∧
      (∀ chapter ∈ chapters, ∀ t f, .told (.failed t f) ∈ chapter →
        (∃ addr waited, f = .poolExhausted addr waited) ∨ .missed t f ∈ chapter ∨
          ∃ addr, f = .poolClosed addr) ∧
      s.pool.metrics.validationFailures.Shows (silences s.past) ∧
      s.pool.metrics.created.Shows (openings s.past).length ∧
      s.pool.metrics.evictions.Shows (sweepings s.past + s.pool.due) ∧
      (s.pool.AtRest → s.pool.metrics.evictions.Shows (sweepings s.past)) := by
  intro s chapters
  have ht : s.Tallied (chapters.map failures).sum := by
    simpa using tallied_start.play kept_start h
  refine ⟨past_play, ht.borrows, ht.borrowFailures, ?_, ht.validationFailures,
    ht.created, ht.evictions, fun hr => ?_⟩
  · intro chapter hc t f hf
    rw [← or_assoc, ← isFailure_failed]
    exact refused_of_plays kept_start h hc hf
  · have he := ht.evictions
    rwa [due_of_atRest hr, Nat.add_zero] at he

/-- A pool of one connection, for which nobody waits. -/
def single : Config.PoolTuning :=
  { maxTotal := 1, maxWaitMs := 0, testOnBorrow := true, minEvictableIdleMs := 10 }

/-- One borrower finds no permit, another one a dead connection and then none at all, and the last
one a closed pool. -/
def setbacks : List (Nat × Move) :=
  [(0, .borrow 0), (1, .connected 0 (.ok 0)), (2, .borrow 1), (3, .giveBack 2 0 true),
    (4, .borrow 3), (5, .pinged 3 false), (6, .connected 3 (.error (.timeout "link"))),
    (7, .borrow 4), (8, .connected 4 (.ok 1)), (9, .giveBack 5 1 true), (20, .sweep 6),
    (21, .shutdown), (22, .borrow 7)]

theorem counters_tell_setbacks :
    (start default single).Plays setbacks ∧ ((start default single).play setbacks).pool.AtRest ∧
      let m := ((start default single).play setbacks).pool.metrics
      m.borrows.Shows 2 ∧ m.borrowFailures.Shows 2 ∧ m.validationFailures.Shows 1 ∧
        m.created.Shows 2 ∧ m.evictions.Shows 1 := by
  have h : (start default single).Plays setbacks := by decide
  have hr : ((start default single).play setbacks).pool.AtRest :=
    ⟨by decide, by decide, by decide⟩
  obtain ⟨-, hb, hf, -, hv, hc, -, he⟩ := counters_tell h
  exact ⟨h, hr, hb, hf, hv, hc, he hr⟩

end Story

end Pool

end Shardway
