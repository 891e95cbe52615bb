import Shardway.Proofs.Pool.Capacity

/-!
# Counted connections

A pool counts each connection that it opens and each one that it closes. Only a borrower that gives
up during a ping closes its connection uncounted, so without such borrowers the difference of the two
counters is the number of the connections that are there.
-/

namespace Shardway.Pool

namespace Ledger

variable {R : Nat → Parked → List Parked → Prop} {now : Nat} {l l' : Ledger} {es : List Event}

theorem Step.created_eq (h : Step R now l es l') :
    l'.metrics.created.value = l.metrics.created.value + (openings es).length.toUInt64 := by
  cases h with
  | opened => simp [Counter.increment, Counter.add, Event.opened?]
  | @shut l _ =>
      obtain ⟨ho, -, -, -⟩ := events_closeAll l.idle
      simp [ho]
  | say ha => cases ha <;> simp [Event.opened?]
  | _ => simp [Event.opened?]

theorem Steps.created_eq (h : Steps R now l es l') :
    l'.metrics.created.value = l.metrics.created.value + (openings es).length.toUInt64 := by
  induction h with
  | refl => simp
  | cons hs _ ih => simp [ih, hs.created_eq, UInt64.add_assoc]

/-- The gauge of idle connections is set whenever their number changes. -/
theorem Step.idle_gauge (h : Step R now l es l')
    (hl : l.metrics.idle.value = l.idle.length.toUInt64) :
    l'.metrics.idle.value = l'.idle.length.toUInt64 := by
  cases h with
  | take _ | park _ | repark _ _ _ | examined | shut _ => simp [Gauge.set]
  | _ => simpa using hl

theorem Steps.idle_gauge (h : Steps R now l es l')
    (hl : l.metrics.idle.value = l.idle.length.toUInt64) :
    l'.metrics.idle.value = l'.idle.length.toUInt64 := by
  induction h with
  | refl => exact hl
  | cons hs _ ih => exact ih (hs.idle_gauge hl)

end Ledger

/-! ## Counting what is closed -/

/-- The part of a move counts each connection that it closes. -/
def Counts (p : Pool) (r : Reaction) : Prop :=
  r.state.metrics.closed.value =
    p.metrics.closed.value + (closings (tell r.effects)).length.toUInt64

variable {p q : Pool} {t : Ticket} {link : Link} {now : Nat} {r : Reaction} {es : List Effect}

theorem counts_of_eq (hq : q.metrics.closed = p.metrics.closed) (he : closings (tell es) = []) :
    Counts p ⟨q, es⟩ := by
  simp [Counts, hq, he]

theorem Counts.of_eq (h : Counts q r) (hq : q.metrics.closed = p.metrics.closed) : Counts p r := by
  unfold Counts at h ⊢
  rw [h, hq]

theorem Counts.andThen {f : Pool → Reaction} (h : Counts p r) (hf : Counts r.state (f r.state)) :
    Counts p (r.andThen f) := by
  unfold Counts at h hf ⊢
  simp [hf, h, UInt64.add_assoc]

theorem Counts.tell {e : Effect} (h : Counts p r) (he : (Event.told e).closed? = none) :
    Counts p (r.tell e) := by
  simpa [Counts, he] using h

theorem counts_discard : Counts p (p.discard link) := by
  simp [Counts, discard, Counter.increment, Counter.add, Event.closed?]

theorem counts_reject : Counts p (p.reject link) :=
  (counts_discard (p := p.countValidationFailure)).of_eq rfl

theorem counts_release : Counts p p.release := by
  unfold release
  split
  · exact counts_of_eq rfl rfl
  · exact counts_of_eq rfl rfl

theorem counts_park : Counts p (p.park now link) := by
  unfold park
  split
  · exact counts_discard
  · exact counts_of_eq rfl rfl

theorem counts_settle {e : Parked} {keep : Bool} {pass : Pass} :
    Counts p (p.settle e keep pass).1 := by
  unfold settle
  split
  · rename_i q hq
    cases keep with
    | false => cases hq
    | true =>
        obtain ⟨-, rfl⟩ := repark?_eq_some hq
        exact counts_of_eq rfl rfl
  · exact counts_discard

/-! ### Borrowers -/

theorem counts_lend : Counts p (p.lend t) := by
  unfold lend
  split
  · rename_i e q hq
    obtain ⟨i, -, rfl⟩ := takeIdle?_eq_some hq
    split
    · exact counts_of_eq rfl rfl
    · exact counts_of_eq rfl rfl
  · exact counts_of_eq rfl rfl

theorem counts_borrow : Counts p (p.borrow t) := by
  unfold borrow
  split
  · exact counts_of_eq rfl rfl
  split
  · exact (counts_lend (p := p.acquire)).of_eq rfl
  split
  · exact counts_of_eq rfl rfl
  · exact counts_of_eq rfl rfl

theorem counts_takeUp : Counts p (p.takeUp t) := by
  unfold takeUp
  split
  · split
    · exact counts_of_eq rfl rfl
    · exact counts_of_eq rfl rfl
  · split
    · exact ((counts_release (p := p.leave t)).of_eq rfl).tell rfl
    · exact counts_lend
  · exact counts_of_eq rfl rfl

theorem counts_expire : Counts p (p.expire t) := by
  unfold expire
  split
  · split
    · exact counts_of_eq rfl rfl
    · exact counts_of_eq rfl rfl
  · exact counts_of_eq rfl rfl

theorem counts_borrowPinged {alive : Bool} : Counts p (p.borrowPinged t alive) := by
  unfold borrowPinged
  split
  · split
    · exact counts_of_eq rfl rfl
    · exact counts_reject.andThen counts_lend
  · exact counts_of_eq rfl rfl

theorem counts_borrowConnected {result : Except Fault Link} :
    Counts p (p.borrowConnected t result) := by
  unfold borrowConnected
  split
  · split
    · exact counts_of_eq rfl rfl
    · rename_i f
      have ht : Counts p ((⟨p, [.notice (.connectFailed p.addr f)]⟩ : Reaction).andThen
          (turnAway t f)) := counts_of_eq rfl rfl
      exact ht.andThen counts_release
  · exact counts_of_eq rfl rfl

/-! ### Returns -/

theorem counts_endReturn : Counts p (p.endReturn t) :=
  ((counts_release (p := p.dropReturn t)).of_eq rfl).tell rfl

theorem counts_giveBack {healthy : Bool} : Counts p (p.giveBack now t link healthy) := by
  have hb {r : Reaction} (h : Counts (p.takeBack link) r) : Counts p r := h.of_eq rfl
  unfold giveBack
  dsimp only
  split
  · exact hb (counts_discard.andThen counts_endReturn)
  split
  · exact hb (counts_of_eq rfl rfl)
  · exact hb (counts_park.andThen counts_endReturn)

theorem counts_returnPinged {alive : Bool} : Counts p (p.returnPinged now t alive) := by
  unfold returnPinged
  split
  · split
    · exact counts_park.andThen counts_endReturn
    · exact counts_reject.andThen counts_endReturn
  · exact counts_of_eq rfl rfl

theorem counts_letGo : Counts p (p.letGo link) :=
  (counts_discard.andThen counts_release).of_eq (q := p.takeBack link) rfl

/-! ### Eviction passes -/

theorem counts_topUp {n : Nat} : Counts p (p.topUp t n) := by
  unfold topUp
  split
  · exact counts_of_eq rfl rfl
  · exact counts_of_eq rfl rfl

theorem counts_endExamination {pass : Pass} : Counts p (p.endExamination t pass) := by
  unfold endExamination
  exact counts_topUp.of_eq rfl

theorem counts_examine {left : Nat} {pass : Pass} : Counts p (p.examine now t left pass) := by
  induction left generalizing p pass with
  | zero => exact counts_endExamination
  | succ left ih =>
      unfold examine
      split
      · exact counts_endExamination
      split
      · exact counts_endExamination
      · dsimp only
        split
        · exact counts_of_eq rfl rfl
        · rename_i e _ _
          have hs : Counts p (((p.setIdle (p.idle.eraseIdx pass.kept)).acquire).settle e
              (!p.isStale now p.idle.length e) pass).1 := counts_settle.of_eq rfl
          exact (hs.andThen counts_release).andThen ih

theorem counts_sweep : Counts p (p.sweep now t) := by
  unfold sweep
  split
  · exact counts_of_eq rfl rfl
  · exact counts_examine

theorem counts_sweepPinged {alive : Bool} : Counts p (p.sweepPinged now t alive) := by
  unfold sweepPinged
  split
  · rename_i e left pass _
    have hs {q : Pool} (hq : q.metrics.closed = p.metrics.closed) :
        Counts p (((q.settle e alive pass).1.andThen release).andThen
          (examine now t left (q.settle e alive pass).2)) :=
      ((counts_settle.of_eq hq).andThen counts_release).andThen counts_examine
    -- A ping that fails is counted as such, apart from the connection that is closed then.
    cases alive with
    | true => exact hs rfl
    | false => exact hs rfl
  · exact counts_of_eq rfl rfl

theorem counts_sweepConnected {result : Except Fault Link} :
    Counts p (p.sweepConnected now t result) := by
  unfold sweepConnected
  split
  · split
    · exact ((counts_park.of_eq rfl).andThen counts_release).andThen counts_topUp
    · rename_i f
      have hn : Counts p ⟨p, [.notice (.refillFailed p.addr f)]⟩ := counts_of_eq rfl rfl
      exact (hn.andThen counts_release).andThen (counts_of_eq rfl rfl)
  · exact counts_of_eq rfl rfl

/-! ### Moves as a whole -/

theorem counts_shutdown : Counts p p.shutdown := by
  unfold shutdown
  split
  · exact counts_of_eq rfl rfl
  · obtain ⟨-, hc, -, -⟩ := events_closeAll p.idle
    have hw (ts : List Ticket) : closings (tell (ts.map .wake)) = [] := by
      induction ts with
      | nil => rfl
      | cons t ts ih => simpa [Event.closed?] using ih
    simp [Counts, setIdle, Counter.add, hc, hw, Event.closed?]

theorem counts_step {m : Move} (hm : ∀ t, m ≠ .abandon t) : Counts p (p.step now m) := by
  cases m with
  | borrow t => exact counts_borrow
  | takeUp t => exact counts_takeUp
  | expire t => exact counts_expire
  | abandon t => exact absurd rfl (hm t)
  | giveBack t link healthy => exact counts_giveBack
  | letGo link => exact counts_letGo
  | sweep t => exact counts_sweep
  | pinged t alive =>
      simp only [step]
      split
      · exact counts_borrowPinged
      · exact counts_returnPinged
      · exact counts_sweepPinged
      · exact counts_of_eq rfl rfl
  | connected t result =>
      simp only [step]
      split
      · exact counts_borrowConnected
      · exact counts_sweepConnected
      · exact counts_of_eq rfl rfl
  | shutdown => exact counts_shutdown

/-! ## Stories -/

theorem closings_inputs (p : Pool) (m : Move) : closings (p.inputs m) = [] := by
  rw [List.eq_nil_iff_forall_not_mem]
  intro link hl
  exact Story.told_notMem_inputs p m (.close link) (mem_closings.mp hl)

namespace Story

/-- A story goes on, and every borrower waits until it has a connection or a fault. -/
inductive Completes (s : Story) : Story → Prop
  | refl : Completes s s
  | next {s' : Story} {now : Nat} {m : Move} :
      Completes s s' → s'.now ≤ now → s'.Admits m → (∀ t, m ≠ .abandon t) →
      Completes s (s'.next now m)

variable {node : Node} {tuning : Config.PoolTuning} {s s' : Story}

theorem Completes.leads (h : Completes s s') : Leads s s' := by
  induction h with
  | refl => exact .refl
  | next _ hn ha _ ih => exact ih.next hn ha

theorem Leads.created_eq (h : Leads (start node tuning) s) :
    s.pool.metrics.created.value = (openings s.past).length.toUInt64 := by
  induction h with
  | refl => rfl
  | @next s now m h hn ha ih =>
      have hs := ((h.kept kept_start).reaches hn ha).steps.created_eq
      rw [Ledger.add_zero] at hs
      simp only [ledger_metrics, ih] at hs
      simpa [Story.next, news] using hs

theorem Leads.idle_gauge (h : Leads (start node tuning) s) :
    s.pool.metrics.idle.value = s.pool.idle.length.toUInt64 := by
  induction h with
  | refl => rfl
  | @next s now m h hn ha ih =>
      have hs := ((h.kept kept_start).reaches hn ha).steps.idle_gauge ih
      rwa [Ledger.add_zero] at hs

theorem Completes.closed_eq (h : Completes (start node tuning) s) :
    s.pool.metrics.closed.value = (closings s.past).length.toUInt64 := by
  induction h with
  | refl => rfl
  | @next s now m _ _ _ hm ih =>
      have hc : Counts s.pool (s.pool.step now m) := counts_step hm
      unfold Counts at hc
      rw [ih] at hc
      simpa [Story.next, news, closings_inputs] using hc

theorem toNat_toUInt64 {n : Nat} (h : n < 2 ^ 64) : n.toUInt64.toNat = n := by
  simp only [Nat.toUInt64_eq, UInt64.toNat_ofNat']
  exact Nat.mod_eq_of_lt h

/-- Every connection is accounted for. The counters count what was opened and what was closed, and
the rest of what was opened is there: idle, with a borrower or under a ping. What was closed is gone
for good, and the gauge shows how many connections are idle, which are not too many. -/
theorem connections_accounted (hw : tuning.maxIdle < 2 ^ 64)
    (h : Completes (start node tuning) s) :
    (s.pool.metrics.created.value = (openings s.past).length.toUInt64 ∧
      s.pool.metrics.closed.value = (closings s.past).length.toUInt64 ∧
      (openings s.past).length = (closings s.past).length + s.pool.links.length ∧
      ((openings s.past).length < 2 ^ 64 → s.pool.metrics.created.value.toNat =
        s.pool.metrics.closed.value.toNat + s.pool.links.length)) ∧
    (∀ link, .told (.close link) ∈ s.past → ∀ s', Leads s s' → link ∉ s'.pool.links) ∧
    s.pool.metrics.idle.value.toNat = s.pool.idle.length ∧ s.pool.idle.length ≤ tuning.maxIdle := by
  have hk := h.leads.kept kept_start
  have ht : s.pool.tuning = tuning := h.leads.tuning_eq kept_start
  have hl : (openings s.past).length = (closings s.past).length + s.pool.links.length := by
    rw [← (perm_openings hk.sound).length_eq, List.length_append]
  have hi : s.pool.idle.length ≤ tuning.maxIdle := ht ▸ hk.sound.idle_le
  refine ⟨⟨h.leads.created_eq, h.closed_eq, hl, fun hn => ?_⟩, fun link hc s' hs => ?_, ?_, hi⟩
  · rw [h.leads.created_eq, h.closed_eq, toNat_toUInt64 hn, toNat_toUInt64 (by omega), hl]
  · have hk' := hs.kept hk
    obtain ⟨es, he⟩ := hs.exists_past_eq
    intro hm
    have hn := ((mem_links hk'.sound hk'.fresh).mp hm).2
    exact hn (he ▸ List.mem_append_left es hc)
  · rw [h.leads.idle_gauge, toNat_toUInt64 (by omega)]

theorem Completes.play {ms : List (Nat × Move)} (h : Completes s s') (hp : s'.Plays ms)
    (hm : ∀ x ∈ ms, ∀ t, x.2 ≠ .abandon t) : Completes s (s'.play ms) := by
  induction ms generalizing s' with
  | nil => exact h
  | cons x ms ih =>
      obtain ⟨hn, ha, hr⟩ := hp
      obtain ⟨hx, hms⟩ := List.forall_mem_cons.mp hm
      exact ih (h.next hn ha hx) hr hms

/-- One borrower lets go of its connection, and the connection of another one, once returned, does
not answer when a third borrower comes. -/
def losses : List (Nat × Move) :=
  [(0, .borrow 0), (0, .borrow 1), (1, .connected 0 (.ok 0)), (1, .connected 1 (.ok 1)),
    (2, .giveBack 2 0 true), (3, .letGo 1), (4, .borrow 3), (5, .pinged 3 false),
    (6, .connected 3 (.ok 2))]

theorem connections_accounted_losses :
    let s := (start default { testOnBorrow := true }).play losses
    closings s.past = [1, 0] ∧ s.pool.links = [2] ∧
      s.pool.metrics.created.value = (openings s.past).length.toUInt64 ∧
      (openings s.past).length = (closings s.past).length + s.pool.links.length ∧
      ∀ s', Leads s s' → 0 ∉ s'.pool.links := by
  intro s
  have h : Completes (start default { testOnBorrow := true }) s :=
    Completes.refl.play (by decide) (by simp [losses])
  obtain ⟨⟨hc, -, hl, -⟩, hg, -⟩ := connections_accounted (by decide) h
  exact ⟨by decide, by decide, hc, hl, hg 0 (by decide)⟩

end Story

end Shardway.Pool
