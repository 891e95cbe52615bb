import Shardway.Proofs.Pool.Refinement
import Mathlib.Data.List.InsertIdx

/-!
# Eviction, closing, and moves as a whole

The steps of an eviction pass. The one place where a connection goes back among idle ones that may
have changed meanwhile is after its ping, so only there `R` is asked for.
-/

namespace Shardway.Pool

variable {R : Nat → Parked → List Parked → Prop} {now : Nat} {p : Pool} {t : Ticket} {link : Link}

/-! ## Eviction -/

theorem Coherent.endSweep {closed : Nat} (h : p.Coherent now) :
    Reaches R now (p.dropSweep t).ledger [] 0 (p.endSweep t closed) := by
  refine .of_step ?_ h.dropSweep
  rw [Ledger.add_zero]
  exact .say .swept

theorem Coherent.topUp {closed : Nat} (h : p.Coherent now) :
    Reaches R now (p.dropSweep t).ledger [] 0 (p.topUp t closed) := by
  unfold Pool.topUp
  split
  · rename_i hn
    simp only [needsIdle, Bool.and_eq_true, decide_eq_true_eq] at hn
    obtain ⟨⟨-, -, hroom⟩, hf⟩ := hn
    have hc : p.acquire.Coherent now := { h with }
    refine .after (.acquire hf) (.of_step ?_ (hc.pause fun _ _ _ hs => by cases hs))
    rw [Ledger.add_zero, ledger_pause]
    refine .dial ?_
    simp only [inUse] at hroom
    simp [Pool.dropSweep]
    omega
  · exact h.endSweep

theorem Coherent.endExamination {pass : Pass} (h : p.Coherent now)
    (ht : find? t p.sweeps = none) :
    Reaches R now p.ledger [] 0 (p.endExamination t pass) := by
  have hc : ({ p with metrics := { p.metrics with
      evictions := p.metrics.evictions.add pass.closed.toUInt64 } } : Pool).Coherent now :=
    { h with }
  have hl : p.ledger = (p.dropSweep t).ledger := by rw [dropSweep_eq_self ht]
  rw [hl]
  exact .after .count hc.topUp

theorem repark?_eq_some {kept : Nat} {e : Parked} {q : Pool} (h : p.repark? kept e = some q) :
    p.isFull = false ∧ q = p.setIdle (p.idle.insertIdx (min kept p.idle.length) e) := by
  unfold repark? at h
  split at h
  · cases h
  · rename_i hf
    exact ⟨by simpa using hf, (Option.some.inj h).symm⟩

/-- An examined connection goes back to a place that `R` holds of, or is closed. -/
theorem Coherent.settle {e : Parked} {keep : Bool} {pass : Pass} (h : p.Coherent now)
    (he : e.since ≤ now)
    (hR : keep = true → p.isFull = false →
      R (min pass.kept p.idle.length) e p.idle) :
    Reaches R now (p.ledger.add {.holds e.link}) [] {.empty} (p.settle e keep pass).1 := by
  unfold Pool.settle
  split
  · rename_i q hq
    cases keep with
    | false => cases hq
    | true =>
        obtain ⟨hf, rfl⟩ := repark?_eq_some hq
        have hk : min pass.kept p.idle.length ≤ p.ledger.idle.length := Nat.min_le_right ..
        refine .of_step (.repark (hasPlace_of_isFull hf) hk (hR rfl hf)) (h.setIdle fun x hx => ?_)
        rcases List.eq_or_mem_of_mem_insertIdx hx with rfl | hx
        · exact he
        · exact h.since_le x hx
  · exact h.discard

/-- A connection that is examined and kept at once stays where it is. -/
theorem Coherent.settle_eraseIdx {e : Parked} {keep : Bool} {pass : Pass} (h : p.Coherent now)
    (hi : p.idle[pass.kept]? = some e) :
    Reaches R now (p.ledger.add {.empty}) [] {.empty}
      ((p.setIdle (p.idle.eraseIdx pass.kept)).settle e keep pass).1 := by
  have hc : (p.setIdle (p.idle.eraseIdx pass.kept)).Coherent now :=
    h.setIdle fun x hx => h.since_le x (List.mem_of_mem_eraseIdx hx)
  unfold Pool.settle
  split
  · rename_i q hq
    cases keep with
    | false => cases hq
    | true =>
        obtain ⟨-, rfl⟩ := repark?_eq_some hq
        obtain ⟨hlt, rfl⟩ := List.getElem?_eq_some_iff.mp hi
        have hk : min pass.kept (p.idle.eraseIdx pass.kept).length = pass.kept := by
          rw [List.length_eraseIdx_of_lt hlt]
          omega
        have hl : ((p.setIdle (p.idle.eraseIdx pass.kept)).setIdle
            ((p.idle.eraseIdx pass.kept).insertIdx
              (min pass.kept (p.idle.eraseIdx pass.kept).length) p.idle[pass.kept])) =
            p.setIdle p.idle := by
          rw [hk, List.insertIdx_eraseIdx_getElem hlt]
          rfl
        change Reaches R now _ [] _ ⟨(p.setIdle (p.idle.eraseIdx pass.kept)).setIdle
          ((p.idle.eraseIdx pass.kept).insertIdx
            (min pass.kept (p.idle.eraseIdx pass.kept).length) p.idle[pass.kept]), []⟩
        rw [hl]
        exact .of_step .examined (h.setIdle h.since_le)
  · exact .after (.take hi) hc.discard

theorem settle_state (e : Parked) (keep : Bool) (pass : Pass) :
    ∃ idle metrics, (p.settle e keep pass).1.state = { p with idle, metrics } := by
  unfold Pool.settle
  split
  · rename_i q hq
    cases keep with
    | false => cases hq
    | true =>
        obtain ⟨-, rfl⟩ := repark?_eq_some hq
        exact ⟨_, _, rfl⟩
  · exact ⟨_, _, rfl⟩

@[simp] theorem settle_tuning (e : Parked) (keep : Bool) (pass : Pass) :
    (p.settle e keep pass).1.state.tuning = p.tuning := by
  obtain ⟨idle, metrics, hs⟩ := p.settle_state e keep pass
  rw [hs]

@[simp] theorem settle_sweeps (e : Parked) (keep : Bool) (pass : Pass) :
    (p.settle e keep pass).1.state.sweeps = p.sweeps := by
  obtain ⟨idle, metrics, hs⟩ := p.settle_state e keep pass
  rw [hs]

theorem Coherent.ping {e : Parked} {left : Nat} {pass : Pass} (h : p.Coherent now)
    (ht : find? t p.sweeps = none) (hx : Examined now p.tuning e left) :
    Reaches R now (p.ledger.add {.holds e.link}) [] 0
      ⟨p.pause t (.pinging e left pass), [.ping t e.link]⟩ := by
  refine .of_step ?_ (h.pause fun _ _ _ hs => by cases hs; exact hx)
  rw [Ledger.add_zero, ledger_pause, dropSweep_eq_self ht]
  exact .say (.ping (Multiset.mem_add.mpr (.inl (Multiset.mem_singleton_self _))))

theorem Coherent.examine {left : Nat} {pass : Pass} (h : p.Coherent now)
    (ht : find? t p.sweeps = none) (hl : left ≤ p.tuning.testsPerEviction) :
    Reaches R now p.ledger [] 0 (p.examine now t left pass) := by
  induction left generalizing p pass with
  | zero => exact h.endExamination ht
  | succ left ih =>
      unfold Pool.examine
      split
      · exact h.endExamination ht
      rename_i hf
      simp only [Bool.or_eq_true, decide_eq_true_eq, not_or] at hf
      split
      · exact h.endExamination ht
      rename_i e he
      have ha : p.acquire.Coherent now := { h with }
      have hse : e.since ≤ now := h.since_le e (List.mem_of_getElem? he)
      refine .after (.acquire (Nat.pos_of_ne_zero hf.2)) ?_
      dsimp only
      split
      · rename_i hp
        simp only [isStale, Bool.and_eq_true, Bool.not_eq_true', Bool.or_eq_false_iff,
          decide_eq_false_iff_not, not_le] at hp
        obtain ⟨⟨hm, -⟩, hw⟩ := hp
        have hc : (p.acquire.setIdle (p.idle.eraseIdx pass.kept)).Coherent now :=
          ha.setIdle fun x hx => h.since_le x (List.mem_of_mem_eraseIdx hx)
        exact .after (.take (l := p.acquire.ledger) he)
          (hc.ping ht ⟨hw, Nat.zero_lt_of_lt hm, hl, hse⟩)
      · refine ((ha.settle_eraseIdx he).andThen fun hc => hc.release).andThen fun hc => ?_
        rw [Ledger.add_zero]
        refine ih hc ?_ ?_
        · simp only [Reaction.andThen_state, release_sweeps, settle_sweeps]
          exact ht
        · simp only [Reaction.andThen_state, release_tuning, settle_tuning]
          exact Nat.le_of_lt hl

theorem Coherent.sweep (h : p.Coherent now) (ht : find? t p.sweeps = none) :
    Reaches R now p.ledger [] 0 (p.sweep now t) := by
  unfold Pool.sweep
  split
  · have : Reaches R now (p.dropSweep t).ledger [] 0 (p.endSweep t 0) := h.endSweep
    rwa [dropSweep_eq_self ht] at this
  · exact h.examine ht le_rfl

theorem Coherent.sweepPinged {alive : Bool} {e : Parked} {left : Nat} {pass : Pass}
    (h : p.Coherent now) (hs : find? t p.sweeps = some (.pinging e left pass))
    (hR : alive = true → p.isFull = false → R (min pass.kept p.idle.length) e p.idle) :
    Reaches R now p.ledger (if alive then [] else [.silent t]) 0 (p.sweepPinged now t alive) := by
  obtain ⟨-, -, hl, he⟩ := h.examined t e left pass (mem_of_find? hs)
  have hh : p.ledger = (p.dropSweep t).ledger.add {.holds e.link} := h.ledger_dropSweep hs
  rw [hh]
  simp only [Pool.sweepPinged, hs]
  have hc := h.dropSweep (t := t)
  -- Examination goes on in the same way in both cases.
  have hex {r : Reaction} {pass : Pass} {pre : List Event}
      (hr : Reaches R now ((p.dropSweep t).ledger.add {.holds e.link}) pre {.empty} r)
      (hts : r.state.tuning = p.tuning) (hss : r.state.sweeps = without t p.sweeps) :
      Reaches R now ((p.dropSweep t).ledger.add {.holds e.link}) pre 0
        ((r.andThen Pool.release).andThen (Pool.examine now t left pass)) := by
    refine (hr.andThen fun hc => hc.release).andThen fun hc => ?_
    rw [Ledger.add_zero]
    refine hc.examine ?_ ?_
    · simp only [Reaction.andThen_state, release_sweeps, hss, find?_without]
    · simp only [Reaction.andThen_state, release_tuning, hts]
      exact hl.le
  cases alive with
  | true =>
      refine hex (hc.settle he fun _ hf => hR rfl hf) ?_ ?_
      · simp only [if_true, settle_tuning]
      · simp only [if_true, settle_sweeps]
  | false =>
      simp only [Bool.false_eq_true, if_false]
      exact hex hc.reject rfl rfl

/-! Parking and giving back a permit do not look at the eviction passes. -/

theorem park_dropSweep :
    (p.dropSweep t).park now link = (p.park now link).lift (dropSweep t) id := by
  unfold Pool.park
  change (if p.isFull = true then _ else _) = _
  split <;> rfl

theorem release_dropSweep : (p.dropSweep t).release = p.release.lift (dropSweep t) id := by
  cases hc : p.closed <;> cases hg : grant? p.borrows <;>
    simp [Pool.release, dropSweep, hc, hg, Reaction.lift]

/-- A pass stays among those that wait until `f` takes it out. -/
theorem Reaches.andThen_dropSweep {l : Ledger} {pre : List Event} {r : Reaction}
    {f : Pool → Reaction} (h : Reaches R now l pre {.empty} (r.lift (dropSweep t) id))
    (hc : r.state.Coherent now)
    (hf : ∀ {q : Pool}, q.Coherent now → Reaches R now (q.dropSweep t).ledger [] 0 (f q)) :
    Reaches R now l pre 0 ((r.andThen Pool.release).andThen f) := by
  have hq : r.state.release.state.Coherent now := (hc.release (R := R)).coherent
  have hr : Reaches R now l pre 0 ((r.andThen Pool.release).lift (dropSweep t) id) := by
    have := h.andThen fun hc => hc.release
    simpa [Reaction.andThen, Reaction.lift, release_dropSweep] using this
  have hs := hr.steps.trans (hf hq).steps
  refine ⟨?_, (hf hq).coherent⟩
  simpa [Reaction.andThen, Reaction.lift] using hs

theorem Coherent.sweepConnected_ok {closed : Nat} (h : p.Coherent now)
    (hs : find? t p.sweeps = some (.connecting closed)) :
    Reaches R now p.ledger [.opened link] 0 (p.sweepConnected now t (.ok link)) := by
  have hl : p.ledger = (p.dropSweep t).ledger.add {.dialing} := h.ledger_dropSweep hs
  have hc : p.countCreated.Coherent now := { h with }
  simp only [Pool.sweepConnected, hs]
  rw [hl]
  refine .after .opened (.andThen_dropSweep (t := t) ?_ (hc.park (R := R)).coherent (·.topUp))
  rw [← park_dropSweep]
  exact hc.dropSweep.park

theorem Coherent.sweepConnected_error {closed : Nat} {f : Fault} (h : p.Coherent now)
    (hs : find? t p.sweeps = some (.connecting closed)) :
    Reaches R now p.ledger [.missed t f] 0 (p.sweepConnected now t (.error f)) := by
  have hl : p.ledger = (p.dropSweep t).ledger.add {.dialing} := h.ledger_dropSweep hs
  simp only [Pool.sweepConnected, hs]
  rw [hl]
  refine .after (.say .missed) (.after .hangUp (.andThen_dropSweep (t := t) ?_ h (·.endSweep)))
  exact .of_step (.say .notice) h.dropSweep

/-! ## Closing -/

theorem Coherent.shutdown (h : p.Coherent now) : Reaches R now p.ledger [] 0 p.shutdown := by
  unfold Pool.shutdown
  split
  · exact .refl h
  · rename_i hc
    have hc : p.ledger.closed = false := by simpa using hc
    refine ⟨?_, { h with since_le := fun _ he => by cases he }⟩
    have hs : Ledger.Steps R now p.ledger _ _ := (Ledger.Step.shut hc).single
    have hn (l : Ledger) :
        Ledger.Steps R now l [.told (.notice (.poolShutDown p.addr p.idle.length))] l :=
      (Ledger.Step.say .notice).single
    have := (hs.trans (.wake p.queue)).trans (hn _)
    simpa [Ledger.add, hands, Pool.setIdle] using this

/-! ## Moves -/

/-- What the operation under the ticket has in hand. -/
def hand? (t : Ticket) (p : Pool) : Option Hand :=
  match p.waiting? t with
  | some .borrow => (find? t p.borrows).bind (·.hand?)
  | some .giveBack => (find? t p.returns).map .holds
  | some .sweep => (find? t p.sweeps).map (·.hand)
  | none => none

/-- What a move brings to the pool from outside. -/
def inputs (p : Pool) : Move → List Event
  | .pinged t alive =>
    match p.hand? t with
    | some (.holds _) => if alive then [] else [.silent t]
    | _ => []
  | .connected t (.ok link) => if p.hand? t = some .dialing then [.opened link] else []
  | .connected t (.error f) => if p.hand? t = some .dialing then [.missed t f] else []
  | .giveBack _ link _ => [.back link]
  | .letGo link => [.back link]
  | _ => []

/-- A new operation comes under a new ticket, and only what is lent comes back. -/
def Accepts (p : Pool) : Move → Prop
  | .borrow t => p.waiting? t = none
  | .giveBack t link _ => p.waiting? t = none ∧ link ∈ p.lent
  | .letGo link => link ∈ p.lent
  | .sweep t => p.waiting? t = none
  | _ => True

theorem waiting?_eq_none : p.waiting? t = none ↔
    find? t p.borrows = none ∧ find? t p.returns = none ∧ find? t p.sweeps = none := by
  unfold waiting?
  cases find? t p.borrows <;> cases find? t p.returns <;> cases find? t p.sweeps <;> simp

theorem find?_of_waiting? {w : Waiting} (h : p.waiting? t = some w) :
    match w with
    | .borrow => ∃ s, find? t p.borrows = some s
    | .giveBack => ∃ link, find? t p.returns = some link
    | .sweep => ∃ s, find? t p.sweeps = some s := by
  unfold waiting? at h
  cases hb : find? t p.borrows <;> cases hr : find? t p.returns <;> cases hs : find? t p.sweeps <;>
    simp [hb, hr, hs] at h <;> subst h <;> simp

theorem Coherent.pinged {alive : Bool} (h : p.Coherent now)
    (hR : ∀ e left pass, alive = true → find? t p.sweeps = some (.pinging e left pass) →
      p.isFull = false → R (min pass.kept p.idle.length) e p.idle) :
    Reaches R now p.ledger (p.inputs (.pinged t alive)) 0 (p.step now (.pinged t alive)) := by
  simp only [Pool.inputs, Pool.hand?, Pool.step]
  cases hw : p.waiting? t with
  | none => exact .refl h
  | some w =>
      cases w with
      | borrow =>
          obtain ⟨s, hs⟩ := find?_of_waiting? hw
          cases s with
          | pinging link =>
              have : Reaches R now p.ledger _ _ (p.borrowPinged t alive) := h.borrowPinged hs
              simpa [hs] using this
          | _ => simpa [hs, Pool.borrowPinged] using .refl h
      | giveBack =>
          obtain ⟨link, hs⟩ := find?_of_waiting? hw
          have : Reaches R now p.ledger _ _ (p.returnPinged now t alive) := h.returnPinged hs
          simpa [hs] using this
      | sweep =>
          obtain ⟨s, hs⟩ := find?_of_waiting? hw
          cases s with
          | pinging e left pass =>
              have : Reaches R now p.ledger _ _ (p.sweepPinged now t alive) :=
                h.sweepPinged hs fun ha hf => hR e left pass ha hs hf
              simpa [hs] using this
          | connecting closed => simpa [hs, Pool.sweepPinged] using .refl h

theorem Coherent.connected {result : Except Fault Link} (h : p.Coherent now) :
    Reaches R now p.ledger (p.inputs (.connected t result)) 0
      (p.step now (.connected t result)) := by
  -- Nothing comes in for an operation that does not wait for a connection.
  have hi (hn : p.hand? t ≠ some .dialing) : p.inputs (.connected t result) = [] := by
    cases result <;> simp [Pool.inputs, hn]
  cases hw : p.waiting? t with
  | none =>
      rw [hi (by simp [Pool.hand?, hw])]
      simpa [Pool.step, hw] using .refl h
  | some w =>
      cases w with
      | borrow =>
          obtain ⟨s, hs⟩ := find?_of_waiting? hw
          cases s with
          | connecting =>
              have hd : p.hand? t = some .dialing := by simp [Pool.hand?, hw, hs]
              cases result with
              | ok link => simpa [Pool.inputs, hd, Pool.step, hw] using h.borrowConnected_ok hs
              | error f => simpa [Pool.inputs, hd, Pool.step, hw] using h.borrowConnected_error hs
          | _ =>
              rw [hi (by simp [Pool.hand?, hw, hs])]
              simpa [Pool.step, hw, hs, Pool.borrowConnected] using .refl h
      | giveBack =>
          obtain ⟨link, hs⟩ := find?_of_waiting? hw
          rw [hi (by simp [Pool.hand?, hw, hs])]
          simpa [Pool.step, hw] using .refl h
      | sweep =>
          obtain ⟨s, hs⟩ := find?_of_waiting? hw
          cases s with
          | connecting closed =>
              have hd : p.hand? t = some .dialing := by simp [Pool.hand?, hw, hs]
              cases result with
              | ok link => simpa [Pool.inputs, hd, Pool.step, hw] using h.sweepConnected_ok hs
              | error f => simpa [Pool.inputs, hd, Pool.step, hw] using h.sweepConnected_error hs
          | pinging e left pass =>
              rw [hi (by simp [Pool.hand?, hw, hs])]
              simpa [Pool.step, hw, hs, Pool.sweepConnected] using .refl h

theorem Coherent.step {m : Move} (h : p.Coherent now) (ha : p.Accepts m)
    (hR : ∀ t e left pass, m = .pinged t true → find? t p.sweeps = some (.pinging e left pass) →
      p.isFull = false → R (min pass.kept p.idle.length) e p.idle) :
    Reaches R now p.ledger (p.inputs m) 0 (p.step now m) := by
  cases m with
  | borrow t => exact h.borrow (waiting?_eq_none.mp ha).1
  | takeUp t => exact h.takeUp
  | expire t => exact h.expire
  | abandon t => exact h.abandon
  | giveBack t link healthy => exact h.giveBack (waiting?_eq_none.mp ha.1).2.1 ha.2
  | letGo link => exact h.letGo ha
  | sweep t => exact h.sweep (waiting?_eq_none.mp ha).2.2
  | shutdown => exact h.shutdown
  | pinged t alive => exact h.pinged fun e left pass hl => hR t e left pass (by rw [hl])
  | connected t result => exact h.connected

end Shardway.Pool
