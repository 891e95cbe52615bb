import Shardway.Proofs.Pool.Account

/-!
# A move of a pool is a sequence of ledger steps

For every function that a move is made of, one lemma says by which steps it takes the account on.
An operation that goes on has its hand apart from those of the pool: `x` before the function and `y`
after it, and nothing when it waits again or is done.
-/

namespace Shardway.Pool

variable {R : Nat → Parked → List Parked → Prop} {now : Nat} {p : Pool} {t : Ticket} {link : Link}
  {l l' : Ledger} {es pre : List Event} {x y : Multiset Hand} {r : Reaction}

/-- Steps lead from `l` to the pool of the reaction, and to `x` in the hand of the operation. -/
structure Reaches (R : Nat → Parked → List Parked → Prop) (now : Nat) (l : Ledger)
    (pre : List Event) (x : Multiset Hand) (r : Reaction) : Prop where
  steps : Ledger.Steps R now l (pre ++ tell r.effects) (r.state.ledger.add x)
  coherent : r.state.Coherent now

@[simp] theorem Ledger.add_zero (l : Ledger) : l.add 0 = l := by
  simp [Ledger.add]

theorem Reaches.of_step (hs : Ledger.Step R now l (pre ++ tell r.effects) (r.state.ledger.add x))
    (h : r.state.Coherent now) : Reaches R now l pre x r :=
  ⟨hs.single, h⟩

theorem Reaches.refl (h : p.Coherent now) : Reaches R now p.ledger [] 0 ⟨p, []⟩ :=
  ⟨by simpa using .refl, h⟩

theorem Reaches.after (hs : Ledger.Step R now l es l') (h : Reaches R now l' [] x r) :
    Reaches R now l es x r :=
  ⟨Ledger.Steps.cons hs h.steps, h.coherent⟩

/-- The operation may still be among those that wait, until `f` takes it out. -/
theorem Reaches.cons {f : Pool → Reaction} (hs : Ledger.Step R now l (pre ++ tell r.effects) l')
    (h : Reaches R now l' [] x (f r.state)) : Reaches R now l pre x (r.andThen f) :=
  ⟨by simpa using Ledger.Steps.cons hs h.steps, h.coherent⟩

theorem Reaches.andThen {f : Pool → Reaction} (h : Reaches R now l pre x r)
    (hf : r.state.Coherent now → Reaches R now (r.state.ledger.add x) [] y (f r.state)) :
    Reaches R now l pre y (r.andThen f) :=
  ⟨by simpa using h.steps.trans (hf h.coherent).steps, (hf h.coherent).coherent⟩

theorem Reaches.tell {e : Effect} (h : Reaches R now l pre 0 r)
    (he : r.state.ledger.Allows (.told e)) : Reaches R now l pre 0 (r.tell e) :=
  ⟨by simpa using h.steps.trans (by simpa using (Ledger.Step.say he).single), h.coherent⟩

/-! ## Small moves -/

theorem Coherent.discard (h : p.Coherent now) :
    Reaches R now (p.ledger.add {.holds link}) [] {.empty} (p.discard link) :=
  .of_step .close { h with }

theorem Coherent.reject (h : p.Coherent now) :
    Reaches R now (p.ledger.add {.holds link}) [.silent t] {.empty} (p.reject link) :=
  .of_step .reject { h with }

theorem hasPlace_of_isFull (h : p.isFull = false) : p.ledger.HasPlace := by
  simp only [isFull, Bool.or_eq_false_iff, decide_eq_false_iff_not, not_le] at h
  exact ⟨h.1, h.2⟩

theorem Coherent.park (h : p.Coherent now) :
    Reaches R now (p.ledger.add {.holds link}) [] {.empty} (p.park now link) := by
  unfold Pool.park
  split
  · exact h.discard
  · rename_i hf
    have hf : p.isFull = false := by simpa using hf
    refine .of_step (.park (hasPlace_of_isFull hf)) (h.setIdle fun e he => ?_)
    rcases List.mem_append.mp he with he | he
    · exact h.since_le e he
    · rw [List.mem_singleton.mp he]

theorem Coherent.release (h : p.Coherent now) :
    Reaches R now (p.ledger.add {.empty}) [] 0 p.release := by
  unfold Pool.release
  split
  · rename_i t borrows hg
    have hg : grant? p.borrows = some (t, borrows) := by
      split at hg
      · cases hg
      · exact hg
    obtain ⟨l₁, l₂, hb, rfl⟩ := grant?_eq_some hg
    -- The hand of the permit becomes that of the borrower.
    have hl : p.ledger.add {.empty} =
        ({ p with borrows := l₁ ++ (t, .granted) :: l₂ } : Pool).ledger := by
      have : {Hand.empty} + p.hands =
          ({ p with borrows := l₁ ++ (t, .granted) :: l₂ } : Pool).hands := by
        simp only [hands, hb, List.filterMap_append, List.filterMap_cons, BorrowStage.hand?,
          ← Multiset.coe_add, ← Multiset.cons_coe, ← Multiset.singleton_add]
        abel
      exact Eq.symm (ledger_eq_add rfl this.symm)
    refine ⟨?_, { h with borrows := ?_ }⟩
    · rw [hl]
      simpa using (Ledger.Step.say .wake).single
    · have := h.borrows
      rw [hb] at this
      simpa [Distinct] using this
  · refine .of_step ?_ { h with }
    rw [Ledger.add_zero]
    exact .release

theorem takeIdle?_eq_some {e : Parked} {q : Pool} (h : p.takeIdle? = some (e, q)) :
    ∃ i, p.idle[i]? = some e ∧ q = p.setIdle (p.idle.eraseIdx i) := by
  unfold takeIdle? at h
  split at h
  · obtain ⟨e', he, heq⟩ := Option.map_eq_some_iff.mp h
    cases heq
    refine ⟨p.idle.length - 1, by rw [← List.getLast?_eq_getElem?, he], ?_⟩
    rw [List.dropLast_eq_eraseIdx]
    have := List.getLast?_isSome.mp (Option.isSome_of_eq_some he)
    have := List.length_pos_iff.mpr this
    omega
  · obtain ⟨e', he, heq⟩ := Option.map_eq_some_iff.mp h
    cases heq
    exact ⟨0, by rw [← List.head?_eq_getElem?, he], by rw [List.eraseIdx_zero]⟩

theorem takeIdle?_eq_none (h : p.takeIdle? = none) : p.idle = [] := by
  unfold takeIdle? at h
  split at h <;> simpa using h

/-! ## Borrowing -/

theorem Coherent.checkout (h : p.Coherent now) :
    Reaches R now ((p.leave t).ledger.add {.holds link}) [] 0 (p.checkout t link) := by
  refine .of_step ?_ { h.leave with }
  have hl : (p.checkout t link).state.ledger =
      ((p.leave t).ledger.setMetrics { p.metrics with
        borrows := p.metrics.borrows.increment
        active := p.metrics.active.increment }).add {.lent link} := by
    simp only [Ledger.add, Ledger.setMetrics, ledger, Pool.checkout, hands, Pool.leave,
      List.map_cons, ← Multiset.cons_coe, ← Multiset.singleton_add, add_assoc]
  rw [Ledger.add_zero, hl]
  exact .lend

theorem Coherent.lend (h : p.Coherent now) :
    Reaches R now ((p.leave t).ledger.add {.empty}) [] 0 (p.lend t) := by
  unfold Pool.lend
  split
  · rename_i e q hq
    obtain ⟨i, hi, rfl⟩ := takeIdle?_eq_some hq
    have hc : (p.setIdle (p.idle.eraseIdx i)).Coherent now :=
      h.setIdle fun e he => h.since_le e (List.mem_of_mem_eraseIdx he)
    refine .after (.take (l := (p.leave t).ledger) hi) ?_
    split
    · refine .of_step ?_ hc.await
      rw [Ledger.add_zero, ledger_await]
      exact .say (.ping (Multiset.mem_add.mpr (.inl (Multiset.mem_singleton_self _))))
    · exact hc.checkout
  · rename_i hq
    refine .of_step ?_ h.await
    rw [Ledger.add_zero, ledger_await]
    have hi : p.idle = [] := takeIdle?_eq_none hq
    exact .dial (by simp [hi, Pool.leave])

theorem Coherent.turnAway {f : Fault} (h : p.Coherent now) :
    Reaches R now ((p.leave t).ledger.add x) [] x (p.turnAway t f) :=
  .of_step .fail { h.leave with }

theorem Coherent.borrow (h : p.Coherent now) (ht : find? t p.borrows = none) :
    Reaches R now p.ledger [] 0 (p.borrow t) := by
  unfold Pool.borrow
  split
  · rename_i hc
    exact .of_step (by simpa using .say (.refused hc)) h
  split
  · rename_i hf
    have hc : p.acquire.Coherent now := { h with }
    have hl : p.acquire.leave t = p.acquire := leave_eq_self ht
    have := hc.lend (R := R) (t := t)
    rw [hl] at this
    exact .after (.acquire hf) this
  split
  · have := h.turnAway (R := R) (t := t) (f := p.exhaustedFault) (x := 0)
    rwa [leave_eq_self ht, Ledger.add_zero] at this
  · refine .of_step ?_ h.await
    rw [Ledger.add_zero, ledger_await, leave_eq_self ht]
    simpa [BorrowStage.hand?] using .say .wait

@[simp] theorem release_closed : p.release.state.closed = p.closed := by
  unfold Pool.release
  split <;> rfl

@[simp] theorem release_tuning : p.release.state.tuning = p.tuning := by
  unfold Pool.release
  split <;> rfl

@[simp] theorem release_sweeps : p.release.state.sweeps = p.sweeps := by
  unfold Pool.release
  split <;> rfl

theorem Coherent.takeUp (h : p.Coherent now) : Reaches R now p.ledger [] 0 (p.takeUp t) := by
  unfold Pool.takeUp
  split
  · rename_i hs
    split
    · rename_i hc
      refine .of_step ?_ h.leave
      have hl : p.ledger = (p.leave t).ledger := h.ledger_leave hs
      rw [Ledger.add_zero, hl]
      exact .say (.refused hc)
    · exact .refl h
  · rename_i hs
    have hl : p.ledger = (p.leave t).ledger.add {.empty} := h.ledger_leave hs
    rw [hl]
    split
    · rename_i hc
      have hc : (p.leave t).closed = true := hc
      exact h.leave.release.tell (.refused (by simpa using hc))
    · exact h.lend
  · exact .refl h

theorem Coherent.expire (h : p.Coherent now) : Reaches R now p.ledger [] 0 (p.expire t) := by
  unfold Pool.expire
  split
  · rename_i hs
    have hl : p.ledger = (p.leave t).ledger := h.ledger_leave hs
    rw [hl]
    split
    · rename_i hc
      refine .of_step ?_ h.leave
      rw [Ledger.add_zero]
      exact .say (.refused hc)
    · simpa using h.turnAway (R := R) (x := 0)
  · exact .refl h

theorem Coherent.borrowPinged {alive : Bool} (h : p.Coherent now)
    (hs : find? t p.borrows = some (.pinging link)) :
    Reaches R now p.ledger (if alive then [] else [.silent t]) 0 (p.borrowPinged t alive) := by
  have hl : p.ledger = (p.leave t).ledger.add {.holds link} := h.ledger_leave hs
  rw [hl]
  simp only [Pool.borrowPinged, hs]
  cases alive with
  | true => exact h.checkout
  | false =>
      have hc : (p.reject link).state.Coherent now := { h with }
      simp only [Bool.false_eq_true, if_false]
      exact .cons .reject hc.lend

theorem Coherent.borrowConnected_ok (h : p.Coherent now)
    (hs : find? t p.borrows = some .connecting) :
    Reaches R now p.ledger [.opened link] 0 (p.borrowConnected t (.ok link)) := by
  have hl : p.ledger = (p.leave t).ledger.add {.dialing} := h.ledger_leave hs
  have hc : p.countCreated.Coherent now := { h with }
  simp only [Pool.borrowConnected, hs]
  rw [hl]
  exact .after .opened hc.checkout

theorem Coherent.borrowConnected_error {f : Fault} (h : p.Coherent now)
    (hs : find? t p.borrows = some .connecting) :
    Reaches R now p.ledger [.missed t f] 0 (p.borrowConnected t (.error f)) := by
  have hl : p.ledger = (p.leave t).ledger.add {.dialing} := h.ledger_leave hs
  simp only [Pool.borrowConnected, hs]
  rw [hl]
  refine .after (.say .missed) (.after .hangUp ?_)
  exact (Reaches.cons (.say .notice) h.turnAway).andThen fun hc => hc.release

theorem Coherent.abandon (h : p.Coherent now) : Reaches R now p.ledger [] 0 (p.abandon t) := by
  unfold Pool.abandon
  split
  · rename_i hs
    have hl : p.ledger = (p.leave t).ledger := h.ledger_leave hs
    rw [hl]
    exact .refl h.leave
  · rename_i link hs
    have hl : p.ledger = (p.leave t).ledger.add {.holds link} := h.ledger_leave hs
    rw [hl]
    have hc : Reaches R now ((p.leave t).ledger.add {.holds link}) [] {.empty}
      ⟨p.leave t, [.close link]⟩ := .of_step .abandon h.leave
    exact hc.andThen fun hc => hc.release
  · rename_i s hq hp hs
    cases s with
    | queued => exact absurd rfl hq
    | pinging link => exact absurd rfl (hp link)
    | granted =>
        have hl : p.ledger = (p.leave t).ledger.add {.empty} := h.ledger_leave hs
        rw [hl]
        exact h.leave.release
    | connecting =>
        have hl : p.ledger = (p.leave t).ledger.add {.dialing} := h.ledger_leave hs
        rw [hl]
        exact .after .hangUp h.leave.release
  · exact .refl h

/-! ## Returning -/

/-- A connection passes from its borrower to the return. -/
theorem takeBack_step (hk : link ∈ p.lent) :
    Ledger.Step R now p.ledger [.back link] ((p.takeBack link).ledger.add {.holds link}) := by
  have : p.hands = {.lent link} + (p.takeBack link).hands := by
    have hp := (List.perm_cons_erase hk).map Hand.lent
    simp only [hands, takeBack, Multiset.coe_eq_coe.mpr hp, List.map_cons,
      ← Multiset.cons_coe, ← Multiset.singleton_add]
    abel
  have hl : p.ledger =
      ((p.takeBack link).ledger.setMetrics p.metrics).add {.lent link} := ledger_eq_add rfl this
  rw [hl]
  exact .back

theorem Coherent.endReturn (h : p.Coherent now) :
    Reaches R now ((p.dropReturn t).ledger.add {.empty}) [] 0 (p.endReturn t) :=
  h.dropReturn.release.tell .returned

theorem Coherent.discard_endReturn (h : p.Coherent now) :
    Reaches R now ((p.dropReturn t).ledger.add {.holds link}) [] 0
      ((p.discard link).andThen (Pool.endReturn t)) := by
  have hc : (p.discard link).state.Coherent now := { h with }
  exact .cons .close hc.endReturn

theorem Coherent.park_endReturn (h : p.Coherent now) :
    Reaches R now ((p.dropReturn t).ledger.add {.holds link}) [] 0
      ((p.park now link).andThen (Pool.endReturn t)) := by
  have hc : (p.park now link).state.Coherent now := (h.park (R := R)).coherent
  unfold Pool.park at hc ⊢
  split
  · exact h.discard_endReturn
  · rename_i hf
    rw [if_neg hf] at hc
    have hf : p.isFull = false := by simpa using hf
    exact .cons (.park (hasPlace_of_isFull (p := p.dropReturn t) hf)) hc.endReturn

theorem Coherent.giveBack {healthy : Bool} (h : p.Coherent now) (ht : find? t p.returns = none)
    (hk : link ∈ p.lent) :
    Reaches R now p.ledger [.back link] 0 (p.giveBack now t link healthy) := by
  have hc : (p.takeBack link).Coherent now := { h with }
  have hd : (p.takeBack link).dropReturn t = p.takeBack link := dropReturn_eq_self ht
  refine .after (takeBack_step hk) ?_
  rw [← hd]
  unfold Pool.giveBack
  dsimp only
  split
  · exact hc.discard_endReturn
  split
  · refine .of_step ?_ { hc with returns := hc.returns.putAt }
    rw [Ledger.add_zero, ledger_putReturn]
    exact .say (.ping (Multiset.mem_add.mpr (.inl (Multiset.mem_singleton_self _))))
  · exact hc.park_endReturn

theorem Coherent.returnPinged {alive : Bool} (h : p.Coherent now)
    (hs : find? t p.returns = some link) :
    Reaches R now p.ledger (if alive then [] else [.silent t]) 0 (p.returnPinged now t alive) := by
  rw [h.ledger_dropReturn hs]
  simp only [Pool.returnPinged, hs]
  cases alive with
  | true => exact h.park_endReturn
  | false =>
      have hc : (p.reject link).state.Coherent now := { h with }
      simp only [Bool.false_eq_true, if_false]
      exact .cons .reject hc.endReturn

theorem Coherent.letGo (h : p.Coherent now) (hk : link ∈ p.lent) :
    Reaches R now p.ledger [.back link] 0 (p.letGo link) := by
  have hc : (p.takeBack link).Coherent now := { h with }
  exact .after (takeBack_step hk) (hc.discard.andThen fun hd => hd.release)

end Shardway.Pool
