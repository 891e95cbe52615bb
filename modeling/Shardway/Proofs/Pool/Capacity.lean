import Shardway.Proofs.Pool.Story

/-!
# Capacity

A pool never has more connections than it may, no connection is in two places at once, and permits
are neither lost nor made.
-/

namespace Shardway

/-- The connection whose ping a borrower waits for. -/
def BorrowStage.link? : BorrowStage → Option Link
  | .pinging link => some link
  | _ => none

@[simp] theorem BorrowStage.link?_queued : queued.link? = none := rfl

@[simp] theorem BorrowStage.link?_granted : granted.link? = none := rfl

@[simp] theorem BorrowStage.link?_pinging (link : Link) : (pinging link).link? = some link := rfl

@[simp] theorem BorrowStage.link?_connecting : connecting.link? = none := rfl

/-- The connection whose ping an eviction pass waits for. -/
def SweepStage.link? : SweepStage → Option Link
  | .pinging e .. => some e.link
  | .connecting _ => none

@[simp] theorem SweepStage.link?_pinging (e : Parked) (left : Nat) (pass : Pass) :
    (pinging e left pass).link? = some e.link := rfl

@[simp] theorem SweepStage.link?_connecting (closed : Nat) : (connecting closed).link? = none := rfl

namespace Pool

/-- The open connections: the idle ones, those with borrowers, and those that are pinged for a
borrower, for a return or for an eviction pass. -/
def links (p : Pool) : List Link :=
  p.idle.map (·.link) ++ (p.lent ++ (p.borrows.filterMap (·.2.link?) ++
    (p.returns.map (·.2) ++ p.sweeps.filterMap (·.2.link?))))

/-- How many connections are being opened. -/
def opening (p : Pool) : Nat :=
  p.borrows.countP (·.2 = .connecting) + p.sweeps.countP (·.2.link?.isNone)

/-- How many permits the operations in progress hold. -/
def working (p : Pool) : Nat :=
  p.borrows.countP (·.2 ≠ .queued) + p.returns.length + p.sweeps.length

/-- No operation is in progress. -/
structure AtRest (p : Pool) : Prop where
  borrows : p.borrows = []
  returns : p.returns = []
  sweeps : p.sweeps = []

variable {p : Pool}

/-! ## Counting hands -/

theorem isSome_hand? (s : BorrowStage) : s.hand?.isSome = decide (s ≠ .queued) := by
  cases s <;> rfl

theorem bind_hand? (s : BorrowStage) : s.hand?.bind Hand.link? = s.link? := by
  cases s <;> rfl

theorem link?_hand (s : SweepStage) : s.hand.link? = s.link? := by
  cases s <;> rfl

theorem isLent_hand? (s : BorrowStage) : (s.hand?.map Hand.isLent).getD false = false := by
  cases s <;> rfl

theorem isLent_hand (s : SweepStage) : s.hand.isLent = false := by
  cases s <;> rfl

theorem isBusy_hand (s : SweepStage) : s.hand.isBusy = true := by
  cases s <;> rfl

theorem countP_isBusy (l : List (Ticket × BorrowStage)) :
    l.countP (fun x => (x.2.hand?.map Hand.isBusy).getD false) =
      (l.filterMap (·.2.link?)).length + l.countP (·.2 = .connecting) := by
  induction l with
  | nil => rfl
  | cons x l ih =>
      obtain ⟨t, s⟩ := x
      cases s <;> simp [List.countP_cons, List.filterMap_cons, ih] <;> omega

theorem length_eq_link? (l : List (Ticket × SweepStage)) :
    l.length = (l.filterMap (·.2.link?)).length + l.countP (·.2.link?.isNone) := by
  induction l with
  | nil => rfl
  | cons x l ih =>
      obtain ⟨t, s⟩ := x
      rw [List.length_cons, ih]
      cases s <;> simp [List.countP_cons, List.filterMap_cons] <;> omega

theorem card_hands (p : Pool) : p.ledger.hands.card = p.lent.length + p.working := by
  simp only [ledger, hands, Multiset.coe_add, Multiset.coe_card, List.length_append,
    List.length_map, List.length_filterMap_eq_countP, isSome_hand?, working]
  omega

theorem lentCount_ledger (p : Pool) : p.ledger.lentCount = p.lent.length := by
  simp only [Ledger.lentCount, ledger, hands, Multiset.coe_add, Multiset.coe_countP,
    Bool.decide_eq_true, List.countP_append, List.countP_map, List.countP_filterMap, isLent_hand?,
    Function.comp_def, isLent_hand]
  simp

theorem links_ledger (p : Pool) : p.ledger.links = ↑p.links := by
  simp only [Ledger.links, ledger, hands, links, Multiset.coe_add, Multiset.filterMap_coe,
    List.filterMap_append, List.filterMap_map, List.filterMap_filterMap, bind_hand?,
    Function.comp_def, link?_hand, List.append_assoc]
  simp

theorem length_links (p : Pool) : p.links.length + p.opening = p.idle.length + p.ledger.busy := by
  simp only [Ledger.busy, ledger, hands, Multiset.coe_add, Multiset.coe_countP,
    Bool.decide_eq_true, List.countP_append, List.countP_map, List.countP_filterMap,
    countP_isBusy, Function.comp_def, isBusy_hand]
  have := length_eq_link? p.sweeps
  simp [links, opening]
  omega

/-! ## Bounds -/

/-- The connections that were closed and those that are there are all that were opened. -/
theorem perm_openings {past : List Event} (h : p.ledger.Sound past) :
    (closings past ++ p.links).Perm (openings past) := by
  have := h.links
  rw [links_ledger, Multiset.coe_add] at this
  exact Multiset.coe_eq_coe.mp this

theorem links_nodup {past : List Event} (h : p.ledger.Sound past) (hf : (openings past).Nodup) :
    p.links.Nodup :=
  ((perm_openings h).nodup_iff.mpr hf).of_append_right

theorem mem_links {past : List Event} {link : Link} (h : p.ledger.Sound past)
    (hf : (openings past).Nodup) :
    link ∈ p.links ↔ .opened link ∈ past ∧ .told (.close link) ∉ past := by
  have hp := perm_openings h
  have hd := (List.nodup_append'.mp (hp.nodup_iff.mpr hf)).2.2
  rw [← mem_openings, ← mem_closings, ← hp.mem_iff, List.mem_append]
  constructor
  · intro hl
    exact ⟨.inr hl, fun hc => hd hc hl⟩
  · rintro ⟨hc | hl, hn⟩
    · exact absurd hc hn
    · exact hl

theorem length_le_maxTotal {past : List Event} (h : p.ledger.Sound past) :
    p.links.length + p.opening ≤ p.tuning.maxTotal := by
  rw [length_links]
  exact h.room

theorem permits_eq {past : List Event} (h : p.ledger.Sound past) :
    p.free + p.lent.length + p.working = p.tuning.maxTotal := by
  have := h.permits
  rw [card_hands] at this
  simp only [ledger_free, ledger_tuning] at this
  omega

/-! ## Borrowing from a pool at rest -/

/-- A move of borrowers: it takes at most `k` permits, makes no borrower wait for one, and turns one
away only when its connection was not to be had. -/
structure Lends (k : Nat) (pre : List Event) (p : Pool) (r : Reaction) : Prop where
  closed : r.state.closed = p.closed
  returns : r.state.returns = p.returns
  sweeps : r.state.sweeps = p.sweeps
  free : p.free ≤ r.state.free + k
  wait : ∀ t, .wait t ∉ r.effects
  failed : ∀ t f, .failed t f ∈ r.effects → .missed t f ∈ pre

variable {k : Nat} {pre : List Event} {t : Ticket} {link : Link} {r : Reaction}

theorem Lends.refl : Lends 0 pre p ⟨p, []⟩ := by
  constructor <;> simp

theorem Lends.andThen {f : Pool → Reaction} (h : Lends 0 pre p r)
    (hf : Lends 0 pre r.state (f r.state)) : Lends 0 pre p (r.andThen f) where
  closed := hf.closed.trans h.closed
  returns := hf.returns.trans h.returns
  sweeps := hf.sweeps.trans h.sweeps
  free := h.free.trans hf.free
  wait := fun t ht => (List.mem_append.mp ht).elim (h.wait t) (hf.wait t)
  failed := fun t f ht => (List.mem_append.mp ht).elim (h.failed t f) (hf.failed t f)

theorem lends_release : Lends 0 pre p p.release := by
  unfold release
  split <;> constructor <;> simp

theorem lends_checkout : Lends 0 pre p (p.checkout t link) := by
  constructor <;> simp [checkout, leave]

theorem lends_reject : Lends 0 pre p (p.reject link) := by
  constructor <;> simp [reject, discard, countValidationFailure]

theorem lends_lend : Lends 0 pre p (p.lend t) := by
  unfold lend
  split
  · rename_i e q hq
    obtain ⟨i, -, rfl⟩ := takeIdle?_eq_some hq
    split
    · constructor <;> simp [await, setIdle]
    · exact { (lends_checkout (p := p.setIdle (p.idle.eraseIdx i))) with }
  · constructor <;> simp [await]

theorem lends_borrow (ho : p.closed = false) (hf : 0 < p.free) : Lends 1 [] p (p.borrow t) := by
  have h : Lends 0 [] p.acquire (p.acquire.lend t) := lends_lend
  simp only [borrow, ho, hf, if_true, Bool.false_eq_true, if_false]
  exact { h with free := by have := h.free; simp only [acquire] at this ⊢; omega }

theorem lends_borrowPinged {alive : Bool} : Lends 0 pre p (p.borrowPinged t alive) := by
  unfold borrowPinged
  split
  · split
    · exact lends_checkout
    · exact lends_reject.andThen lends_lend
  · exact .refl

theorem lends_borrowConnected_ok : Lends 0 pre p (p.borrowConnected t (.ok link)) := by
  unfold borrowConnected
  split
  · exact { (lends_checkout (p := p.countCreated)) with }
  · exact .refl

theorem lends_borrowConnected_error {f : Fault}
    (hm : find? t p.borrows = some .connecting → .missed t f ∈ pre) :
    Lends 0 pre p (p.borrowConnected t (.error f)) := by
  unfold borrowConnected
  split
  · rename_i hs
    have hm := hm hs
    refine Lends.andThen (Lends.andThen ?_ ?_) lends_release
    · constructor <;> simp
    · constructor <;> simp [turnAway, leave, countBorrowFailure, hm]
  · exact .refl

theorem waiting?_eq_borrow {w : Waiting} (hr : p.returns = []) (hs : p.sweeps = [])
    (hw : p.waiting? t = some w) : w = .borrow := by
  cases w with
  | borrow => rfl
  | giveBack =>
      obtain ⟨link, h⟩ := find?_of_waiting? hw
      simp [hr, find?] at h
  | sweep =>
      obtain ⟨s, h⟩ := find?_of_waiting? hw
      simp [hs, find?] at h

theorem lends_pinged {now : Nat} {alive : Bool} (hr : p.returns = []) (hs : p.sweeps = []) :
    Lends 0 pre p (p.step now (.pinged t alive)) := by
  simp only [step]
  cases hw : p.waiting? t with
  | none => exact .refl
  | some w =>
      cases waiting?_eq_borrow hr hs hw
      exact lends_borrowPinged

theorem lends_connected {now : Nat} {result : Except Fault Link} (hr : p.returns = [])
    (hs : p.sweeps = []) :
    Lends 0 (p.inputs (.connected t result)) p (p.step now (.connected t result)) := by
  simp only [step]
  cases hw : p.waiting? t with
  | none => exact .refl
  | some w =>
      cases waiting?_eq_borrow hr hs hw
      cases result with
      | ok link => exact lends_borrowConnected_ok
      | error f => exact lends_borrowConnected_error fun hc => by simp [inputs, hand?, hw, hc]

namespace Story

variable {s s' : Story} {n : Nat}

/-- Nothing but borrowing goes on: `n` borrowers come, and what they wait for comes to them. -/
inductive Borrowing (s : Story) : Nat → Story → Prop
  | refl : Borrowing s 0 s
  | borrow {n : Nat} {s' : Story} {now : Nat} {t : Ticket} :
      Borrowing s n s' → s'.now ≤ now → s'.Admits (.borrow t) →
      Borrowing s (n + 1) (s'.next now (.borrow t))
  | pinged {n : Nat} {s' : Story} {now : Nat} {t : Ticket} {alive : Bool} :
      Borrowing s n s' → s'.now ≤ now → s'.Admits (.pinged t alive) →
      Borrowing s n (s'.next now (.pinged t alive))
  | connected {n : Nat} {s' : Story} {now : Nat} {t : Ticket} {result : Except Fault Link} :
      Borrowing s n s' → s'.now ≤ now → s'.Admits (.connected t result) →
      Borrowing s n (s'.next now (.connected t result))

/-- What holds while `n` borrowers come to an open pool of `total` free permits. -/
structure Lent (s : Story) (total n : Nat) (s' : Story) : Prop where
  closed : s'.pool.closed = false
  returns : s'.pool.returns = []
  sweeps : s'.pool.sweeps = []
  free : total ≤ s'.pool.free + n
  past : ∃ es, s'.past = s.past ++ es ∧ (∀ t, .told (.wait t) ∉ es) ∧
    ∀ t f, .told (.failed t f) ∈ es → .missed t f ∈ es

theorem mem_tell {e : Effect} {es : List Effect} : .told e ∈ tell es ↔ e ∈ es := by
  simp [tell]

theorem told_notMem_inputs (p : Pool) (m : Move) (e : Effect) : .told e ∉ p.inputs m := by
  unfold inputs
  split <;> (try split) <;> (try split) <;> simp

theorem Lent.next {total k now : Nat} {m : Move} (h : Lent s total n s')
    (hm : Lends k (s'.pool.inputs m) s'.pool (s'.pool.step now m)) :
    Lent s total (n + k) (s'.next now m) where
  closed := hm.closed.trans h.closed
  returns := hm.returns.trans h.returns
  sweeps := hm.sweeps.trans h.sweeps
  free := by
    have := h.free
    have := hm.free
    simp only [Story.next]
    omega
  past := by
    obtain ⟨es, he, hw, hf⟩ := h.past
    refine ⟨es ++ s'.news now m, by simp [Story.next, he], fun t ht => ?_, fun t f ht => ?_⟩
    · simp only [news, List.mem_append, mem_tell, told_notMem_inputs, false_or] at ht
      exact ht.elim (hw t) (hm.wait t)
    · simp only [news, List.mem_append, mem_tell, told_notMem_inputs, false_or] at ht ⊢
      exact ht.elim (fun h => .inl (hf t f h)) (fun h => .inr (.inl (hm.failed t f h)))

theorem Borrowing.lent {total : Nat} (h : Borrowing s n s') (h0 : Lent s total 0 s)
    (hn : n ≤ total) : Lent s total n s' := by
  induction h with
  | refl => exact h0
  | borrow _ _ _ ih =>
      have h := ih (by omega)
      exact h.next (lends_borrow h.closed (by have := h.free; omega))
  | pinged _ _ _ ih =>
      have h := ih hn
      exact h.next (lends_pinged h.returns h.sweeps)
  | connected _ _ _ ih =>
      have h := ih hn
      exact h.next (lends_connected h.returns h.sweeps)

variable {node : Node} {tuning : Config.PoolTuning}

/-- There are never more connections, idle, lent, pinged or being opened, than there may be, and a
connection that was opened and not closed is in exactly one place. -/
theorem exclusive_within_capacity (h : Leads (start node tuning) s) :
    s.pool.links.length + s.pool.opening ≤ tuning.maxTotal ∧ s.pool.links.Nodup ∧
      ∀ link, link ∈ s.pool.links ↔ .opened link ∈ s.past ∧ .told (.close link) ∉ s.past := by
  have hk := h.kept kept_start
  have ht : s.pool.tuning = tuning := h.tuning_eq kept_start
  exact ⟨ht ▸ length_le_maxTotal hk.sound, links_nodup hk.sound hk.fresh, fun link =>
    mem_links hk.sound hk.fresh⟩

/-- Two borrowers come; one returns its connection, which is pinged when a third one comes. -/
def crowd : List (Nat × Move) :=
  [(0, .borrow 0), (0, .connected 0 (.ok 0)), (0, .borrow 1), (0, .connected 1 (.ok 1)),
    (5, .giveBack 2 0 true), (7, .sweep 3), (9, .borrow 4)]

theorem exclusive_within_capacity_crowd :
    let s := (start default {}).play crowd
    s.pool.links = [1, 0] ∧ s.pool.opening = 1 ∧ s.pool.links.length + s.pool.opening ≤ 8 ∧
      s.pool.links.Nodup ∧
      ∀ link, link ∈ s.pool.links ↔ .opened link ∈ s.past ∧ .told (.close link) ∉ s.past := by
  have h : Leads (start default {}) ((start default {}).play crowd) := Plays.leads (by decide)
  exact ⟨by decide, by decide, exclusive_within_capacity h⟩

theorem start_lent (h : Leads (start node tuning) s) (hr : s.pool.AtRest) (hl : s.pool.lent = [])
    (ho : s.pool.closed = false) : Lent s tuning.maxTotal 0 s := by
  have hk := h.kept kept_start
  have ht : s.pool.tuning = tuning := h.tuning_eq kept_start
  have hp := permits_eq hk.sound
  simp only [hl, working, hr.borrows, hr.returns, hr.sweeps, ht, List.length_nil,
    List.countP_nil] at hp
  exact ⟨ho, hr.returns, hr.sweeps, by omega, [], by simp, by simp, by simp⟩

/-- No permit is lost or made. At rest the counts agree with the borrowers that have a connection,
and a pool that has all its connections back lends as many as it may have. -/
theorem capacity_conserved (hw : tuning.maxTotal < 2 ^ 64) (h : Leads (start node tuning) s) :
    s.pool.free + s.pool.lent.length + s.pool.working = tuning.maxTotal ∧
      backs s.past + s.pool.lent.length = loans s.past ∧
      (s.pool.AtRest → s.pool.inUse = s.pool.lent.length ∧
        s.pool.metrics.active.value.toNat = s.pool.lent.length) ∧
      (s.pool.AtRest → s.pool.lent = [] → s.pool.inUse = 0 ∧
        (s.pool.closed = false → ∀ n s', n ≤ tuning.maxTotal → Borrowing s n s' →
          ∃ es, s'.past = s.past ++ es ∧ (∀ t, .told (.wait t) ∉ es) ∧
            ∀ t f, .told (.failed t f) ∈ es → .missed t f ∈ es)) := by
  have hk := h.kept kept_start
  have ht : s.pool.tuning = tuning := h.tuning_eq kept_start
  have hp : s.pool.free + s.pool.lent.length + s.pool.working = tuning.maxTotal :=
    ht ▸ permits_eq hk.sound
  have hb := hk.sound.lent
  have ha := h.active kept_start hw (by simp [start, ofNode, lentCount_ledger])
  rw [lentCount_ledger] at hb ha
  have hu (hr : s.pool.AtRest) : s.pool.inUse = s.pool.lent.length := by
    simp only [working, hr.borrows, hr.returns, hr.sweeps, List.length_nil, List.countP_nil] at hp
    simp only [inUse, ht]
    omega
  refine ⟨hp, hb, fun hr => ⟨hu hr, ha⟩, fun hr hl => ⟨by rw [hu hr, hl, List.length_nil], ?_⟩⟩
  intro ho n s' hn hb
  exact (hb.lent (start_lent h hr hl ho) hn).past

/-- A borrower comes and returns its connection. -/
def visit : List (Nat × Move) :=
  [(0, .borrow 0), (2, .connected 0 (.ok 0)), (5, .giveBack 1 0 true)]

/-- Two borrowers come after it, one for the idle connection and one for a new one. -/
def visited : Story :=
  ((((start default { maxTotal := 2 }).play visit).next 6 (.borrow 2)).next 7 (.borrow 3)).next 9
    (.connected 3 (.ok 1))

theorem capacity_conserved_visit :
    let s := (start default { maxTotal := 2 }).play visit
    s.pool.free + s.pool.lent.length + s.pool.working = 2 ∧ s.pool.AtRest ∧ s.pool.lent = [] ∧
      s.pool.inUse = 0 ∧ visited.pool.lent = [1, 0] ∧
      ∃ es, visited.past = s.past ++ es ∧ (∀ t, .told (.wait t) ∉ es) ∧
        ∀ t f, .told (.failed t f) ∈ es → .missed t f ∈ es := by
  have h : Leads (start default { maxTotal := 2 }) ((start default { maxTotal := 2 }).play visit) :=
    Plays.leads (by decide)
  have hb : Borrowing ((start default { maxTotal := 2 }).play visit) 2 visited :=
    ((Borrowing.refl.borrow (by decide) (by decide)).borrow (by decide) (by decide)).connected
      (by decide) (by decide)
  obtain ⟨hp, -, -, hl⟩ := capacity_conserved (by decide) h
  have hr : ((start default { maxTotal := 2 }).play visit).pool.AtRest := ⟨rfl, rfl, rfl⟩
  obtain ⟨hu, hn⟩ := hl hr rfl
  exact ⟨hp, hr, rfl, hu, by decide, hn rfl 2 visited le_rfl hb⟩

end Story

end Pool

end Shardway
