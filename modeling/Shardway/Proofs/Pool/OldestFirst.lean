import Shardway.Proofs.Pool.Capacity
import Shardway.Proofs.Pool.Examination
import Shardway.Proofs.Pool.Misplaced

/-!
# The oldest connection first

A pass picks the connection behind those it has kept. That one is the oldest of those it has not
examined, as long as the idle connections are in order and the kept ones are still the first. Both
can fail while a connection is pinged: borrowers take kept connections from the front and return
them to the back.
-/

namespace Shardway.Pool

/-- Whenever a connection was picked, all idle ones that had been idle longer had been examined. -/
def OldestFirst (xs : List Exam) : Prop :=
  Each (fun before x => ∀ y ∈ x.idle, y.since < x.entry.since → y.link ∈ before.map (·.entry.link))
    xs

/-- The idle connections are in order, and the first `k` of them have been examined. -/
structure Seen (links : List Link) (k : Nat) (l : List Parked) : Prop where
  ordered : Ordered l
  mem : ∀ x ∈ l.take k, x.link ∈ links

/-- While `e` is pinged, its place is still behind the first `k` connections. -/
structure Held (links : List Link) (k : Nat) (e : Parked) (l : List Parked) : Prop
    extends Seen links k l where
  examined : e.link ∈ links
  fits : Fits k e l

variable {links : List Link} {k now left : Nat} {e : Parked} {l l' : List Parked} {p : Pool}
  {t : Ticket} {pass : Pass} {xs ys : List Exam} {r : Reaction} {m : Move}

/-! ## The next one -/

theorem exists_split (he : l[k]? = some e) : ∃ a b, l = a ++ e :: b ∧ k = a.length := by
  obtain ⟨hk, rfl⟩ := List.getElem?_eq_some_iff.mp he
  refine ⟨l.take k, l.drop (k + 1), ?_, ?_⟩
  · rw [List.getElem_cons_drop, List.take_append_drop]
  · rw [List.length_take_of_le hk.le]

theorem ordered_append_cons {a b : List Parked} :
    Ordered (a ++ e :: b) ↔ Ordered (a ++ b) ∧ (∀ x ∈ a, x.since ≤ e.since) ∧
      ∀ x ∈ b, e.since ≤ x.since := by
  simp only [Ordered, List.pairwise_append, List.pairwise_cons, List.forall_mem_cons]
  constructor
  · rintro ⟨ha, ⟨heb, hb⟩, hab⟩
    exact ⟨⟨ha, hb, fun x hx => (hab x hx).2⟩, fun x hx => (hab x hx).1, heb⟩
  · rintro ⟨⟨ha, hb, hab⟩, hae, heb⟩
    exact ⟨ha, ⟨heb, hb⟩, fun x hx => ⟨hae x hx, hab x hx⟩⟩

/-- The connections that are older than the one behind the first `k` are among the first `k`. -/
theorem Seen.older (h : Seen links k l) (he : l[k]? = some e) :
    ∀ y ∈ l, y.since < e.since → y.link ∈ links := by
  intro y hy hlt
  apply h.mem
  obtain ⟨a, b, rfl, rfl⟩ := exists_split he
  obtain ⟨-, -, hb⟩ := ordered_append_cons.mp h.ordered
  rw [List.take_left]
  rcases List.mem_append.mp hy with hy | hy
  · exact hy
  · cases hy with
    | head => exact absurd hlt (Nat.lt_irrefl _)
    | tail _ hy => exact absurd (hb y hy) (Nat.not_le.mpr hlt)

theorem Seen.hold (h : Seen links k l) (he : l[k]? = some e) :
    Held (links ++ [e.link]) k e (l.eraseIdx k) := by
  have hm := h.mem
  obtain ⟨a, b, rfl, rfl⟩ := exists_split he
  obtain ⟨ho, ha, hb⟩ := ordered_append_cons.mp h.ordered
  rw [List.take_left] at hm
  rw [eraseIdx_length]
  constructor
  · constructor
    · exact ho
    · intro x hx
      rw [List.take_left] at hx
      exact List.mem_append_left _ (hm x hx)
  · simp
  · constructor
    · rwa [List.take_left]
    · rwa [List.drop_left]

theorem take_insertIdx_min : (l.insertIdx (min k l.length) e).take (k + 1) = l.take k ++ [e] := by
  rw [insertIdx_eq_take_drop (Nat.min_le_right ..)]
  rcases Nat.le_total k l.length with hk | hk
  · rw [Nat.min_eq_left hk, List.append_cons]
    exact List.take_left' (by simp [hk])
  · rw [Nat.min_eq_right hk, List.take_length, List.drop_length, List.take_of_length_le hk]
    exact List.take_of_length_le (by simpa using hk)

theorem Held.back (h : Held links k e l) :
    Seen links (k + 1) (l.insertIdx (min k l.length) e) := by
  have hf : Fits (min k l.length) e l := by
    obtain ⟨hb, hd⟩ := h.fits
    rcases Nat.le_total k l.length with hk | hk
    · rw [Nat.min_eq_left hk]
      exact ⟨hb, hd⟩
    · rw [Nat.min_eq_right hk]
      rw [List.take_of_length_le hk] at hb
      exact ⟨by rwa [List.take_length], by simp⟩
  refine ⟨(ordered_insertIdx h.ordered (Nat.min_le_right ..)).mpr hf, fun x hx => ?_⟩
  rw [take_insertIdx_min] at hx
  rcases List.mem_append.mp hx with hx | hx
  · exact h.mem x hx
  · rw [List.mem_singleton.mp hx]
    exact h.examined

/-- What comes while `e` is pinged has come after it. -/
theorem Held.later (h : Held links k e l) (ho : Ordered l') (ht : l'.take k = l.take k)
    (hn : (l'.map (·.link)).Nodup) (hs : e.since ≤ now)
    (hl : ∀ x ∈ l', x ∈ l ∨ x.since = now) : Held links k e l' where
  ordered := ho
  mem := ht ▸ h.mem
  examined := h.examined
  fits := by
    constructor
    · exact ht ▸ h.fits.before
    · intro x hx
      rcases hl x (List.mem_of_mem_drop hx) with hm | hm
      · rw [← List.take_append_drop k l, List.mem_append, ← ht] at hm
        rcases hm with hm | hm
        · -- It would be in two places.
          rw [← List.take_append_drop k l', List.map_append, List.nodup_append'] at hn
          exact absurd (List.mem_map_of_mem hx) (hn.2.2 (List.mem_map_of_mem hm))
        · exact h.fits.behind x hm
      · rwa [hm]

/-! ## A run of examinations -/

theorem oldestFirst_concat {x : Exam} : OldestFirst (xs ++ [x]) ↔ OldestFirst xs ∧
    ∀ y ∈ x.idle, y.since < x.entry.since → y.link ∈ xs.map (·.entry.link) := each_concat

/-- What holds of a log as long as the pass picks the oldest connection first, and of the pool while
the pass waits for a ping. -/
structure Fair (t : Ticket) (xs : List Exam) (p : Pool) : Prop where
  log : OldestFirst xs
  held : ∀ e left pass, find? t p.sweeps = some (.pinging e left pass) →
    Held (xs.map (·.entry.link)) pass.kept e p.idle

theorem fair_endSweep {n : Nat} (hx : OldestFirst xs) : Fair t xs (p.endSweep t n).state := by
  constructor
  · exact hx
  · intro e left pass hs
    cases find?_without.symm.trans hs

theorem fair_topUp {n : Nat} (hx : OldestFirst xs) : Fair t xs (p.topUp t n).state := by
  unfold topUp
  split
  · constructor
    · exact hx
    · intro e left pass hs
      cases find?_putAt.symm.trans hs
  · exact fair_endSweep hx

/-- An answer keeps the next place behind what has been examined. -/
theorem Held.settled {keep : Bool} (h : Held links pass.kept e p.idle) :
    Seen links (p.settled e keep pass).2.kept (p.settled e keep pass).1.state.idle := by
  rcases settled_idle (p := p) with ⟨hi, hk⟩ | ⟨-, -, hi, hk⟩
  · rw [hi, hk]
    exact h.toSeen
  · rw [hi, hk]
    exact h.back

theorem Examines.fair (h : Examines now t left pass p ys r)
    (hs : Seen (xs.map (·.entry.link)) pass.kept p.idle) (hx : OldestFirst xs) :
    Fair t (xs ++ ys) r.state := by
  induction h generalizing xs with
  | ends _ =>
      rw [List.append_nil]
      exact fair_topUp hx
  | ping _ _ he _ _ =>
      constructor
      · exact oldestFirst_concat.mpr ⟨hx, hs.older he⟩
      · intro e' left' pass' hf
        cases find?_putAt.symm.trans hf
        rw [List.map_append]
        exact hs.hold he
  | @settle left pass p e ys r _ _ he _ _ ih =>
      have hh : Held (xs.map (·.entry.link) ++ [e.link]) pass.kept e (p.takeOut pass.kept).idle :=
        hs.hold he
      rw [List.append_cons]
      apply ih
      · rw [List.map_append]
        exact hh.settled
      · exact oldestFirst_concat.mpr ⟨hx, hs.older he⟩

/-! ## At most one idle connection -/

/-- The examined connection was idle, along with no more than may be. -/
def Exam.Within (n : Nat) (x : Exam) : Prop := x.entry ∈ x.idle ∧ x.idle.length ≤ n

theorem settled_length_le {keep : Bool} (hl : p.idle.length ≤ p.tuning.maxIdle) :
    (p.settled e keep pass).1.state.idle.length ≤ p.tuning.maxIdle := by
  rcases settled_idle (p := p) with ⟨hi, -⟩ | ⟨-, hf, hi, -⟩
  · rw [hi]
    exact hl
  · have hp := (hasPlace_of_isFull hf).length_lt
    rw [hi, List.length_insertIdx_of_le_length (Nat.min_le_right ..)]
    exact hp

theorem Examines.within (h : Examines now t left pass p ys r)
    (hl : p.idle.length ≤ p.tuning.maxIdle) : ∀ x ∈ ys, x.Within p.tuning.maxIdle := by
  induction h with
  | ends _ => simp
  | ping _ _ he _ _ => simpa [Exam.Within] using ⟨List.mem_of_getElem? he, hl⟩
  | @settle left pass p e ys r _ _ he _ _ ih =>
      have ht : (p.takeOut pass.kept).idle.length ≤ (p.takeOut pass.kept).tuning.maxIdle :=
        (List.length_eraseIdx_le ..).trans hl
      rw [settled_tuning] at ih
      intro x hx
      rcases List.mem_cons.mp hx with rfl | hx
      · exact ⟨List.mem_of_getElem? he, hl⟩
      · exact ih (settled_length_le ht) x hx

theorem oldestFirst_of_within (h : ∀ x ∈ xs, x.Within 1) : OldestFirst xs := by
  rintro before x after rfl y hy hlt
  obtain ⟨he, hl⟩ := h x (by simp)
  match hi : x.idle, hl with
  | [], _ => simp [hi] at he
  | [z], _ =>
      rw [hi, List.mem_singleton] at he hy
      rw [he, hy] at hlt
      exact absurd hlt (Nat.lt_irrefl _)

/-! ## Moves of other operations -/

/-- The move is not one of an eviction pass. -/
structure Apart (p : Pool) (m : Move) : Prop where
  sweep : ∀ u, m ≠ .sweep u
  pinged : ∀ u alive, m = .pinged u alive → find? u p.sweeps = none
  connected : ∀ u result, m = .connected u result → find? u p.sweeps = none

theorem lend_sweeps : (p.lend t).state.sweeps = p.sweeps := by
  have h : Lends 0 [] p (p.lend t) := lends_lend
  exact h.sweeps

theorem borrow_sweeps : (p.borrow t).state.sweeps = p.sweeps := by
  unfold borrow
  split
  · rfl
  split
  · exact lend_sweeps
  split <;> rfl

theorem takeUp_sweeps : (p.takeUp t).state.sweeps = p.sweeps := by
  unfold takeUp
  split
  · split <;> rfl
  · split
    · exact release_sweeps
    · exact lend_sweeps
  · rfl

theorem expire_sweeps : (p.expire t).state.sweeps = p.sweeps := by
  unfold expire
  split
  · split <;> rfl
  · rfl

theorem abandon_sweeps : (p.abandon t).state.sweeps = p.sweeps := by
  unfold abandon
  split
  · rfl
  · exact release_sweeps
  · exact release_sweeps
  · rfl

theorem park_sweeps {link : Link} : (p.park now link).state.sweeps = p.sweeps := by
  unfold park
  split <;> rfl

theorem giveBack_sweeps {link : Link} {healthy : Bool} :
    (p.giveBack now t link healthy).state.sweeps = p.sweeps := by
  simp only [giveBack]
  split
  · exact release_sweeps
  split
  · rfl
  · exact release_sweeps.trans park_sweeps

theorem returnPinged_sweeps {alive : Bool} :
    (p.returnPinged now t alive).state.sweeps = p.sweeps := by
  unfold returnPinged
  split
  · split
    · exact release_sweeps.trans park_sweeps
    · exact release_sweeps
  · rfl

theorem borrowPinged_sweeps {alive : Bool} : (p.borrowPinged t alive).state.sweeps = p.sweeps := by
  have h : Lends 0 [] p (p.borrowPinged t alive) := lends_borrowPinged
  exact h.sweeps

theorem borrowConnected_sweeps {result : Except Fault Link} :
    (p.borrowConnected t result).state.sweeps = p.sweeps := by
  cases result with
  | ok link =>
      have h : Lends 0 [] p (p.borrowConnected t (.ok link)) := lends_borrowConnected_ok
      exact h.sweeps
  | error f =>
      have h : Lends 0 [.missed t f] p (p.borrowConnected t (.error f)) :=
        lends_borrowConnected_error fun _ => List.mem_cons_self
      exact h.sweeps

theorem waiting?_ne_sweep (h : find? t p.sweeps = none) : p.waiting? t ≠ some .sweep := by
  intro hw
  obtain ⟨st, hs⟩ := find?_of_waiting? hw
  cases h.symm.trans hs

theorem Apart.sweeps (h : p.Apart m) : (p.step now m).state.sweeps = p.sweeps := by
  cases m with
  | borrow t => exact borrow_sweeps
  | takeUp t => exact takeUp_sweeps
  | expire t => exact expire_sweeps
  | abandon t => exact abandon_sweeps
  | giveBack t link healthy => exact giveBack_sweeps
  | letGo link => exact release_sweeps
  | sweep t => exact absurd rfl (h.sweep t)
  | pinged t alive =>
      simp only [step]
      split
      · exact borrowPinged_sweeps
      · exact returnPinged_sweeps
      · exact absurd ‹_› (waiting?_ne_sweep (h.pinged t alive rfl))
      · rfl
  | connected t result =>
      simp only [step]
      split
      · exact borrowConnected_sweeps
      · exact absurd ‹_› (waiting?_ne_sweep (h.connected t result rfl))
      · rfl
  | shutdown =>
      simp only [step, shutdown]
      split <;> rfl

/-- What none of the steps puts back among the idle connections was idle or comes now. -/
theorem Ledger.Steps.idle_mem {a a' : Ledger} {es : List Event}
    (h : Ledger.Steps (fun _ _ _ => False) now a es a') :
    ∀ x ∈ a'.idle, x ∈ a.idle ∨ x.since = now := by
  induction h with
  | refl => exact fun x hx => .inl hx
  | cons hs _ ih =>
      intro x hx
      refine (ih x hx).elim (fun hx => ?_) .inr
      cases hs with
      | take _ => exact .inl (List.mem_of_mem_eraseIdx hx)
      | park _ =>
          rcases List.mem_append.mp hx with hx | hx
          · exact .inl hx
          · rw [List.mem_singleton.mp hx]
            exact .inr rfl
      | repark _ _ hr => exact hr.elim
      | shut _ => cases hx
      | _ => exact .inl hx

/-! ## Passes -/

namespace Story

variable {node : Node} {tuning : Config.PoolTuning} {s s' : Story} {n : Nat} {alive : Bool}

theorem idle_nodup (h : s.Kept) : (s.pool.idle.map (·.link)).Nodup :=
  (links_nodup h.sound h.fresh).of_append_left

/-- The move of another operation leaves the connections in their places that the pass under the
ticket has kept. -/
structure SparesKept (t : Ticket) (s : Story) (now : Nat) (m : Move) : Prop where
  apart : s.pool.Apart m
  take : ∀ e left pass, find? t s.pool.sweeps = some (.pinging e left pass) →
    (s.next now m).pool.idle.take pass.kept = s.pool.idle.take pass.kept

theorem fair_begins (ho : Ordered s.pool.idle) :
    Fair t (examined now s.pool.tuning.testsPerEviction {} s.pool)
      (s.next now (.sweep t)).pool := by
  have hl : OldestFirst [] := each_nil
  simp only [Story.next, step, Pool.sweep]
  split
  · rename_i hc
    have hx : examined now s.pool.tuning.testsPerEviction {} s.pool = [] := by
      cases s.pool.tuning.testsPerEviction <;> simp [examined, hc]
    rw [hx]
    exact fair_endSweep hl
  · have hs : Seen (([] : List Exam).map (·.entry.link)) 0 s.pool.idle := ⟨ho, by simp⟩
    exact (examines ..).fair hs hl

theorem fair_pinged {x : Exam} (h : Fair t (xs ++ [x]) s.pool)
    (hw : s.pool.waiting? t = some .sweep)
    (hs : find? t s.pool.sweeps = some (.pinging e left pass)) :
    Fair t
      (xs ++ { x with ping := some alive } ::
        examined now left (s.pool.answered t alive e pass).2
          (s.pool.answered t alive e pass).1.state)
      (s.next now (.pinged t alive)).pool := by
  have hh := h.held e left pass hs
  simp only [Story.next, step, hw, sweepPinged_eq hs, Reaction.andThen_state]
  rw [List.append_cons]
  apply (examines ..).fair
  · have hm : (xs ++ [{ x with ping := some alive }]).map (fun y : Exam => y.entry.link) =
        (xs ++ [x]).map (·.entry.link) := by simp
    rw [hm, answered]
    split
    · have hd : Held _ pass.kept e (s.pool.dropSweep t).idle := hh
      exact hd.settled
    · have hd : Held _ pass.kept e (s.pool.dropSweep t).countValidationFailure.idle := hh
      exact hd.settled
  · obtain ⟨hx, hy⟩ := oldestFirst_concat.mp h.log
    exact oldestFirst_concat.mpr ⟨hx, hy⟩

theorem fair_connected {closed : Nat} {result : Except Fault Link} (h : Fair t xs s.pool)
    (hw : s.pool.waiting? t = some .sweep)
    (hs : find? t s.pool.sweeps = some (.connecting closed)) :
    Fair t xs (s.next now (.connected t result)).pool := by
  simp only [Story.next, step, hw, Pool.sweepConnected, hs]
  cases result with
  | ok link => exact fair_topUp h.log
  | error f => exact fair_endSweep (n := closed) h.log

theorem fair_other (h : Fair t xs s.pool) (hk : s.Kept) (hn : s.now ≤ now) (ha : s.Admits m)
    (hm : SparesKept t s now m) : Fair t xs (s.next now m).pool := by
  have hno {u : Ticket} {e : Parked} {left : Nat} {pass : Pass} (hu : m = .pinged u true)
      (hf : find? u s.pool.sweeps = some (.pinging e left pass)) : False := by
    cases (hm.apart.pinged u true hu).symm.trans hf
  have hk' := hk.next hn ha
  have hc := hk.coherent.later hn
  constructor
  · exact h.log
  intro e left pass hs
  have hsw : (s.next now m).pool.sweeps = s.pool.sweeps := hm.apart.sweeps
  rw [hsw] at hs
  have hh := h.held e left pass hs
  have hsince : e.since ≤ now := (hc.examined t e left pass (mem_of_find? hs)).since_le
  have hord : Ordered (s.next now m).pool.idle :=
    hc.ordered_step ha.accepts (fun u e left pass hu hf _ => (hno hu hf).elim) hh.ordered
  have hst : Reaches (fun _ _ _ => False) now s.pool.ledger (s.pool.inputs m) 0
      (s.pool.step now m) := hc.step ha.accepts fun u e left pass hu hf _ => hno hu hf
  have hmem := hst.steps.idle_mem
  rw [Ledger.add_zero] at hmem
  exact hh.later hord (hm.take e left pass hs) (idle_nodup hk') hsince hmem

theorem Tour.fair (h : Tour t (SparesKept t) s n xs s') (hk : s.Kept) (ho : Ordered s.pool.idle) :
    Fair t xs s'.pool := by
  induction h with
  | begins _ _ => exact fair_begins ho
  | pinged _ _ hw hs ih => exact fair_pinged ih hw hs
  | connected _ _ hw hs _ ih => exact fair_connected ih hw hs
  | other h hn _ ha _ _ hm ih => exact fair_other ih (h.leads.kept hk) hn ha hm

theorem Tour.within {Q : Story → Nat → Move → Prop} (h : Tour t Q s n xs s') (hk : s.Kept) :
    ∀ x ∈ xs, x.Within s.pool.tuning.maxIdle := by
  induction h with
  | begins _ _ => exact (examines _ t ..).within hk.sound.idle_le
  | @pinged n xs x s' now left alive e pass h hn hw hs ih =>
      have hl := (h.leads.kept hk).sound.idle_le
      have ht : s'.pool.tuning = s.pool.tuning := h.leads.tuning_eq hk
      intro y hy
      rcases List.mem_append.mp hy with hy | hy
      · exact ih y (List.mem_append_left _ hy)
      rcases List.mem_cons.mp hy with rfl | hy
      · exact ih x (by simp)
      have ha : (s'.pool.answered t alive e pass).1.state.idle.length ≤
            (s'.pool.answered t alive e pass).1.state.tuning.maxIdle ∧
          (s'.pool.answered t alive e pass).1.state.tuning = s.pool.tuning := by
        unfold answered
        split <;> rw [settled_tuning] <;> exact ⟨settled_length_le hl, ht⟩
      exact ha.2 ▸ (examines _ t ..).within ha.1 y hy
  | connected _ _ _ _ _ ih => exact ih
  | other _ _ _ _ _ _ _ ih => exact ih

/-! ## When the oldest comes first -/

/-- Without pings, or with one idle connection, nothing comes between. -/
theorem Tour.oldestFirst {Q : Story → Nat → Move → Prop} (h : Tour t Q s n xs s')
    (hs : Leads (start node tuning) s) (hm : ¬MayMisplace tuning) : OldestFirst xs := by
  have hk := hs.kept kept_start
  have ht : s.pool.tuning = tuning := hs.tuning_eq kept_start
  by_cases hi : 2 ≤ tuning.maxIdle
  · induction h with
    | begins _ _ => exact (fair_begins (t := t) (hs.ordered hm)).log
    | @pinged n xs x s' now left alive e pass h _ _ hf _ =>
        have hc := (h.leads.kept hk).coherent
        obtain ⟨hw, hms, hl, -⟩ := hc.examined t e left pass (mem_of_find? hf)
        rw [h.leads.tuning_eq hk, ht] at hw hms hl
        exact absurd ⟨hw, Nat.zero_lt_of_lt hl, hms, hi⟩ hm
    | connected _ _ _ _ _ ih => exact ih
    | other _ _ _ _ _ _ _ ih => exact ih
  · apply oldestFirst_of_within
    intro x hx
    obtain ⟨he, hl⟩ := h.within hk x hx
    exact ⟨he, hl.trans (by rw [ht]; omega)⟩

theorem free_of_swapped (hk : s.Kept) (hw : s.pool.Swapped) : 0 < s.pool.free := by
  obtain ⟨a, b, hi, -⟩ := hw.idle
  have hp := permits_eq hk.sound
  have hl := length_le_maxTotal hk.sound
  have hc := length_eq_link? s.pool.sweeps
  simp only [working, links, opening, hw.lent, hw.borrows, hw.returns, hi] at hp hl
  simp at hp hl
  omega

/-- A pass that begins with a younger connection first picks it before the older one. -/
theorem not_oldestFirst_of_swapped (hk : s.Kept) (hw : s.pool.Swapped)
    (ht : 0 < s.pool.tuning.testsPerEviction) :
    ¬OldestFirst (examined s.now s.pool.tuning.testsPerEviction {} s.pool) := by
  obtain ⟨a, b, hi, hlt⟩ := hw.idle
  have hf := free_of_swapped hk hw
  obtain ⟨n, hn⟩ := Nat.exists_eq_add_of_lt ht
  intro h
  have hx : ∃ after, examined s.now s.pool.tuning.testsPerEviction {} s.pool =
      [] ++ { entry := a, time := s.now, idle := s.pool.idle } :: after := by
    rw [hn]
    simp [examined, hw.closed, hf.ne', hi]
  obtain ⟨after, hx⟩ := hx
  have := h [] _ after hx b (by simp [hi]) hlt
  cases this

/-- All passes of a pool examine the oldest connection first just when its tuning cannot misplace a
connection. A pass that begins with the idle connections in order does so as long as other
operations leave the connections that it has kept at the front. -/
theorem oldestFirst_iff (hv : tuning.Valid) :
    ((∀ s t Q n xs s', Leads (start node tuning) s → Tour t Q s n xs s' → OldestFirst xs) ↔
        ¬MayMisplace tuning) ∧
      ∀ s t n xs s', Leads (start node tuning) s → Ordered s.pool.idle →
        Tour t (SparesKept t) s n xs s' → OldestFirst xs := by
  refine ⟨⟨fun h hm => ?_, fun hm s t Q n xs s' hs ht => ht.oldestFirst hs hm⟩, ?_⟩
  · obtain ⟨s, hs, hw, hf⟩ := exists_swapped node hv hm
    have hk := hs.kept kept_start
    have ht : s.pool.tuning = tuning := hs.tuning_eq kept_start
    have hwait : s.pool.waiting? 3 = none :=
      waiting?_eq_none.mpr ⟨by simp [hw.borrows, find?], by simp [hw.returns, find?], hf⟩
    have htour := Tour.begins (t := 3) (Q := fun _ _ _ => True) (le_refl s.now)
      ⟨hwait, fun link hl => by cases hl⟩
    exact not_oldestFirst_of_swapped hk hw (ht ▸ hm.testsPerEviction) (h _ _ _ _ _ _ hs htour)
  · intro s t n xs s' hs ho h
    exact (h.fair (hs.kept kept_start) ho).log

/-- Four borrowers return their connections one after the other. -/
def fourBack : Story :=
  (start default { lifo := false }).play
    [(0, .borrow 0), (0, .connected 0 (.ok 0)), (0, .borrow 1), (0, .connected 1 (.ok 1)),
      (0, .borrow 2), (0, .connected 2 (.ok 2)), (0, .borrow 3), (0, .connected 3 (.ok 3)),
      (0, .giveBack 4 0 true), (10, .giveBack 5 1 true), (20, .giveBack 6 2 true),
      (30, .giveBack 7 3 true)]

theorem ordered_fourBack : Ordered fourBack.pool.idle := by
  have hi : fourBack.pool.idle = [⟨0, 0⟩, ⟨1, 10⟩, ⟨2, 20⟩, ⟨3, 30⟩] := by decide
  rw [hi]
  simp [Ordered]

/-- While the first connection is pinged, the second one is lent. -/
def lentMeanwhile : Story :=
  ((fourBack.next 40 (.sweep 8)).next 50 (.borrow 9)).next 140 (.pinged 8 true)

/-- The log of the pass. -/
def lentLog : List Exam :=
  [{ entry := ⟨0, 0⟩, time := 40, idle := fourBack.pool.idle, ping := some true },
    { entry := ⟨2, 20⟩, time := 140, idle := [⟨0, 0⟩, ⟨2, 20⟩, ⟨3, 30⟩] }]

theorem tour_swept (Q : Story → Nat → Move → Prop) :
    Tour 8 Q fourBack 0 ([] ++ [⟨⟨0, 0⟩, 40, fourBack.pool.idle, none⟩])
      (fourBack.next 40 (.sweep 8)) := by
  have hx : examined 40 fourBack.pool.tuning.testsPerEviction {} fourBack.pool =
      [] ++ [⟨⟨0, 0⟩, 40, fourBack.pool.idle, none⟩] := by decide
  rw [← hx]
  exact .begins (by decide) (by decide)

theorem pinging_swept :
    find? 8 (fourBack.next 40 (.sweep 8)).pool.sweeps = some (.pinging ⟨0, 0⟩ 2 {}) := by
  decide

theorem tour_lentMeanwhile : Tour 8 (SparesKept 8) fourBack 1 lentLog lentMeanwhile := by
  have hm : SparesKept 8 (fourBack.next 40 (.sweep 8)) 50 (.borrow 9) := by
    refine ⟨⟨by simp, by simp, by simp⟩, fun e left pass hs => ?_⟩
    cases pinging_swept.symm.trans hs
    rfl
  have h := (tour_swept (SparesKept 8)).other
    (by decide : (fourBack.next 40 (.sweep 8)).now ≤ 50) (by decide)
    (by decide : (fourBack.next 40 (.sweep 8)).Admits (.borrow 9)) (by simp) (by simp) hm
  exact h.pinged (by decide) (by decide) pinging_swept

theorem oldestFirst_iff_default :
    (¬∀ s t Q n xs s', Leads (start default {}) s → Tour t Q s n xs s' → OldestFirst xs) ∧
      (∀ s t Q n xs s', Leads (start default { testWhileIdle := false }) s →
        Tour t Q s n xs s' → OldestFirst xs) ∧
      Tour 8 (SparesKept 8) fourBack 1 lentLog lentMeanwhile ∧ OldestFirst lentLog := by
  have hv : ({} : Config.PoolTuning).Valid := ⟨by decide, by decide, by decide⟩
  have hv' : ({ testWhileIdle := false } : Config.PoolTuning).Valid :=
    ⟨by decide, by decide, by decide⟩
  have hv'' : ({ lifo := false } : Config.PoolTuning).Valid := ⟨by decide, by decide, by decide⟩
  refine ⟨fun h => ?_, (oldestFirst_iff hv').1.mpr fun hm => ?_, tour_lentMeanwhile, ?_⟩
  · exact (oldestFirst_iff hv).1.mp h ⟨rfl, by decide, by decide, by decide⟩
  · exact Bool.false_ne_true hm.testWhileIdle
  · have hs : Leads (start default { lifo := false }) fourBack := Plays.leads (by decide)
    exact (oldestFirst_iff hv'').2 _ _ _ _ _ hs ordered_fourBack tour_lentMeanwhile

/-- A borrower comes, or returns its connection. -/
def IsTraffic (m : Move) : Prop :=
  (∃ t, m = .borrow t) ∨ ∃ t link healthy, m = .giveBack t link healthy

/-- The pass pings the second connection. -/
def secondPinged : Story := (fourBack.next 40 (.sweep 8)).next 140 (.pinged 8 true)

/-- Meanwhile the first one is lent. -/
def overtaken : Story := (secondPinged.next 150 (.borrow 9)).next 240 (.pinged 8 true)

/-- The log of that pass. -/
def skipping : List Exam :=
  [{ entry := ⟨0, 0⟩, time := 40, idle := fourBack.pool.idle, ping := some true },
    { entry := ⟨1, 10⟩, time := 140, idle := fourBack.pool.idle, ping := some true },
    { entry := ⟨3, 30⟩, time := 240, idle := [⟨2, 20⟩, ⟨1, 10⟩, ⟨3, 30⟩] }]

theorem tour_secondPinged :
    Tour 8 (fun _ _ m => IsTraffic m) fourBack 1
      ([⟨⟨0, 0⟩, 40, fourBack.pool.idle, some true⟩] ++ [⟨⟨1, 10⟩, 140, fourBack.pool.idle, none⟩])
      secondPinged :=
  (tour_swept _).pinged (by decide) (by decide) pinging_swept

theorem tour_overtaken : Tour 8 (fun _ _ m => IsTraffic m) fourBack 2 skipping overtaken := by
  have h := tour_secondPinged.other (by decide : secondPinged.now ≤ 150) (by decide)
    (by decide : secondPinged.Admits (.borrow 9)) (by simp) (by simp) (.inl ⟨9, rfl⟩)
  have hs : find? 8 (secondPinged.next 150 (.borrow 9)).pool.sweeps =
      some (.pinging ⟨1, 10⟩ 1 { kept := 1 }) := by decide
  exact h.pinged (by decide) (by decide) hs

/-- While the second connection is pinged, the first one is lent. The pass goes on with the fourth
one and never examines the third one, which is older and stays idle. -/
theorem not_oldestFirst_overtaken :
    Leads (start default { lifo := false }) fourBack ∧ Ordered fourBack.pool.idle ∧
      Tour 8 (fun _ _ m => IsTraffic m) fourBack 2 skipping overtaken ∧
      overtaken.pool.idle = [⟨2, 20⟩, ⟨1, 10⟩] ∧ ¬OldestFirst skipping := by
  refine ⟨Plays.leads (by decide), ordered_fourBack, tour_overtaken, by decide, ?_⟩
  intro h
  have := h [_, _] _ [] rfl ⟨2, 20⟩ (by simp) (by decide)
  simp at this

end Story

end Shardway.Pool
