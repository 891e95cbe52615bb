import Shardway.Config.Validity
import Shardway.Proofs.Pool.Order

/-!
# Connections out of order

Where the tuning lets eviction passes ping connections, and more than one be idle, there is a story
at whose end the idle connections are out of order. If a pass examines more than one connection, one
pass is enough: a connection that was kept is lent and comes back while the next one is pinged. Else
two passes are, each with one connection.
-/

namespace Shardway.Pool

variable {node : Node} {tuning : Config.PoolTuning} {p : Pool} {now now' free : Nat}
  {opened : List Link} {idle : List Parked} {lent : List Link} {sweeps : List (Ticket × SweepStage)}
  {t : Ticket} {link : Link} {e : Parked}

/-- An open pool in which only eviction passes wait. -/
structure Stands (tuning : Config.PoolTuning) (idle : List Parked) (free : Nat) (lent : List Link)
    (sweeps : List (Ticket × SweepStage)) (p : Pool) : Prop where
  tuning : p.tuning = tuning
  closed : p.closed = false
  idle : p.idle = idle
  free : p.free = free
  lent : p.lent = lent
  borrows : p.borrows = []
  returns : p.returns = []
  sweeps : p.sweeps = sweeps

/-- The moves lead from pools that stand so to pools for which `P` holds, at one time. -/
def Story.Arrives (node : Node) (tuning : Config.PoolTuning) (now : Nat) (opened : List Link)
    (P : Pool → Prop) : Prop :=
  ∃ s, Leads (start node tuning) s ∧ s.now = now ∧ openings s.past = opened ∧ P s.pool

open Story

theorem Stands.waiting? (h : Stands tuning idle free lent sweeps p) (ht : find? t sweeps = none) :
    p.waiting? t = none :=
  waiting?_eq_none.mpr
    ⟨by simp [h.borrows, find?], by simp [h.returns, find?], by rw [h.sweeps, ht]⟩

/-- One more move, which opens no connection. -/
theorem Story.Arrives.next {P : Pool → Prop} {m : Move} (h : Arrives node tuning now opened P)
    (hn : now ≤ now') (ha : ∀ p, P p → p.Accepts m) (ho : ∀ p : Pool, openings (p.inputs m) = []) :
    Arrives node tuning now' opened fun q => ∃ p, P p ∧ q = (p.step now' m).state := by
  obtain ⟨s, hl, rfl, rfl, hp⟩ := h
  refine ⟨_, hl.next hn ⟨ha _ hp, by simp [ho]⟩, rfl, ?_, s.pool, hp, rfl⟩
  simp [Story.next, news, ho, openings_tell]

theorem Story.Arrives.imp {P Q : Pool → Prop} (h : Arrives node tuning now opened P)
    (hpq : ∀ p, P p → Q p) : Arrives node tuning now opened Q := by
  obtain ⟨s, hl, hn, ho, hp⟩ := h
  exact ⟨s, hl, hn, ho, hpq _ hp⟩

/-- A borrower returns its connection, which is alive. -/
theorem Story.Arrives.bringBack
    (h : Arrives node tuning now opened (Stands tuning idle free lent sweeps)) (link : Link)
    (hn : now ≤ now') (ht : find? 0 sweeps = none) (hl : link ∈ lent)
    (hi : idle.length < tuning.maxIdle) :
    Arrives node tuning now' opened
      (Stands tuning (idle ++ [⟨link, now'⟩]) (free + 1) (lent.erase link) sweeps) := by
  have hb := h.next (m := .giveBack 0 link true) hn
    (fun p hp => ⟨hp.waiting? ht, hp.lent ▸ hl⟩) (fun p => by simp [inputs, Event.opened?])
  cases hr : tuning.testOnReturn with
  | false =>
      refine hb.imp ?_
      rintro _ ⟨p, ⟨rfl, hc, rfl, rfl, rfl, hw, hrs, rfl⟩, rfl⟩
      have hf : ¬p.tuning.maxIdle ≤ p.idle.length := not_le.mpr hi
      constructor <;> simp [hf, hc, hw, hrs, hr, step, giveBack, takeBack, park, isFull, endReturn,
        release, grant?, without, setIdle]
  | true =>
      have hq := hb.next (m := .pinged 0 true) le_rfl (fun _ _ => trivial)
        (fun p => openings_inputs_pinged p 0 true)
      refine hq.imp ?_
      rintro _ ⟨_, ⟨p, ⟨rfl, hc, rfl, rfl, rfl, hw, hrs, rfl⟩, rfl⟩, rfl⟩
      have hf : ¬p.tuning.maxIdle ≤ p.idle.length := not_le.mpr hi
      have hs : (p.step now' (.giveBack 0 link true)).state =
          { p.takeBack link with returns := [(0, link)] } := by
        simp [hc, hrs, hr, step, giveBack, takeBack, putAt, without]
      rw [hs]
      constructor <;> simp [hf, hc, hw, step, Pool.waiting?, find?, returnPinged, takeBack, park,
        isFull, endReturn, release, grant?, without, setIdle]

/-- A borrower gets a new connection. -/
theorem Story.Arrives.fetch
    (h : Arrives node tuning now opened (Stands tuning [] (free + 1) lent [])) (link : Link)
    (hl : link ∉ opened) :
    Arrives node tuning now (opened ++ [link]) (Stands tuning [] free (link :: lent) []) := by
  have hb := h.next (m := .borrow 0) le_rfl (fun p hp => hp.waiting? rfl) (fun _ => rfl)
  obtain ⟨s, hs, rfl, rfl, p, ⟨rfl, hc, hi, hf, rfl, hw, hr, hsw⟩, hp⟩ := hb
  have hp : s.pool = { p with
      free, borrows := [(0, .connecting)], metrics := s.pool.metrics } := by
    rw [hp]
    simp [hc, hi, hf, hw, step, borrow, lend, takeIdle?, await, putAt, without, acquire]
  have hd : s.pool.waiting? 0 = some .borrow := by rw [hp]; rfl
  have hin : s.pool.inputs (.connected 0 (.ok link)) = [.opened link] := by
    rw [hp]; rfl
  refine ⟨_, hs.next (m := .connected 0 (.ok link)) le_rfl
    ⟨trivial, by simpa [hin, Event.opened?] using hl⟩, rfl, ?_, ?_⟩
  · simp [Story.next, news, hin, openings_tell, Event.opened?]
  · simp only [Story.next]
    rw [hp]
    constructor <;> simp [hc, hi, hr, hsw, step, Pool.waiting?, find?, borrowConnected, checkout,
      countCreated, leave, without]

/-- A borrower gets the only idle connection, which is alive. -/
theorem Story.Arrives.take
    (h : Arrives node tuning now opened (Stands tuning [e] (free + 1) lent sweeps))
    (hn : now ≤ now') (ht : find? 0 sweeps = none) :
    Arrives node tuning now' opened (Stands tuning [] free (e.link :: lent) sweeps) := by
  have hb := h.next (m := .borrow 0) hn (fun p hp => hp.waiting? ht) (fun _ => rfl)
  have htake {p : Pool} (hi : p.idle = [e]) : p.takeIdle? = some (e, p.setIdle []) := by
    simp [takeIdle?, hi]
  cases hr : tuning.testOnBorrow with
  | false =>
      refine hb.imp ?_
      rintro _ ⟨p, ⟨rfl, hc, hi, hf, rfl, hw, hrs, rfl⟩, rfl⟩
      have hta : p.acquire.takeIdle? = some (e, p.acquire.setIdle []) := htake hi
      have hr : (p.acquire.setIdle []).tuning.testOnBorrow = false := hr
      have hs : (p.step now' (.borrow 0)).state =
          ((p.acquire.setIdle []).checkout 0 e.link).state := by
        simp [step, borrow, hc, hf, lend, hta, hr]
      rw [hs]
      constructor <;> simp [hc, hf, hw, hrs, checkout, leave, without, setIdle, acquire]
  | true =>
      have hq := hb.next (m := .pinged 0 true) le_rfl (fun _ _ => trivial)
        (fun p => openings_inputs_pinged p 0 true)
      refine hq.imp ?_
      rintro _ ⟨_, ⟨p, ⟨rfl, hc, hi, hf, rfl, hw, hrs, rfl⟩, rfl⟩, rfl⟩
      have hta : p.acquire.takeIdle? = some (e, p.acquire.setIdle []) := htake hi
      have hr : (p.acquire.setIdle []).tuning.testOnBorrow = true := hr
      have hs : (p.step now' (.borrow 0)).state =
          { p.acquire.setIdle [] with borrows := [(0, .pinging e.link)] } := by
        simp [step, borrow, hc, hf, lend, hta, hr, await, putAt, without]
        simp [hw, acquire, setIdle]
      rw [hs]
      constructor <;> simp [hc, hf, hrs, step, Pool.waiting?, find?, borrowPinged, checkout,
        leave, without, setIdle, acquire]

/-! ## Passes -/

theorem isStale_eq_false (count : Nat) (hm : MayMisplace p.tuning) (he : e.since = now) :
    p.isStale now count e = false := by
  have := hm.minEvictableIdleMs
  simp [isStale, he]
  omega

theorem examine_succ {n : Nat} {pass : Pass} (hc : p.closed = false) (hf : p.free ≠ 0)
    (hi : p.idle[pass.kept]? = some e) (hm : MayMisplace p.tuning) (he : e.since = now) :
    p.examine now t (n + 1) pass =
      ⟨(p.setIdle (p.idle.eraseIdx pass.kept)).acquire.pause t (.pinging e n pass),
        [.ping t e.link]⟩ := by
  have hs := isStale_eq_false p.idle.length hm he
  have ht : (p.setIdle (p.idle.eraseIdx pass.kept)).acquire.tuning.testWhileIdle = true :=
    hm.testWhileIdle
  simp [examine, hc, hf, hi, hs, ht]

theorem settle_true {pass : Pass} (hf : p.isFull = false) :
    p.settle e true pass =
      (⟨p.setIdle (p.idle.insertIdx (min pass.kept p.idle.length) e), []⟩,
        { pass with kept := pass.kept + 1 }) := by
  simp [settle, repark?, hf]

theorem sweepPinged_true {left : Nat} {pass : Pass}
    (hs : find? t p.sweeps = some (.pinging e left pass)) (hf : p.isFull = false) :
    p.sweepPinged now t true =
      ((p.dropSweep t).setIdle (p.idle.insertIdx (min pass.kept p.idle.length) e)).release.andThen
        (examine now t left { pass with kept := pass.kept + 1 }) := by
  have hd : (p.dropSweep t).isFull = false := hf
  simp only [sweepPinged, hs]
  change ((settle e true pass (p.dropSweep t)).1.andThen release).andThen
    (examine now t left (settle e true pass (p.dropSweep t)).2) = _
  rw [settle_true hd]
  rfl

theorem release_of_borrows_eq_nil (hb : p.borrows = []) :
    p.release = ⟨{ p with free := p.free + 1 }, []⟩ := by
  simp [release, hb, grant?]

/-- A pass begins with the connection at the front. -/
theorem Story.Arrives.sweep {n : Nat}
    (h : Arrives node tuning now opened (Stands tuning (e :: idle) (free + 1) lent sweeps))
    (hn : now ≤ now') (hm : MayMisplace tuning) (hl : tuning.testsPerEviction = n + 1)
    (ht : find? t sweeps = none) (he : e.since = now') :
    Arrives node tuning now' opened
      (Stands tuning idle free lent (sweeps ++ [(t, .pinging e n {})])) := by
  have hb := h.next (m := .sweep t) hn (fun p hp => hp.waiting? ht) (fun _ => rfl)
  refine hb.imp ?_
  rintro _ ⟨p, ⟨rfl, hc, hi, hf, rfl, hw, hr, rfl⟩, rfl⟩
  have hx : p.examine now' t (n + 1) {} = _ := examine_succ hc (by omega) (by simp [hi]) hm he
  simp only [step, Pool.sweep, hc, hl, hx, Bool.false_eq_true, if_false]
  constructor <;> simp [hc, hi, hf, hw, hr, pause, putAt, without_of_find?_eq_none ht, setIdle,
    acquire]

/-- The connection is kept, and the pass goes on to the one behind it. -/
theorem Story.Arrives.sweepOn {n : Nat} {b : Parked}
    (h : Arrives node tuning now opened
      (Stands tuning [b] free lent [(t, .pinging e (n + 1) {})]))
    (hm : MayMisplace tuning) (hb : b.since = now) :
    Arrives node tuning now opened
      (Stands tuning [e] free lent [(t, .pinging b n { kept := 1 })]) := by
  have hq := h.next (m := .pinged t true) le_rfl (fun _ _ => trivial)
    (fun p => openings_inputs_pinged p t true)
  refine hq.imp ?_
  rintro _ ⟨p, ⟨rfl, hc, hi, rfl, rfl, hw, hr, hsw⟩, rfl⟩
  have hd : p.waiting? t = some .sweep := by simp [Pool.waiting?, hw, hr, hsw, find?]
  have hs : find? t p.sweeps = some (.pinging e (n + 1) {}) := by simp [hsw, find?]
  have hf : p.isFull = false := by
    have := hm.maxIdle
    simp [isFull, hc, hi]
    omega
  have hx : (p.step now (.pinged t true)).state =
      (examine now t (n + 1) { kept := 1 }
        { (p.dropSweep t).setIdle [e, b] with free := p.free + 1 }).state := by
    simp only [step, hd, sweepPinged_true hs hf, hi]
    rw [release_of_borrows_eq_nil (by exact hw)]
    rfl
  rw [hx, examine_succ (p := { (p.dropSweep t).setIdle [e, b] with free := p.free + 1 }) (e := b)
    hc (Nat.succ_ne_zero _) rfl hm hb]
  constructor <;> simp [hc, hw, hr, hsw, pause, putAt, without, setIdle, dropSweep, acquire]

/-- All but the pass under the ticket is as it was. -/
structure SameBut (t : Ticket) (p q : Pool) : Prop where
  tuning : q.tuning = p.tuning
  closed : q.closed = p.closed
  idle : q.idle = p.idle
  lent : q.lent = p.lent
  borrows : q.borrows = p.borrows
  returns : q.returns = p.returns
  sweeps : ∀ u, u ≠ t → find? u q.sweeps = find? u p.sweeps

theorem endExamination_sameBut (pass : Pass) : SameBut t p (p.endExamination t pass).state := by
  unfold endExamination topUp
  split
  · constructor <;> simp +contextual [pause, acquire, find?_putAt_of_ne]
  · constructor <;> simp +contextual [endSweep, find?_without_of_ne]

theorem examine_eq_endExamination {left : Nat} {pass : Pass}
    (h : left = 0 ∨ p.idle[pass.kept]? = none) :
    p.examine now t left pass = p.endExamination t pass := by
  cases left with
  | zero => rfl
  | succ left =>
      have h := h.resolve_left (Nat.succ_ne_zero _)
      simp [examine, h]

/-- A pass ends with a connection that answered and goes back to its place. -/
theorem pinged_sameBut {left : Nat} {pass : Pass} (hb : p.borrows = []) (hr : p.returns = [])
    (hs : find? t p.sweeps = some (.pinging e left pass)) (hf : p.isFull = false)
    (hi : p.idle.insertIdx (min pass.kept p.idle.length) e = idle)
    (he : left = 0 ∨ idle[pass.kept + 1]? = none) :
    SameBut t { p with idle } (p.step now (.pinged t true)).state := by
  have hd : p.waiting? t = some .sweep := by
    have hb : find? t p.borrows = none := by simp [hb, find?]
    have hr : find? t p.returns = none := by simp [hr, find?]
    simp [Pool.waiting?, hb, hr, hs]
  simp only [step, hd, sweepPinged_true hs hf, hi]
  rw [release_of_borrows_eq_nil (by exact hb)]
  simp only [Reaction.andThen]
  rw [examine_eq_endExamination he]
  have h := endExamination_sameBut (t := t) (p := { (p.dropSweep t).setIdle idle with
    free := ((p.dropSweep t).setIdle idle).free + 1 }) { pass with kept := pass.kept + 1 }
  exact { h with sweeps := fun u hu => (h.sweeps u hu).trans (find?_without_of_ne hu) }

/-! ## The two stories -/

/-- An open pool in which only passes wait, with a younger idle connection before an older one. -/
structure Swapped (p : Pool) : Prop where
  closed : p.closed = false
  lent : p.lent = []
  borrows : p.borrows = []
  returns : p.returns = []
  idle : ∃ a b, p.idle = [a, b] ∧ b.since < a.since

theorem Swapped.not_ordered (h : p.Swapped) : ¬Ordered p.idle := by
  obtain ⟨a, b, hi, hlt⟩ := h.idle
  rw [hi]
  simpa [Ordered] using hlt

theorem Story.arrives_two (node : Node) (hv : tuning.Valid) (hm : MayMisplace tuning) :
    ∃ free, Arrives node tuning 0 [0, 1] (Stands tuning [⟨0, 0⟩] (free + 1) [1] []) := by
  obtain ⟨free, hf⟩ : ∃ free, tuning.maxTotal = free + 2 :=
    ⟨_, (Nat.sub_add_cancel (hm.maxIdle.trans hv.maxIdle_le)).symm⟩
  have h0 : Arrives node tuning 0 [] (Stands tuning [] (free + 2) [] []) :=
    ⟨start node tuning, .refl, rfl, rfl, by constructor <;> simp [start, ofNode, hf]⟩
  have h1 := (h0.fetch 0 (by simp)).fetch 1 (by simp)
  have hi := hm.maxIdle
  exact ⟨free, h1.bringBack 0 le_rfl rfl (by simp) (by simp; omega)⟩

/-- One pass pings the second connection while the first one is lent and comes back. -/
theorem Story.exists_swapped_of_two_le (hv : tuning.Valid) (hm : MayMisplace tuning)
    (hl : 2 ≤ tuning.testsPerEviction) :
    ∃ s, Leads (start node tuning) s ∧ s.pool.Swapped ∧ find? 3 s.pool.sweeps = none := by
  obtain ⟨n, hn⟩ : ∃ n, tuning.testsPerEviction = n + 2 := ⟨_, (Nat.sub_add_cancel hl).symm⟩
  obtain ⟨free, h⟩ := arrives_two node hv hm
  have hi := hm.maxIdle
  have h1 := h.bringBack 1 le_rfl rfl (by simp) (by simp; omega)
  -- The first connection is kept, the second one is pinged.
  have h2 := (h1.sweep (t := 1) le_rfl hm hn rfl rfl).sweepOn hm rfl
  -- Meanwhile the first one is lent and comes back later than the second one did.
  have h3 := (h2.take le_rfl rfl).bringBack 0 (Nat.zero_le 1) rfl (by simp) (by simp; omega)
  have h4 := h3.next (m := .pinged 1 true) le_rfl (fun _ _ => trivial)
    (fun p => openings_inputs_pinged p 1 true)
  obtain ⟨s, hs, -, -, p, hp, he⟩ := h4
  have hf : p.isFull = false := by
    simp [isFull, hp.closed, hp.tuning, hp.idle]
    omega
  have hq : SameBut 1 { p with idle := [⟨0, 1⟩, ⟨1, 0⟩] } (p.step 1 (.pinged 1 true)).state :=
    pinged_sameBut hp.borrows hp.returns (by rw [hp.sweeps]; rfl) hf (by rw [hp.idle]; rfl)
      (.inr rfl)
  refine ⟨s, hs, ?_, ?_⟩
  · rw [he]
    exact ⟨hq.closed.trans hp.closed, hq.lent.trans hp.lent, hq.borrows.trans hp.borrows,
      hq.returns.trans hp.returns, _, _, hq.idle, by decide⟩
  · rw [he, hq.sweeps 3 (by decide), hp.sweeps]
    rfl

/-- Each of two passes pings one connection, and the first one is the first to end. -/
theorem Story.exists_swapped_of_eq_one (hv : tuning.Valid) (hm : MayMisplace tuning)
    (hl : tuning.testsPerEviction = 1) :
    ∃ s, Leads (start node tuning) s ∧ s.pool.Swapped ∧ find? 3 s.pool.sweeps = none := by
  obtain ⟨free, h⟩ := arrives_two node hv hm
  have hi := hm.maxIdle
  -- While the first pass pings one connection, the other one comes back.
  have h1 := (h.sweep (t := 1) le_rfl hm hl rfl rfl).bringBack 1 (Nat.zero_le 1) rfl (by simp)
    (by simp; omega)
  -- The second pass takes it out, so both go back to the front, the younger one last.
  have h2 := h1.sweep (t := 2) le_rfl hm hl rfl rfl
  have h3 := (h2.next (m := .pinged 1 true) le_rfl (fun _ _ => trivial)
    (fun p => openings_inputs_pinged p 1 true)).next (m := .pinged 2 true) le_rfl
    (fun _ _ => trivial) (fun p => openings_inputs_pinged p 2 true)
  obtain ⟨s, hs, -, -, _, ⟨p, hp, rfl⟩, he⟩ := h3
  have hf : p.isFull = false := by
    simp [isFull, hp.closed, hp.tuning, hp.idle]
    omega
  have hq : SameBut 1 { p with idle := [⟨0, 0⟩] } (p.step 1 (.pinged 1 true)).state :=
    pinged_sameBut hp.borrows hp.returns (by rw [hp.sweeps]; rfl) hf (by rw [hp.idle]; rfl)
      (.inl rfl)
  have hf' : (p.step 1 (.pinged 1 true)).state.isFull = false := by
    simp [isFull, hq.closed, hp.closed, hq.tuning, hp.tuning, hq.idle]
    omega
  have hs' : find? 2 (p.step 1 (.pinged 1 true)).state.sweeps =
      some (.pinging ⟨1, 1⟩ 0 {}) := by
    rw [hq.sweeps 2 (by decide)]
    simp only [hp.sweeps]
    rfl
  have hq' : SameBut 2 { (p.step 1 (.pinged 1 true)).state with idle := [⟨1, 1⟩, ⟨0, 0⟩] }
      ((p.step 1 (.pinged 1 true)).state.step 1 (.pinged 2 true)).state :=
    pinged_sameBut (hq.borrows.trans hp.borrows) (hq.returns.trans hp.returns) hs' hf'
      (by rw [hq.idle]; rfl) (.inl rfl)
  refine ⟨s, hs, ?_, ?_⟩
  · rw [he]
    exact ⟨hq'.closed.trans (hq.closed.trans hp.closed), hq'.lent.trans (hq.lent.trans hp.lent),
      hq'.borrows.trans (hq.borrows.trans hp.borrows),
      hq'.returns.trans (hq.returns.trans hp.returns), _, _, hq'.idle, by decide⟩
  · rw [he, hq'.sweeps 3 (by decide), hq.sweeps 3 (by decide), hp.sweeps]
    rfl

theorem Story.exists_swapped (node : Node) (hv : tuning.Valid) (hm : MayMisplace tuning) :
    ∃ s, Leads (start node tuning) s ∧ s.pool.Swapped ∧ find? 3 s.pool.sweeps = none := by
  by_cases hl : 2 ≤ tuning.testsPerEviction
  · exact exists_swapped_of_two_le hv hm hl
  · have := hm.testsPerEviction
    exact exists_swapped_of_eq_one hv hm (by omega)

theorem Story.exists_not_ordered_of_two_le (hv : tuning.Valid) (hm : MayMisplace tuning)
    (hl : 2 ≤ tuning.testsPerEviction) :
    ∃ s, Leads (start node tuning) s ∧ ¬Ordered s.pool.idle := by
  obtain ⟨s, hs, hw, -⟩ := exists_swapped_of_two_le hv hm hl
  exact ⟨s, hs, hw.not_ordered⟩

theorem Story.exists_not_ordered_of_eq_one (hv : tuning.Valid) (hm : MayMisplace tuning)
    (hl : tuning.testsPerEviction = 1) :
    ∃ s, Leads (start node tuning) s ∧ ¬Ordered s.pool.idle := by
  obtain ⟨s, hs, hw, -⟩ := exists_swapped_of_eq_one hv hm hl
  exact ⟨s, hs, hw.not_ordered⟩

/-! ## When the order is kept -/

namespace Story

/-- All stories of a pool keep the order just when its tuning cannot misplace a connection. In
order, every move keeps the order that puts no connection where it does not fit, and the next
connection to be lent is the one that came back last or has been idle longest. -/
theorem ordered_iff (hv : tuning.Valid) :
    ((∀ s, Leads (start node tuning) s → Ordered s.pool.idle) ↔ ¬MayMisplace tuning) ∧
      ∀ s, Leads (start node tuning) s → Ordered s.pool.idle →
        (∀ now m, s.now ≤ now → s.Admits m → s.pool.KeepsPlace m →
          Ordered (s.next now m).pool.idle) ∧
        ∀ e q, s.pool.takeIdle? = some (e, q) → ∀ x ∈ s.pool.idle,
          if s.pool.tuning.lifo then x.since ≤ e.since else e.since ≤ x.since := by
  refine ⟨⟨fun h hm => ?_, fun hm s hs => hs.ordered hm⟩, fun s hs ho => ⟨?_, ?_⟩⟩
  · have : ∃ s, Leads (start node tuning) s ∧ ¬Ordered s.pool.idle := by
      by_cases hl : 2 ≤ tuning.testsPerEviction
      · exact exists_not_ordered_of_two_le hv hm hl
      · have := hm.testsPerEviction
        exact exists_not_ordered_of_eq_one hv hm (by omega)
    obtain ⟨s, hs, ho⟩ := this
    exact ho (h s hs)
  · intro now m hn ha hk
    exact ((hs.kept kept_start).coherent.later hn).ordered_step ha.accepts hk ho
  · intro e q ht
    exact takeIdle?_ordered ho ht

theorem ordered_iff_default :
    ¬(∀ s, Leads (start default {}) s → Ordered s.pool.idle) ∧
      ∀ s, Leads (start default { testWhileIdle := false }) s → Ordered s.pool.idle := by
  have hv : ({} : Config.PoolTuning).Valid := ⟨by decide, by decide, by decide⟩
  have hv' : ({ testWhileIdle := false } : Config.PoolTuning).Valid :=
    ⟨by decide, by decide, by decide⟩
  refine ⟨fun h => ?_, (ordered_iff hv').1.mpr fun hm => Bool.false_ne_true hm.testWhileIdle⟩
  exact (ordered_iff hv).1.mp h ⟨rfl, by decide, by decide, by decide⟩

/-- While a pass pings its second connection, the first one is lent and comes back. -/
def slowPing : List (Nat × Move) :=
  [(0, .borrow 0), (0, .connected 0 (.ok 0)), (0, .borrow 1), (0, .connected 1 (.ok 1)),
    (0, .giveBack 2 0 true), (10, .giveBack 3 1 true), (10, .sweep 4), (110, .pinged 4 true),
    (160, .borrow 5), (160, .giveBack 6 0 true), (210, .pinged 4 true)]

/-- A pool that lends the oldest connection first ends with the oldest one at the back. -/
theorem not_ordered_slowPing :
    Leads (start default { lifo := false }) ((start default { lifo := false }).play slowPing) ∧
      ((start default { lifo := false }).play slowPing).pool.idle = [⟨0, 160⟩, ⟨1, 10⟩] ∧
      ¬Ordered ((start default { lifo := false }).play slowPing).pool.idle := by
  have hi : ((start default { lifo := false }).play slowPing).pool.idle = [⟨0, 160⟩, ⟨1, 10⟩] := by
    decide
  refine ⟨Plays.leads (by decide), hi, ?_⟩
  rw [hi]
  simp [Ordered]

end Story

end Shardway.Pool
