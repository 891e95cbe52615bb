import Shardway.Config.Validity
import Shardway.Proofs.Pool.Order
import Shardway.Proofs.Pool.Verdicts
import Shardway.Proofs.Pool.Waiting

/-!
# One eviction pass

A pass during which no other operation makes a move. Between two examinations the idle connections
are those that were kept, in their order, and behind them those that were not examined yet.
-/

namespace Shardway.Pool

variable {tuning : Config.PoolTuning} {xs ys : List Exam} {x : Exam} {es es' : List Event}

/-! ## Between two examinations -/

/-- What a pool is like in which a pass under the ticket can begin and examine something. -/
structure Ready (t : Ticket) (now : Nat) (p : Pool) : Prop where
  closed : p.closed = false
  free : 0 < p.free
  served : ∀ x ∈ p.borrows, x.2 ≠ .queued
  waiting : p.waiting? t = none
  idle_le : p.idle.length ≤ p.tuning.maxIdle
  minIdle_le : p.tuning.minIdle ≤ p.tuning.maxIdle
  since_le : ∀ e ∈ p.idle, e.since ≤ now

/-- What the pass counts after these examinations. -/
def passAfter (tuning : Config.PoolTuning) (xs : List Exam) : Pass where
  kept := (staying tuning xs).length
  closed := (evicted tuning xs).length

/-- But for its idle connections, its permits, its metrics and the pass, the pool is as `p₀` is. -/
structure Alike (t : Ticket) (p₀ p : Pool) : Prop where
  node : p.node = p₀.node
  tuning : p.tuning = p₀.tuning
  closed : p.closed = p₀.closed
  lent : p.lent = p₀.lent
  borrows : p.borrows = p₀.borrows
  returns : p.returns = p₀.returns
  sweeps : without t p.sweeps = p₀.sweeps

/-- The pool `p₀` has become `p` by these examinations. -/
structure Amid (t : Ticket) (p₀ : Pool) (xs : List Exam) (p : Pool) : Prop extends
    Alike t p₀ p where
  log : Each (Exact p₀.tuning p₀.idle) xs
  idle : p.idle = remaining p₀.tuning p₀.idle xs
  free : p.free = p₀.free
  evictions : p.metrics.evictions = p₀.metrics.evictions

/-- As well, with the next connection in the hand of the pass. -/
structure InHand (t : Ticket) (p₀ : Pool) (xs : List Exam) (p : Pool) : Prop extends
    Alike t p₀ p where
  log : Each (Exact p₀.tuning p₀.idle) xs
  idle : p.idle = staying p₀.tuning xs ++ p₀.idle.drop (xs.length + 1)
  free : p.free + 1 = p₀.free
  evictions : p.metrics.evictions = p₀.metrics.evictions

variable {t : Ticket} {now now₀ left n : Nat} {p₀ p : Pool} {e : Parked} {pass : Pass} {r : Reaction}

theorem Alike.eq_of_ends (h : Alike t p₀ p) (hs : find? t p.sweeps = none) (hf : p.free = p₀.free) :
    p = { p₀ with idle := p.idle, metrics := p.metrics } := by
  obtain ⟨hn, ht, hc, hl, hb, hr, hsw⟩ := h
  rw [without_of_find?_eq_none hs] at hsw
  rw [← hn, ← ht, ← hc, ← hl, ← hb, ← hr, ← hsw, ← hf]

theorem isStale_iff (h : e.since ≤ now) (ping : Option Bool) :
    p.isStale now l.length e = true ↔ Exam.Stale p.tuning ⟨e, now, l, ping⟩ := by
  simp only [isStale, Bool.or_eq_true, Bool.and_eq_true, decide_eq_true_eq, Exam.Stale, Exam.Old,
    Exam.Spare]
  omega

theorem settled_eq (hc : p.closed = false) (hq : ∀ x ∈ p.borrows, x.2 ≠ .queued)
    (hl : p.idle.length < p.tuning.maxIdle) (e : Parked) (keep : Bool) (pass : Pass) :
    ∃ metrics, metrics.evictions = p.metrics.evictions ∧
      p.settled e keep pass =
        (⟨{ p with
            idle := if keep then p.idle.insertIdx (min pass.kept p.idle.length) e else p.idle
            free := p.free + 1
            metrics }, if keep then [] else [.close e.link]⟩,
          if keep then { pass with kept := pass.kept + 1 }
          else { pass with closed := pass.closed + 1 }) := by
  have hf : p.isFull = false := by simpa [isFull, hc] using hl
  cases keep with
  | true =>
      refine ⟨(p.setIdle (p.idle.insertIdx (min pass.kept p.idle.length) e)).metrics, rfl, ?_⟩
      simp only [settled, settle, repark?, hf, if_true, Bool.false_eq_true, if_false,
        Reaction.andThen]
      rw [release_of_no_queued (p := p.setIdle _) hc hq]
      rfl
  | false =>
      refine ⟨(p.discard e.link).state.metrics, rfl, ?_⟩
      simp only [settled, settle, Bool.false_eq_true, if_false, Reaction.andThen]
      rw [release_of_no_queued (p := (p.discard e.link).state) hc hq]
      rfl

/-- A new connection takes a place among the idle ones, and its permit comes free. -/
theorem refill_eq (hc : p.closed = false) (hq : ∀ x ∈ p.borrows, x.2 ≠ .queued)
    (hl : p.idle.length < p.tuning.maxIdle) (now : Nat) (link : Link) :
    ∃ metrics, metrics.evictions = p.metrics.evictions ∧
      (p.countCreated.park now link).andThen release =
        ⟨{ p with idle := p.idle ++ [⟨link, now⟩], free := p.free + 1, metrics }, []⟩ := by
  have hf : p.countCreated.isFull = false := by simpa [isFull, countCreated, hc] using hl
  have hpark : p.countCreated.park now link =
      ⟨p.countCreated.setIdle (p.idle ++ [⟨link, now⟩]), []⟩ := by
    unfold park
    rw [if_neg (by simp [hf])]
    rfl
  refine ⟨(p.countCreated.setIdle (p.idle ++ [⟨link, now⟩])).metrics, rfl, ?_⟩
  rw [hpark, Reaction.andThen, release_of_no_queued (p := p.countCreated.setIdle _) hc hq]
  rfl

theorem Amid.takeOut (hr : Ready t now₀ p₀) (h : Amid t p₀ xs p)
    (he : p.idle[(passAfter p₀.tuning xs).kept]? = some e) :
    p₀.idle[xs.length]? = some e ∧ InHand t p₀ xs (p.takeOut (passAfter p₀.tuning xs).kept) := by
  have he : p₀.idle[xs.length]? = some e := by
    rw [h.idle, remaining] at he
    simpa [passAfter, List.getElem?_append_right] using he
  obtain ⟨hlt, -⟩ := List.getElem?_eq_some_iff.mp he
  refine ⟨he, { h with idle := ?_, free := ?_ }⟩
  · change p.idle.eraseIdx _ = _
    rw [h.idle, remaining, passAfter, List.drop_eq_getElem_cons hlt, eraseIdx_length]
  · change p.free - 1 + 1 = _
    rw [h.free, Nat.sub_add_cancel hr.free]

/-- With its verdict, the connection goes back to its place or is closed. -/
theorem InHand.settled {keep : Bool} (hr : Ready t now₀ p₀) (h : InHand t p₀ xs p)
    (hx : Exact p₀.tuning p₀.idle xs x) (hk : keep = true ↔ ¬x.Evicts p₀.tuning) :
    Amid t p₀ (xs ++ [x]) (p.settled x.entry keep (passAfter p₀.tuning xs)).1.state ∧
      (p.settled x.entry keep (passAfter p₀.tuning xs)).2 = passAfter p₀.tuning (xs ++ [x]) ∧
      (p.settled x.entry keep (passAfter p₀.tuning xs)).1.effects =
        (evicted p₀.tuning [x]).map .close := by
  obtain ⟨hlt, -⟩ := List.getElem?_eq_some_iff.mp hx.entry
  -- The connection left a place free when it was taken out, so it is never turned away.
  have hl : p.idle.length < p.tuning.maxIdle := by
    have := hr.idle_le
    have : (staying p₀.tuning xs).length ≤ xs.length := length_staying_le
    rw [h.idle, h.tuning, List.length_append, List.length_drop]
    omega
  obtain ⟨metrics, hev, heq⟩ := settled_eq (h.closed.trans hr.closed) (h.borrows ▸ hr.served) hl
    x.entry keep (passAfter p₀.tuning xs)
  have hlog : Each (Exact p₀.tuning p₀.idle) (xs ++ [x]) := each_concat.mpr ⟨h.log, hx⟩
  rw [heq]
  cases keep with
  | true =>
      have hx : ¬x.Evicts p₀.tuning := hk.mp rfl
      refine ⟨{ h with log := hlog, idle := ?_, evictions := hev.trans h.evictions }, ?_, ?_⟩
      · simp only [if_true, passAfter, h.idle, insertIdx_length]
        simp [remaining, staying_singleton, hx]
      · simp [passAfter, staying_singleton, evicted_singleton, hx]
      · simp [evicted_singleton, hx]
  | false =>
      have hx : x.Evicts p₀.tuning := by simpa using hk
      refine ⟨{ h with log := hlog, idle := ?_, evictions := hev.trans h.evictions }, ?_, ?_⟩
      · simp [h.idle, remaining, staying_singleton, hx]
      · simp [passAfter, staying_singleton, evicted_singleton, hx]
      · simp [evicted_singleton, hx]

/-! ## Stages -/

/-- All is examined that the pass may examine. -/
def IsThrough (p₀ : Pool) (xs : List Exam) : Prop :=
  xs.length = min p₀.tuning.testsPerEviction p₀.idle.length

/-- The pass waits for a ping, `left` connections from its end. -/
structure Pinging (t : Ticket) (p₀ : Pool) (es : List Event) (xs : List Exam) (x : Exam) (p : Pool) :
    Prop extends InHand t p₀ xs p where
  stage : ∃ left, find? t p.sweeps = some (.pinging x.entry left (passAfter p₀.tuning xs)) ∧
    xs.length + 1 + left = p₀.tuning.testsPerEviction
  entry : p₀.idle[xs.length]? = some x.entry
  before : x.idle = remaining p₀.tuning p₀.idle xs
  tested : x.IsTested p₀.tuning
  ping : x.ping = none
  tells : Tells p₀.tuning (xs ++ [x]) [] es

/-- Nothing more is to be examined; `fresh` are the connections that were opened since. -/
structure Topping (t : Ticket) (p₀ : Pool) (xs : List Exam) (fresh : List Parked) (p : Pool) :
    Prop extends Alike t p₀ p where
  log : Each (Exact p₀.tuning p₀.idle) xs
  through : IsThrough p₀ xs
  idle : p.idle = remaining p₀.tuning p₀.idle xs ++ fresh
  evictions : p.metrics.evictions =
    p₀.metrics.evictions.add (evicted p₀.tuning xs).length.toUInt64
  fresh_le : fresh.length ≤ p₀.tuning.minIdle

/-- Where a pass can be after `n` answers, with its log. -/
inductive Stage (t : Ticket) (p₀ : Pool) (es : List Event) (p : Pool) : Nat → List Exam → Prop
  | pinging {n : Nat} {xs : List Exam} {x : Exam} :
      Pinging t p₀ es xs x p → n ≤ xs.length → Stage t p₀ es p n (xs ++ [x])
  | connecting {n : Nat} {xs : List Exam} {fresh : List Parked} :
      Topping t p₀ xs fresh p →
      find? t p.sweeps = some (.connecting (evicted p₀.tuning xs).length) →
      p.free + 1 = p₀.free → p.idle.length < p₀.tuning.minIdle →
      n ≤ xs.length + fresh.length → Tells p₀.tuning xs (fresh.map (·.link)) es →
      Stage t p₀ es p n xs
  | ends {n : Nat} {xs : List Exam} {fresh : List Parked} {es' : List Event} :
      Topping t p₀ xs fresh p → find? t p.sweeps = none → p.free = p₀.free →
      n ≤ xs.length + p₀.tuning.minIdle → Tells p₀.tuning xs (fresh.map (·.link)) es' →
      es = es' ++ [.told (.swept t (evicted p₀.tuning xs).length)] →
      Stage t p₀ es p n xs

theorem Stage.entries (hx : Stage t p₀ es p n xs) : xs.map (·.entry) = p₀.idle.take xs.length := by
  cases hx with
  | pinging h _ =>
      rw [List.map_append, exact_entries h.log, List.length_append, List.length_singleton,
        List.take_add_one, h.entry]
      rfl
  | connecting h => exact exact_entries h.log
  | ends h => exact exact_entries h.log

theorem Stage.length_le (hx : Stage t p₀ es p n xs) : xs.length ≤ p₀.tuning.testsPerEviction := by
  cases hx with
  | pinging h _ =>
      obtain ⟨left, -, hl⟩ := h.stage
      rw [List.length_append, List.length_singleton]
      omega
  | connecting h =>
      rw [h.through]
      exact Nat.min_le_left ..
  | ends h =>
      rw [h.through]
      exact Nat.min_le_left ..

theorem Stage.answers_le (hx : Stage t p₀ es p n xs) :
    n ≤ p₀.tuning.testsPerEviction + p₀.tuning.minIdle := by
  have hl := hx.length_le
  cases hx with
  | pinging _ hn =>
      rw [List.length_append] at hl
      omega
  | connecting h _ _ _ hn =>
      have := h.fresh_le
      omega
  | ends _ _ _ hn => omega

theorem Stage.told (hx : Stage t p₀ es p n xs) :
    closings es = evicted p₀.tuning xs ∧ pings es = tested p₀.tuning xs := by
  cases hx with
  | pinging h _ => exact ⟨h.tells.closings, h.tells.pings⟩
  | connecting _ _ _ _ _ he => exact ⟨he.closings, he.pings⟩
  | ends _ _ _ _ he hes =>
      obtain ⟨hc, hp, -⟩ := he
      subst hes
      rw [closings_append, pings_append, hc, hp]
      exact ⟨List.append_nil _, List.append_nil _⟩

theorem Stage.floor (hx : Stage t p₀ es p n xs)
    (hno : ∀ x ∈ xs, ¬x.Old p₀.tuning ∧ x.ping ≠ some false) :
    min p₀.tuning.minIdle p₀.idle.length ≤
      p.idle.length + ((find? t p.sweeps).bind (·.link?)).toList.length := by
  cases hx with
  | @pinging xs x h _ =>
      obtain ⟨left, hs, -⟩ := h.stage
      obtain ⟨hlt, -⟩ := List.getElem?_eq_some_iff.mp h.entry
      have hm := min_le_length_remaining h.log fun x hx => hno x (List.mem_append_left _ hx)
      -- The connection that is pinged stands for its place among those that are left.
      rw [hs, h.idle]
      simp only [remaining, List.length_append, List.length_drop, Option.bind_some,
        SweepStage.link?_pinging, Option.toList_some, List.length_singleton] at hm ⊢
      omega
  | connecting h =>
      have hm := min_le_length_remaining h.log hno
      rw [h.idle, List.length_append]
      omega
  | ends h =>
      have hm := min_le_length_remaining h.log hno
      rw [h.idle, List.length_append]
      omega

theorem Topping.topUp {fresh : List Parked} (hr : Ready t now₀ p₀) (h : Topping t p₀ xs fresh p)
    (hf : p.free = p₀.free) (hn : n ≤ xs.length + fresh.length)
    (he : Tells p₀.tuning xs (fresh.map (·.link)) es) :
    Stage t p₀ (es ++ tell (p.topUp t (evicted p₀.tuning xs).length).effects)
      (p.topUp t (evicted p₀.tuning xs).length).state n xs := by
  unfold Pool.topUp
  split
  · rename_i hc
    simp only [needsIdle, Bool.and_eq_true, decide_eq_true_eq] at hc
    obtain ⟨⟨-, hl, -⟩, -⟩ := hc
    have hs : without t (putAt t (.connecting (evicted p₀.tuning xs).length) p.sweeps) =
        p₀.sweeps := without_putAt.trans h.sweeps
    refine .connecting { h with sweeps := hs } find?_putAt ?_ (h.tuning ▸ hl) hn ?_
    · change p.free - 1 + 1 = _
      rw [hf, Nat.sub_add_cancel hr.free]
    · exact he.more rfl rfl rfl
  · have hs : without t (without t p.sweeps) = p₀.sweeps := without_without.trans h.sweeps
    refine .ends { h with sweeps := hs } find?_without hf ?_ he rfl
    have := h.fresh_le
    omega

theorem Amid.endExamination (hr : Ready t now₀ p₀) (h : Amid t p₀ xs p) (ht : IsThrough p₀ xs)
    (hn : n ≤ xs.length) (he : Tells p₀.tuning xs [] es) :
    Stage t p₀ (es ++ tell (p.endExamination t (passAfter p₀.tuning xs)).effects)
      (p.endExamination t (passAfter p₀.tuning xs)).state n xs := by
  have h' : Topping t p₀ xs [] { p with metrics := { p.metrics with
      evictions := p.metrics.evictions.add (evicted p₀.tuning xs).length.toUInt64 } } :=
    { h with
      through := ht
      idle := by simpa using h.idle
      evictions := by rw [← h.evictions]
      fresh_le := Nat.zero_le _ }
  exact h'.topUp hr h.free hn he

theorem Amid.through (hr : Ready t now₀ p₀) (h : Amid t p₀ xs p)
    (hl : xs.length + left = p₀.tuning.testsPerEviction)
    (ho : left = 0 ∨ p.closed = true ∨ p.free = 0 ∨
      p.idle[(passAfter p₀.tuning xs).kept]? = none) : IsThrough p₀ xs := by
  have hle : xs.length ≤ p₀.idle.length := exact_length_le h.log
  unfold IsThrough
  rcases ho with rfl | hc | hf | hi
  · omega
  · cases (h.closed.trans hr.closed).symm.trans hc
  · have := hr.free
    rw [h.free] at hf
    omega
  · rw [List.getElem?_eq_none_iff, h.idle, remaining, passAfter, List.length_append,
      List.length_drop] at hi
    dsimp only at hi
    omega

theorem Amid.exam (hr : Ready t now₀ p₀) (h : Amid t p₀ xs p) (hn : now₀ ≤ now)
    (he : p.idle[(passAfter p₀.tuning xs).kept]? = some e) :
    p.isStale now p.idle.length e = true ↔ Exam.Stale p₀.tuning ⟨e, now, p.idle, none⟩ := by
  obtain ⟨he, -⟩ := h.takeOut hr he
  have hs : e.since ≤ now := (hr.since_le e (List.mem_of_getElem? he)).trans hn
  rw [← h.tuning]
  exact isStale_iff hs none

/-- Examination goes on until a ping, or to its end. -/
theorem Examines.stage (hr : Ready t now₀ p₀) (hx : Examines now t left pass p ys r)
    (h : Amid t p₀ xs p) (hp : pass = passAfter p₀.tuning xs)
    (hl : xs.length + left = p₀.tuning.testsPerEviction) (hn : n ≤ xs.length) (ht : now₀ ≤ now)
    (he : Tells p₀.tuning xs [] es) :
    Stage t p₀ (es ++ tell r.effects) r.state n (xs ++ ys) := by
  induction hx generalizing xs es with
  | @ends left pass p ho =>
      subst hp
      rw [List.append_nil]
      exact h.endExamination hr (h.through hr hl ho) hn he
  | @ping left pass p e hc hf hi hs hw =>
      subst hp
      obtain ⟨hentry, hh⟩ := h.takeOut hr hi
      have hstale := h.exam hr ht hi
      have htest : Exam.IsTested p₀.tuning ⟨e, now, p.idle, none⟩ := by
        refine ⟨h.tuning ▸ hw, fun hst => ?_⟩
        cases hs.symm.trans (hstale.mpr hst)
      refine .pinging ⟨{ hh with sweeps := without_putAt.trans hh.sweeps }, ⟨left, find?_putAt, ?_⟩,
        hentry, h.idle, htest, rfl, he.append ⟨?_, ?_, rfl⟩⟩ hn
      · omega
      · rw [evicted_of_isTested htest rfl]
        rfl
      · rw [tested_singleton, if_pos htest]
        rfl
  | @settle left pass p e ys r hc hf hi hs _ ih =>
      subst hp
      obtain ⟨hentry, hh⟩ := h.takeOut hr hi
      have hstale := h.exam hr ht hi
      have htest : ¬Exam.IsTested p₀.tuning ⟨e, now, p.idle, none⟩ := by
        rintro ⟨hw, hst⟩
        rcases hs with hs | hs
        · exact hst (hstale.mp hs)
        · rw [h.tuning, hw] at hs
          cases hs
      have hexact : Exact p₀.tuning p₀.idle xs ⟨e, now, p.idle, none⟩ :=
        ⟨hentry, h.idle, by simpa using htest⟩
      have hkeep : (!p.isStale now p.idle.length e) = true ↔
          ¬Exam.Evicts p₀.tuning ⟨e, now, p.idle, none⟩ := by
        rw [evicts_iff_of_ping_eq_none rfl, ← hstale]
        simp
      -- The verdict leaves the pool as `Amid` says with one examination more.
      obtain ⟨hamid, hpass, heff⟩ := hh.settled hr hexact hkeep
      have hnext := ih hamid hpass (by simp; omega) (by simp; omega)
        (he.append (tells_close htest))
      have heff : ((p.takeOut (passAfter p₀.tuning xs).kept).settled e
          (!p.isStale now p.idle.length e) (passAfter p₀.tuning xs)).1.effects = _ := heff
      rw [List.append_cons, Reaction.andThen_effects, heff, tell_append, ← List.append_assoc]
      exact hnext

/-! ## Answers -/

theorem Stage.begins (hr : Ready t now₀ p₀) (ht : now₀ ≤ now) :
    Stage t p₀ (tell (p₀.sweep now t).effects) (p₀.sweep now t).state 0
      (examined now p₀.tuning.testsPerEviction {} p₀) := by
  have hs : without t p₀.sweeps = p₀.sweeps :=
    without_of_find?_eq_none (waiting?_eq_none.mp hr.waiting).2.2
  have h : Amid t p₀ [] p₀ := ⟨⟨rfl, rfl, rfl, rfl, rfl, rfl, hs⟩, each_nil, rfl, rfl, rfl⟩
  have hx := (examines now t p₀.tuning.testsPerEviction {} p₀).stage hr h rfl (Nat.zero_add _)
    (Nat.le_refl 0) ht tells_nil
  simpa [Pool.sweep, hr.closed] using hx

theorem Pinging.answered (hr : Ready t now₀ p₀) (h : Pinging t p₀ es xs x p)
    (hs : find? t p.sweeps = some (.pinging e left pass)) (ht : now₀ ≤ now) (hn : n ≤ xs.length)
    (alive : Bool) :
    Stage t p₀ (es ++ tell (p.sweepPinged now t alive).effects) (p.sweepPinged now t alive).state
      (n + 1)
      (xs ++ { x with ping := some alive } ::
        examined now left (p.answered t alive e pass).2 (p.answered t alive e pass).1.state) := by
  obtain ⟨left', hs', hl⟩ := h.stage
  cases hs'.symm.trans hs
  have hexact : Exact p₀.tuning p₀.idle xs { x with ping := some alive } :=
    ⟨h.entry, h.before, fun _ => h.tested, fun _ => rfl⟩
  have hkeep : alive = true ↔ ¬Exam.Evicts p₀.tuning { x with ping := some alive } := by
    obtain ⟨hw, hst⟩ := h.tested
    have hst : ¬Exam.Stale p₀.tuning { x with ping := some alive } := hst
    simp [Exam.Evicts, hw, hst]
  have hin : InHand t p₀ xs
      (if alive then p.dropSweep t else (p.dropSweep t).countValidationFailure) := by
    have hsw : without t (without t p.sweeps) = p₀.sweeps := without_without.trans h.sweeps
    split
    · exact { h.toInHand with sweeps := hsw }
    · exact { h.toInHand with sweeps := hsw }
  have htells : Tells p₀.tuning (xs ++ [{ x with ping := some alive }]) []
      (es ++ tell ((evicted p₀.tuning [{ x with ping := some alive }]).map .close)) := by
    -- The log has had the ping since it began, but a closing only comes with the answer.
    obtain ⟨hc, hp, ho⟩ := h.tells
    rw [evicted_append, evicted_of_isTested h.tested h.ping, List.append_nil] at hc
    constructor
    · rw [closings_append, hc, closings_close, evicted_append]
    · have htest : Exam.IsTested p₀.tuning { x with ping := some alive } := h.tested
      rw [pings_append, hp, pings_close, List.append_nil, tested_append, tested_append,
        tested_singleton, tested_singleton, if_pos h.tested, if_pos htest]
    · rw [openings_append, ho, Story.openings_tell, List.append_nil]
  obtain ⟨hamid, hpass, heff⟩ := hin.settled hr hexact hkeep
  have hnext := (examines now t left _ _).stage hr hamid hpass (by simpa using hl)
    (show n + 1 ≤ _ by simpa using hn) ht htells
  have heff : (p.answered t alive x.entry (passAfter p₀.tuning xs)).1.effects = _ := heff
  rw [sweepPinged_eq hs, Reaction.andThen_effects, heff, tell_append, ← List.append_assoc,
    List.append_cons]
  exact hnext

theorem Topping.refilled {fresh : List Parked} (hr : Ready t now₀ p₀) (h : Topping t p₀ xs fresh p)
    (hf : p.free + 1 = p₀.free) (hl : p.idle.length < p₀.tuning.minIdle) (now : Nat) (link : Link) :
    ∃ q, (p.countCreated.park now link).andThen release = ⟨q, []⟩ ∧ q.free = p₀.free ∧
      Topping t p₀ xs (fresh ++ [⟨link, now⟩]) q := by
  have hmax : p.idle.length < p.tuning.maxIdle := by
    have := hr.minIdle_le
    rw [h.tuning]
    omega
  obtain ⟨metrics, hev, heq⟩ :=
    refill_eq (h.closed.trans hr.closed) (h.borrows ▸ hr.served) hmax now link
  refine ⟨_, heq, hf, { h with idle := ?_, evictions := hev.trans h.evictions, fresh_le := ?_ }⟩
  · simp only [h.idle, List.append_assoc]
  · rw [h.idle, List.length_append] at hl
    rw [List.length_append, List.length_singleton]
    omega

theorem Topping.connected_ok {fresh : List Parked} (hr : Ready t now₀ p₀)
    (h : Topping t p₀ xs fresh p)
    (hs : find? t p.sweeps = some (.connecting (evicted p₀.tuning xs).length))
    (hf : p.free + 1 = p₀.free) (hl : p.idle.length < p₀.tuning.minIdle)
    (hn : n ≤ xs.length + fresh.length) (he : Tells p₀.tuning xs (fresh.map (·.link)) es)
    (now : Nat) (link : Link) :
    Stage t p₀ (es ++ [.opened link] ++ tell (p.sweepConnected now t (.ok link)).effects)
      (p.sweepConnected now t (.ok link)).state (n + 1) xs := by
  obtain ⟨q, hq, hqf, htop⟩ := h.refilled hr hf hl now link
  have htells : Tells p₀.tuning xs ((fresh ++ [(⟨link, now⟩ : Parked)]).map (·.link))
      (es ++ [.opened link]) := by
    have h' : Tells p₀.tuning [] [link] [.opened link] := ⟨rfl, rfl, rfl⟩
    simpa using he.append h'
  have hn' : n + 1 ≤ xs.length + (fresh ++ [(⟨link, now⟩ : Parked)]).length := by
    rw [List.length_append, List.length_singleton]
    omega
  simp only [Pool.sweepConnected, hs]
  rw [hq]
  exact htop.topUp hr hqf hn' htells

theorem Topping.connected_error {fresh : List Parked} (hr : Ready t now₀ p₀)
    (h : Topping t p₀ xs fresh p)
    (hs : find? t p.sweeps = some (.connecting (evicted p₀.tuning xs).length))
    (hf : p.free + 1 = p₀.free) (hl : p.idle.length < p₀.tuning.minIdle)
    (hn : n ≤ xs.length + fresh.length) (he : Tells p₀.tuning xs (fresh.map (·.link)) es)
    (now : Nat) (f : Fault) :
    Stage t p₀ (es ++ [.missed t f] ++ tell (p.sweepConnected now t (.error f)).effects)
      (p.sweepConnected now t (.error f)).state (n + 1) xs := by
  have hfresh : fresh.length < p₀.tuning.minIdle := by
    rw [h.idle, List.length_append] at hl
    omega
  have hrel := release_of_no_queued (h.closed.trans hr.closed) (h.borrows ▸ hr.served)
  simp only [Pool.sweepConnected, hs, Reaction.andThen, hrel]
  have htells : Tells p₀.tuning xs (fresh.map (·.link))
      (es ++ ([.missed t f] ++ tell [.notice (.refillFailed p.addr f)])) := he.more rfl rfl rfl
  refine .ends { h with sweeps := without_without.trans h.sweeps } find?_without hf ?_ htells ?_
  · omega
  · simp [Pool.endSweep]

namespace Story

variable {node : Node} {s s' : Story}

theorem Leads.ready (hs : Leads (start node tuning) s) (hv : tuning.Valid)
    (hc : s.pool.closed = false) (hf : 0 < s.pool.free) (ha : s.Admits (.sweep t)) :
    Ready t s.now s.pool where
  closed := hc
  free := hf
  served := hs.served hc hf
  waiting := ha.accepts
  idle_le := (hs.kept kept_start).sound.idle_le
  minIdle_le := by
    have ht : s.pool.tuning = tuning := hs.tuning_eq kept_start
    rw [ht]
    exact hv.minIdle_le
  since_le := (hs.kept kept_start).coherent.since_le

theorem Stage.pinged {alive : Bool} (hr : Ready t now₀ p₀) (hx : Stage t p₀ es s.pool n (xs ++ [x]))
    (ht : now₀ ≤ now) (hw : s.pool.waiting? t = some .sweep)
    (hs : find? t s.pool.sweeps = some (.pinging e left pass)) :
    Stage t p₀ (es ++ s.news now (.pinged t alive)) (s.next now (.pinged t alive)).pool (n + 1)
      (xs ++ { x with ping := some alive } ::
        examined now left (s.pool.answered t alive e pass).2
          (s.pool.answered t alive e pass).1.state) := by
  generalize hys : xs ++ [x] = ys at hx
  cases hx with
  | @pinging xs' x' hp hn =>
      obtain ⟨rfl, hxx⟩ := List.append_inj' hys rfl
      obtain rfl := List.singleton_inj.mp hxx
      have htells : Tells p₀.tuning (xs ++ [x]) [] (es ++ s.pool.inputs (.pinged t alive)) :=
        hp.tells.more (closings_inputs ..) (pings_inputs ..) (openings_inputs_pinged ..)
      have hp' : Pinging t p₀ (es ++ s.pool.inputs (.pinged t alive)) xs x s.pool :=
        { hp with tells := htells }
      have hnext := hp'.answered hr hs ht hn alive
      simp only [news, Story.next, step, hw]
      rw [← List.append_assoc]
      exact hnext
  | connecting _ hf => cases hs.symm.trans hf
  | ends _ hf => cases hs.symm.trans hf

theorem Stage.connected {closed : Nat} {result : Except Fault Link} (hr : Ready t now₀ p₀)
    (hx : Stage t p₀ es s.pool n xs) (hw : s.pool.waiting? t = some .sweep)
    (hs : find? t s.pool.sweeps = some (.connecting closed)) :
    Stage t p₀ (es ++ s.news now (.connected t result)) (s.next now (.connected t result)).pool
      (n + 1) xs := by
  have hi : s.pool.hand? t = some .dialing := by simp [hand?, hw, hs]
  cases hx with
  | pinging hp _ =>
      obtain ⟨left, hf, -⟩ := hp.stage
      cases hs.symm.trans hf
  | connecting h hf hfree hl hn he =>
      simp only [news, Story.next, step, hw]
      rw [← List.append_assoc]
      cases result with
      | ok link =>
          have hin : s.pool.inputs (.connected t (.ok link)) = [.opened link] := by
            simp [inputs, hi]
          rw [hin]
          exact h.connected_ok hr hf hfree hl hn he now link
      | error f =>
          have hin : s.pool.inputs (.connected t (.error f)) = [.missed t f] := by
            simp [inputs, hi]
          rw [hin]
          exact h.connected_error hr hf hfree hl hn he now f
  | ends _ hf => cases hs.symm.trans hf

/-- During a pass no other operation makes a move. -/
abbrev Alone : Story → Nat → Move → Prop := fun _ _ _ => False

theorem Tour.stage (h : Tour t Alone s n xs s') (hr : s.Admits (.sweep t) → Ready t s.now s.pool) :
    s.now ≤ s'.now ∧ Ready t s.now s.pool ∧
      ∃ es, s'.past = s.past ++ es ∧ Stage t s.pool es s'.pool n xs := by
  induction h with
  | begins hn ha => exact ⟨hn, hr ha, _, rfl, Stage.begins (hr ha) hn⟩
  | pinged _ hn hw hs ih =>
      obtain ⟨hle, hr, es, he, hx⟩ := ih
      refine ⟨hle.trans hn, hr, es ++ _, ?_, Stage.pinged hr hx (hle.trans hn) hw hs⟩
      rw [← List.append_assoc, ← he]
      rfl
  | connected _ hn hw hs _ ih =>
      obtain ⟨hle, hr, es, he, hx⟩ := ih
      refine ⟨hle.trans hn, hr, es ++ _, ?_, Stage.connected hr hx hw hs⟩
      rw [← List.append_assoc, ← he]
      rfl
  | other _ _ _ _ _ _ hq _ => exact hq.elim

/-! ## The whole pass -/

/-- What holds all along a pass with log `xs`, by which `es` has happened. -/
structure Passing (tuning : Config.PoolTuning) (t : Ticket) (s : Story) (xs : List Exam)
    (es : List Event) (s' : Story) : Prop where
  past : s'.past = s.past ++ es
  entries : xs.map (·.entry) = s.pool.idle.take xs.length
  once : (xs.map (·.entry.link)).Nodup
  ordered : Ordered (xs.map (·.entry))
  oldest : ∀ x ∈ xs, ∀ y ∈ s.pool.idle.drop xs.length, x.entry.since ≤ y.since
  closings : closings es = evicted tuning xs
  pings : pings es = tested tuning xs
  /-- The connection that is being pinged counts as idle. -/
  floor : (∀ x ∈ xs, ¬x.Old tuning ∧ x.ping ≠ some false) →
    min tuning.minIdle s.pool.idle.length ≤
      s'.pool.idle.length + ((find? t s'.pool.sweeps).bind (·.link?)).toList.length

/-- What holds at the end of the pass, which has opened the connections `fresh`. -/
structure Passed (tuning : Config.PoolTuning) (t : Ticket) (s : Story) (xs : List Exam)
    (fresh : List Parked) (es : List Event) (s' : Story) : Prop where
  length : xs.length = min tuning.testsPerEviction s.pool.idle.length
  log : Each (Exact tuning s.pool.idle) xs
  pool : s'.pool = { s.pool with
    idle := remaining tuning s.pool.idle xs ++ fresh, metrics := s'.pool.metrics }
  openings : openings es = fresh.map (·.link)
  swept : ∃ es', es = es' ++ [.told (.swept t (evicted tuning xs).length)]
  evictions : s'.pool.metrics.evictions =
    s.pool.metrics.evictions.add (evicted tuning xs).length.toUInt64

/-- The pass waits for the answer to a ping or for a connection, and goes on whatever comes. -/
structure GoesOn (t : Ticket) (s : Story) (n : Nat) (xs : List Exam) (s' : Story) : Prop where
  waiting : s'.pool.waiting? t = some .sweep
  next : (∀ now alive, s'.now ≤ now →
      ∃ ys, Tour t Alone s (n + 1) ys (s'.next now (.pinged t alive))) ∨
    ∀ now result, s'.now ≤ now → s'.Admits (.connected t result) →
      Tour t Alone s (n + 1) xs (s'.next now (.connected t result))

theorem Stage.passing (hx : Stage t s.pool es s'.pool n xs) (hk : s.Kept)
    (ho : Ordered s.pool.idle) (hp : s'.past = s.past ++ es) :
    Passing s.pool.tuning t s xs es s' := by
  have he := hx.entries
  have hsub : (xs.map (·.entry)).Sublist s.pool.idle := he ▸ List.take_sublist ..
  have hlinks : (s.pool.idle.map (·.link)).Nodup :=
    (links_nodup hk.sound hk.fresh).of_append_left
  refine ⟨hp, he, ?_, ho.sublist hsub, ?_, hx.told.1, hx.told.2, hx.floor⟩
  · have hn := (hsub.map (·.link)).nodup hlinks
    rwa [List.map_map] at hn
  · intro x hx y hy
    have hx : x.entry ∈ s.pool.idle.take xs.length := he ▸ List.mem_map_of_mem hx
    rw [← List.take_append_drop xs.length s.pool.idle] at ho
    exact (List.pairwise_append.mp ho).2.2 x.entry hx y hy

theorem Stage.passed (hx : Stage t s.pool es s'.pool n xs) (hr : Ready t now₀ s.pool)
    (h : Tour t Alone s n xs s') :
    GoesOn t s n xs s' ∨ ∃ fresh, Passed s.pool.tuning t s xs fresh es s' := by
  obtain ⟨hb, hrt, -⟩ := waiting?_eq_none.mp hr.waiting
  cases hx with
  | pinging hp _ =>
      obtain ⟨left, hs, -⟩ := hp.stage
      have hw : s'.pool.waiting? t = some .sweep := by
        simp [waiting?, hp.borrows, hp.returns, hb, hrt, hs]
      exact .inl ⟨hw, .inl fun now alive hn => ⟨_, h.pinged hn hw hs⟩⟩
  | connecting hp hs =>
      have hw : s'.pool.waiting? t = some .sweep := by
        simp [waiting?, hp.borrows, hp.returns, hb, hrt, hs]
      exact .inl ⟨hw, .inr fun now result hn ha => h.connected hn hw hs ha⟩
  | @ends _ fresh es' hp hs hf _ he hes =>
      refine .inr ⟨fresh, hp.through, hp.log, ?_, ?_, ⟨es', hes⟩, hp.evictions⟩
      · rw [← hp.idle]
        exact hp.eq_of_ends hs hf
      · rw [hes, openings_append, he.openings]
        exact List.append_nil _

/-- An eviction pass during which no other operation makes a move. It examines the connections that
have been idle longest, one after the other, and closes those that are too old, those that may go
because more are idle than have to be, and those that do not answer their ping; only connections
that are not closed without are pinged. All others stay, in their order and with their idle times.
Unless a connection is too old or does not answer, enough of them stay. Whatever is answered, the
pass goes on, and it is over after a bounded number of answers. -/
theorem eviction_pass (hv : tuning.Valid) (hs : Leads (start node tuning) s)
    (hc : s.pool.closed = false) (ho : Ordered s.pool.idle) (hf : 0 < s.pool.free)
    (h : Tour t Alone s n xs s') :
    n ≤ tuning.testsPerEviction + tuning.minIdle ∧
      ∃ es, Passing tuning t s xs es s' ∧
        (GoesOn t s n xs s' ∨ ∃ fresh, Passed tuning t s xs fresh es s') := by
  have ht : s.pool.tuning = tuning := hs.tuning_eq kept_start
  have hk := hs.kept kept_start
  obtain ⟨-, hr, es, hp, hx⟩ := h.stage fun ha => hs.ready hv hc hf ha
  rw [← ht]
  exact ⟨hx.answers_le, es, Stage.passing hx hk ho hp, Stage.passed hx hr h⟩

/-- At least one connection should be idle, and others go after 35 ms. -/
def keepOne : Config.PoolTuning := { minIdle := 1, softMinEvictableIdleMs := 35 }

/-- Two borrowers return their connections. -/
def twoBack : Story :=
  (start default keepOne).play
    [(0, .borrow 0), (0, .connected 0 (.ok 0)), (0, .borrow 1), (0, .connected 1 (.ok 1)),
      (0, .giveBack 2 0 true), (10, .giveBack 3 1 true)]

/-- Of the two connections one may go, the other one is dead. -/
def twoExams : List Exam :=
  [{ entry := ⟨0, 0⟩, time := 40, idle := [⟨0, 0⟩, ⟨1, 10⟩] },
    { entry := ⟨1, 10⟩, time := 40, idle := [⟨1, 10⟩], ping := some false }]

/-- A new connection takes their place. -/
def replaced : Story :=
  ((twoBack.next 40 (.sweep 4)).next 60 (.pinged 4 false)).next 70 (.connected 4 (.ok 2))

theorem tour_replaced : Tour 4 Alone twoBack 2 twoExams replaced := by
  have h : Tour 4 Alone twoBack 0
      ([⟨⟨0, 0⟩, 40, [⟨0, 0⟩, ⟨1, 10⟩], none⟩] ++ [⟨⟨1, 10⟩, 40, [⟨1, 10⟩], none⟩])
      (twoBack.next 40 (.sweep 4)) := by
    have hx : examined 40 twoBack.pool.tuning.testsPerEviction {} twoBack.pool =
        [⟨⟨0, 0⟩, 40, [⟨0, 0⟩, ⟨1, 10⟩], none⟩] ++ [⟨⟨1, 10⟩, 40, [⟨1, 10⟩], none⟩] := by decide
    rw [← hx]
    exact .begins (by decide) (by decide)
  have hs : find? 4 (twoBack.next 40 (.sweep 4)).pool.sweeps =
      some (.pinging ⟨1, 10⟩ 1 { closed := 1 }) := by decide
  have h : Tour 4 Alone twoBack 1 twoExams
      ((twoBack.next 40 (.sweep 4)).next 60 (.pinged 4 false)) :=
    h.pinged (by decide) (by decide) hs
  have hs : find? 4 ((twoBack.next 40 (.sweep 4)).next 60 (.pinged 4 false)).pool.sweeps =
      some (.connecting 2) := by decide
  exact h.connected (by decide) (by decide) hs (by decide)

theorem eviction_pass_replaced :
    ∃ es fresh, Passing keepOne 4 twoBack twoExams es replaced ∧
      Passed keepOne 4 twoBack twoExams fresh es replaced ∧
      replaced.pool.idle = [⟨2, 70⟩] ∧ closings es = [0, 1] ∧ pings es = [1] := by
  have hs : Leads (start default keepOne) twoBack := Plays.leads (by decide)
  have hi : twoBack.pool.idle = [⟨0, 0⟩, ⟨1, 10⟩] := by decide
  have ho : Ordered twoBack.pool.idle := by
    rw [hi]
    simp [Ordered]
  obtain ⟨-, es, hp, hw⟩ :=
    eviction_pass ⟨by decide, by decide, by decide⟩ hs (by decide) ho (by decide) tour_replaced
  have hend : replaced.pool.waiting? 4 ≠ some .sweep := by decide
  obtain ⟨fresh, hd⟩ := hw.resolve_left fun h => hend h.waiting
  refine ⟨es, fresh, hp, hd, by decide, ?_, ?_⟩
  · rw [hp.closings]
    decide
  · rw [hp.pings]
    decide

end Story

end Shardway.Pool
