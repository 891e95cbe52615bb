import Shardway.Proofs.Pool.Undisturbed
import Shardway.Proofs.Pool.Verdicts
import Shardway.Proofs.Pool.Waiting

/-!
# Borrowing

A borrower that nobody disturbs, up to its end. It is offered the idle connections one after the
other, gets the first one that is good, and a new one if none is. If it fails, nothing is lost but
the idle connections that did not answer.
-/

namespace Shardway.Pool

/-! ## The connections in turn -/

/-- Idle connections as they come to be lent, or the other way round. -/
def inTurn (p : Pool) (l : List Parked) : List Parked := if p.tuning.lifo then l.reverse else l

/-- The idle connections, the one that is lent next first. -/
def offered (p : Pool) : List Parked := p.inTurn p.idle

variable {p q : Pool} {t : Ticket} {e : Parked} {passed rest : List Parked} {now : Nat} {m : Move}

@[simp] theorem inTurn_nil (p : Pool) : p.inTurn [] = [] := by simp [inTurn]

theorem inTurn_inTurn (p : Pool) (l : List Parked) : p.inTurn (p.inTurn l) = l := by
  unfold inTurn
  split <;> simp

theorem length_offered (p : Pool) : p.offered.length = p.idle.length := by
  unfold offered inTurn
  split <;> simp

theorem takeIdle?_of_offered_nil (h : p.offered = []) : p.takeIdle? = none := by
  have hi : p.idle = [] := List.length_eq_zero_iff.mp (by rw [← length_offered, h]; rfl)
  simp [takeIdle?, hi]

/-- The connection in front is taken. -/
theorem takeIdle?_of_offered_cons (h : p.offered = e :: rest) :
    p.takeIdle? = some (e, p.setIdle (p.inTurn rest)) := by
  unfold offered inTurn at h
  unfold takeIdle? inTurn
  split at h
  · rename_i hl
    have hi : p.idle = rest.reverse ++ [e] := by rw [← List.reverse_reverse p.idle, h]; simp
    simp [hl, hi]
  · rename_i hl
    simp [hl, h]

/-! ## Stages of a borrower -/

/-- The answers that found these connections dead. -/
def silence (t : Ticket) (passed : List Parked) : List Move := passed.map fun _ => .pinged t false

/-- What happens when these connections are tested and found dead. -/
def rejections (t : Ticket) (passed : List Parked) : List Event :=
  passed.flatMap fun e => [.told (.ping t e.link), .silent t, .told (.close e.link)]

/-- The counts after a borrower that came to the pool `p` has been offered the connections `passed`
in vain. -/
structure Passes (p : Pool) (passed : List Parked) (metrics : Metrics) : Prop where
  tested : passed ≠ [] → p.tuning.testOnBorrow = true
  active : metrics.active = p.metrics.active
  borrowFailures : metrics.borrowFailures = p.metrics.borrowFailures

/-- The pool `p` with a permit less, when of the connections in turn these are left. -/
def lending (p : Pool) (rest : List Parked) (metrics : Metrics) : Pool :=
  { p with idle := p.inTurn rest, free := p.free - 1, metrics }

/-- The borrower has the connection. -/
def lentTo (link : Link) (p : Pool) : Pool :=
  { p with
    lent := link :: p.lent
    metrics := { p.metrics with
      borrows := p.metrics.borrows.increment
      active := p.metrics.active.increment } }

/-- How a borrower that came to the pool `p` stands after these answers: what has happened, and what
has become of the pool. -/
inductive Borrows (t : Ticket) (p : Pool) : List Move → List Event → Pool → Prop
  /-- No permit is free, and the borrower waits for one. -/
  | queues : p.free = 0 → p.tuning.maxWaitMs ≠ 0 →
      Borrows t p [] [.told (.wait t)] (p.await t .queued)
  /-- No permit has come free in time. -/
  | exhausted {ms : List Move} {es : List Event} : p.free = 0 →
      (p.tuning.maxWaitMs = 0 ∧ ms = [] ∧ es = [] ∨
        p.tuning.maxWaitMs ≠ 0 ∧ ms = [.expire t] ∧ es = [.told (.wait t)]) →
      Borrows t p ms (es ++ [.told (.failed t p.exhaustedFault)]) p.countBorrowFailure
  /-- The next connection in turn is pinged; those before it are closed. -/
  | tests {passed rest : List Parked} {e : Parked} {metrics : Metrics} :
      0 < p.free → p.offered = passed ++ e :: rest → p.tuning.testOnBorrow = true →
      Passes p passed metrics →
      Borrows t p (silence t passed) (rejections t passed ++ [.told (.ping t e.link)])
        ((p.lending rest metrics).await t (.pinging e.link))
  | lendsUntested {rest : List Parked} {e : Parked} {metrics : Metrics} :
      0 < p.free → p.offered = e :: rest → p.tuning.testOnBorrow = false → Passes p [] metrics →
      Borrows t p [] [.told (.lent t e.link)] ((p.lending rest metrics).lentTo e.link)
  /-- The connection has answered. -/
  | lends {passed rest : List Parked} {e : Parked} {metrics : Metrics} :
      0 < p.free → p.offered = passed ++ e :: rest → p.tuning.testOnBorrow = true →
      Passes p passed metrics →
      Borrows t p (silence t passed ++ [.pinged t true])
        (rejections t passed ++ [.told (.ping t e.link), .told (.lent t e.link)])
        ((p.lending rest metrics).lentTo e.link)
  /-- None of the connections is any good. -/
  | dials {metrics : Metrics} : 0 < p.free → Passes p p.offered metrics →
      Borrows t p (silence t p.offered) (rejections t p.offered ++ [.told (.connect t)])
        ((p.lending [] metrics).await t .connecting)
  | opens {metrics : Metrics} {link : Link} : 0 < p.free →
      Passes p p.offered metrics →
      Borrows t p (silence t p.offered ++ [.connected t (.ok link)])
        (rejections t p.offered ++ [.told (.connect t), .opened link, .told (.lent t link)])
        ((p.lending [] metrics).lentTo link)
  | fails {metrics : Metrics} {f : Fault} : 0 < p.free →
      Passes p p.offered metrics →
      Borrows t p (silence t p.offered ++ [.connected t (.error f)])
        (rejections t p.offered ++ [.told (.connect t), .missed t f,
          .told (.notice (.connectFailed p.addr f)), .told (.failed t f)])
        ({ p with idle := [], metrics } : Pool).countBorrowFailure

variable {metrics : Metrics} {es : List Event}

theorem silence_concat : silence t (passed ++ [e]) = silence t passed ++ [.pinged t false] := by
  simp [silence]

theorem rejections_concat :
    rejections t (passed ++ [e]) =
      rejections t passed ++ [.told (.ping t e.link), .silent t, .told (.close e.link)] := by
  simp [rejections]

theorem failed_notMem_rejections {f : Fault} : .told (.failed t f) ∉ rejections t passed := by
  simp [rejections]

/-! ## A borrower that waits -/

section Await

variable {s : BorrowStage} {link : Link}

theorem find?_await : find? t (p.await t s).borrows = some s := find?_putAt

theorem waiting?_await : (p.await t s).waiting? t = some .borrow := by
  simp [waiting?, find?_await]

theorem leave_await : (p.await t s).leave t = p.leave t := by
  have hw : without t (putAt t s p.borrows) = without t p.borrows := without_putAt
  simp only [leave, await, hw]

/-- A borrower that waits already looks for a connection as one that comes. -/
theorem lend_await : (p.await t s).lend t = p.lend t := by
  have hw : without t (putAt t s p.borrows) = without t p.borrows := without_putAt
  have hoff : (p.await t s).offered = p.offered := rfl
  unfold Pool.lend
  cases ho : p.offered with
  | nil =>
      rw [takeIdle?_of_offered_nil ho, takeIdle?_of_offered_nil (hoff.trans ho)]
      simp only [await, putAt] at hw ⊢
      rw [hw]
  | cons e rest =>
      rw [takeIdle?_of_offered_cons ho, takeIdle?_of_offered_cons (hoff.trans ho)]
      simp only [await, putAt, setIdle, checkout, leave] at hw ⊢
      rw [hw]
      rfl

theorem checkout_eq : p.checkout t link = ⟨(p.leave t).lentTo link, [.lent t link]⟩ := rfl

theorem checkout_await (h : find? t p.borrows = none) :
    (p.await t s).checkout t link = ⟨p.lentTo link, [.lent t link]⟩ := by
  rw [checkout_eq, leave_await, leave_eq_self h]

theorem turnAway_await {f : Fault} (h : find? t p.borrows = none) :
    (p.await t s).turnAway t f = ⟨p.countBorrowFailure, [.failed t f]⟩ := by
  rw [turnAway, leave_await, leave_eq_self h]

theorem expire_await (h : find? t p.borrows = none) (hc : p.closed = false) :
    (p.await t .queued).expire t = ⟨p.countBorrowFailure, [.failed t p.exhaustedFault]⟩ := by
  have hc : (p.await t .queued).closed = false := hc
  simp only [Pool.expire, find?_await, hc, Bool.false_eq_true, if_false]
  exact turnAway_await h

theorem borrowPinged_await (h : find? t p.borrows = none) (alive : Bool) :
    (p.await t (.pinging link)).borrowPinged t alive =
      if alive then ⟨p.lentTo link, [.lent t link]⟩ else (p.reject link).andThen (lend t) := by
  simp only [Pool.borrowPinged, find?_await]
  cases alive with
  | true => exact checkout_await h
  | false =>
      have hl : Pool.lend t ((p.await t (.pinging link)).reject link).state =
          Pool.lend t (p.reject link).state := lend_await (p := (p.reject link).state)
      simp only [Bool.false_eq_true, if_false, Reaction.andThen, hl]
      rfl

theorem borrowConnected_await_ok (h : find? t p.borrows = none) :
    (p.await t .connecting).borrowConnected t (.ok link) =
      ⟨p.countCreated.lentTo link, [.lent t link]⟩ := by
  simp only [Pool.borrowConnected, find?_await]
  exact checkout_await (p := p.countCreated) h

theorem borrowConnected_await_error {f : Fault} (h : find? t p.borrows = none) :
    (p.await t .connecting).borrowConnected t (.error f) =
      (⟨p.countBorrowFailure, [.notice (.connectFailed p.addr f), .failed t f]⟩ :
        Reaction).andThen release := by
  simp only [Pool.borrowConnected, find?_await, Reaction.andThen, turnAway_await h]
  rfl

end Await

/-! ## What is left of the connections -/

/-- A borrower with a permit looks at what is left of the connections in turn. -/
theorem Passes.lend (h : Passes p passed metrics) (hf : 0 < p.free)
    (ho : p.offered = passed ++ rest) (ht : find? t p.borrows = none) :
    Borrows t p (silence t passed)
      (rejections t passed ++ tell ((p.lending rest metrics).lend t).effects)
      ((p.lending rest metrics).lend t).state := by
  have hoff : (p.lending rest metrics).offered = rest := p.inTurn_inTurn rest
  unfold Pool.lend
  cases rest with
  | nil =>
      obtain rfl : passed = p.offered := by rw [ho, List.append_nil]
      rw [takeIdle?_of_offered_nil hoff]
      exact .dials hf h
  | cons e rest =>
      obtain ⟨metrics', hm, hq⟩ : ∃ metrics', Passes p passed metrics' ∧
          (p.lending (e :: rest) metrics).setIdle (p.inTurn rest) = p.lending rest metrics' :=
        ⟨((p.lending (e :: rest) metrics).setIdle (p.inTurn rest)).metrics,
          ⟨h.tested, h.active, h.borrowFailures⟩, rfl⟩
      have htake := takeIdle?_of_offered_cons hoff
      have hturn : (p.lending (e :: rest) metrics).inTurn rest = p.inTurn rest := rfl
      rw [hturn, hq] at htake
      rw [htake]
      dsimp only
      split
      · rename_i hto
        exact .tests hf ho hto hm
      · rename_i hto
        have hto : p.tuning.testOnBorrow = false := Bool.eq_false_iff.mpr hto
        obtain rfl : passed = [] := by
          by_contra hp
          exact Bool.false_ne_true (hto.symm.trans (h.tested hp))
        have hl : (p.lending rest metrics').leave t = p.lending rest metrics' := leave_eq_self ht
        rw [checkout_eq, hl]
        exact .lendsUntested hf ho hto hm

/-! ## Answers -/

theorem borrows_borrow (hc : p.closed = false) (ht : p.waiting? t = none) :
    Borrows t p [] (tell (p.borrow t).effects) (p.borrow t).state := by
  obtain ⟨hb, -, -⟩ := waiting?_eq_none.mp ht
  unfold Pool.borrow
  rw [if_neg (by simp [hc])]
  split
  · rename_i hf
    have ha : p.acquire = p.lending p.offered p.metrics := by
      rw [lending, offered, inTurn_inTurn]
      rfl
    rw [ha]
    have h : Passes p [] p.metrics := ⟨fun h => absurd rfl h, rfl, rfl⟩
    exact h.lend hf rfl hb
  rename_i hf
  have hf : p.free = 0 := Nat.eq_zero_of_not_pos hf
  split
  · rename_i hw
    have hl : p.leave t = p := leave_eq_self hb
    rw [turnAway, hl]
    exact @Borrows.exhausted t p [] [] hf (.inl ⟨hw, rfl, rfl⟩)
  · rename_i hw
    exact .queues hf hw

/-- After a connection that did not answer, the next one has its turn. -/
theorem Passes.silent (h : Passes p passed metrics) (ht : p.tuning.testOnBorrow = true)
    (e : Parked) (rest : List Parked) :
    Passes p (passed ++ [e]) ((p.lending rest metrics).reject e.link).state.metrics :=
  ⟨fun _ => ht, h.active, h.borrowFailures⟩

/-- With its permit a borrower gives back all that it had, when it fails. -/
theorem release_countBorrowFailure (hp : p.Served) (hc : p.closed = false) (hf : 0 < p.free) :
    ((p.lending [] metrics).countBorrowFailure).release =
      ⟨({ p with idle := [], metrics } : Pool).countBorrowFailure, []⟩ := by
  rw [release_of_no_queued (p := (p.lending [] metrics).countBorrowFailure) hc (hp hc hf)]
  simp only [countBorrowFailure, lending, inTurn_nil, Nat.sub_add_cancel hf]

/-- What an answer makes of a borrower. -/
theorem Borrows.answered {ms : List Move} (hp : p.Served) (hc : p.closed = false)
    (ht : p.waiting? t = none) (h : Borrows t p ms es q) (ha : q.Answers t m) (now : Nat) :
    Borrows t p (ms ++ [m]) (es ++ (q.inputs m ++ tell (q.step now m).effects))
      (q.step now m).state := by
  obtain ⟨hb, -, -⟩ := waiting?_eq_none.mp ht
  cases h with
  | queues hf hw =>
      rcases ha.of_borrower find?_await with ⟨-, rfl⟩ | ⟨_, _, hs, -⟩ | ⟨hs, -⟩
      · rw [step, expire_await hb hc]
        exact .exhausted hf (.inr ⟨hw, rfl, rfl⟩)
      · cases hs
      · cases hs
  | @tests passed rest e metrics hf ho hto hr =>
      rcases ha.of_borrower find?_await with ⟨hs, -⟩ | ⟨link, alive, hs, rfl⟩ | ⟨hs, -⟩
      · cases hs
      · cases hs
        have hb' : find? t (p.lending rest metrics).borrows = none := hb
        have hi : ((p.lending rest metrics).await t (.pinging e.link)).inputs (.pinged t alive) =
            if alive then [] else [.silent t] := by
          simp [inputs, hand?, waiting?_await, find?_await]
        simp only [step, waiting?_await, borrowPinged_await hb', hi]
        cases alive with
        | true => simpa using Borrows.lends (t := t) hf ho hto hr
        | false =>
            have ho : p.offered = (passed ++ [e]) ++ rest := by simpa using ho
            have hn := (hr.silent hto e rest).lend hf ho hb
            rw [silence_concat, rejections_concat, List.append_assoc] at hn
            rw [List.append_assoc]
            exact hn
      · cases hs
  | @dials metrics hf hr =>
      rcases ha.of_borrower find?_await with ⟨hs, -⟩ | ⟨_, _, hs, -⟩ | ⟨-, result, rfl⟩
      · cases hs
      · cases hs
      · have hb' : find? t (p.lending [] metrics).borrows = none := hb
        have hd : ((p.lending [] metrics).await t .connecting).hand? t = some .dialing := by
          simp [hand?, waiting?_await, find?_await]
        cases result with
        | ok link =>
            have hr' : Passes p p.offered (p.lending [] metrics).countCreated.metrics :=
              ⟨hr.tested, hr.active, hr.borrowFailures⟩
            have hn : Borrows t p (silence t p.offered ++ [.connected t (.ok link)]) _ _ :=
              .opens hf hr'
            simp only [step, waiting?_await, borrowConnected_await_ok hb', inputs, hd]
            rw [List.append_assoc]
            exact hn
        | error f =>
            have hn := Borrows.fails (t := t) (f := f) hf hr
            simp only [step, waiting?_await, borrowConnected_await_error hb', inputs, hd,
              Reaction.andThen, release_countBorrowFailure hp hc hf]
            rw [List.append_assoc]
            exact hn
  | exhausted | lendsUntested | lends | opens | fails =>
      exact absurd ha (not_answers_of_waiting?_eq_none ht)

/-! ## The end -/

/-- A borrower that is not done yet can be answered. -/
theorem Borrows.over_or_answers {ms : List Move} (h : Borrows t p ms es q) :
    (∃ m, q.Answers t m) ∨ (∃ link, .told (.lent t link) ∈ es) ∨ ∃ f, .told (.failed t f) ∈ es := by
  cases h with
  | queues => exact .inl ⟨.expire t, rfl, find?_await⟩
  | tests =>
      refine .inl ⟨.pinged t true, rfl, ?_⟩
      simp [hand?, waiting?_await, find?_await]
  | dials =>
      refine .inl ⟨.connected t (.ok 0), rfl, ?_⟩
      simp [hand?, waiting?_await, find?_await]
  | lendsUntested | lends | opens =>
      right
      left
      simp
  | exhausted | fails =>
      right
      right
      simp

theorem Borrows.length_le {ms : List Move} (h : Borrows t p ms es q) :
    ms.length ≤ p.idle.length + 1 := by
  have ho : p.offered.length = p.idle.length := p.length_offered
  cases h with
  | exhausted _ h => rcases h with ⟨-, rfl, -⟩ | ⟨-, rfl, -⟩ <;> simp
  | tests _ h | lends _ h =>
      rw [h] at ho
      simp [silence] at ho ⊢
      omega
  | _ => simp [silence, ho]

/-- What a borrower leaves behind that fails with `f`. -/
structure Forgone (t : Ticket) (f : Fault) (p : Pool) (es : List Event) (q : Pool) : Prop where
  free : q.free = p.free
  lent : q.lent = p.lent
  active : q.metrics.active = p.metrics.active
  borrowFailures : q.metrics.borrowFailures = p.metrics.borrowFailures.increment
  fault : p.free = 0 ∧ f = p.exhaustedFault ∨ 0 < p.free ∧ .missed t f ∈ es
  /-- Only connections that did not answer are closed. -/
  idle : ∃ lost more, p.offered = lost ++ q.offered ∧ es = rejections t lost ++ more ∧
    closings more = []

theorem Borrows.forgone {ms : List Move} {f : Fault} (h : Borrows t p ms es q)
    (hf : .told (.failed t f) ∈ es) : Forgone t f p es q := by
  cases h with
  | @exhausted ms es hp h =>
      obtain rfl : f = p.exhaustedFault := by
        rcases h with ⟨-, -, rfl⟩ | ⟨-, -, rfl⟩ <;> simpa using hf
      have hm : closings (es ++ [.told (.failed t p.exhaustedFault)]) = [] := by
        rcases h with ⟨-, -, rfl⟩ | ⟨-, -, rfl⟩ <;> rfl
      exact ⟨rfl, rfl, rfl, rfl, .inl ⟨hp, rfl⟩, [], _, rfl, rfl, hm⟩
  | @fails metrics f' hp h =>
      obtain rfl : f = f' := by
        simpa [failed_notMem_rejections] using hf
      refine ⟨rfl, rfl, h.active, congrArg Counter.increment h.borrowFailures,
        .inr ⟨hp, by simp⟩, p.offered, _, ?_, rfl, rfl⟩
      have ho : ({ p with idle := [], metrics } : Pool).countBorrowFailure.offered = [] :=
        p.inTurn_nil
      rw [ho, List.append_nil]
  | queues | tests | lendsUntested | lends | dials | opens =>
      simp [failed_notMem_rejections] at hf

namespace Story

variable {node : Node} {tuning : Config.PoolTuning} {s : Story} {ms : List (Nat × Move)}

/-- A borrower that nobody disturbs. After a bounded number of answers it has a connection or has
failed: it is offered the idle connections in turn, gets the first one that is good, and a new one
just when none is; without a permit it fails. If it fails, permits and gauge are as before, the
failure is counted once, and only connections that did not answer are lost. -/
theorem borrow_alone (hs : Leads (start node tuning) s) (hc : s.pool.closed = false)
    (ha : s.Admits (.borrow t)) (h : (s.next now (.borrow t)).Undisturbed t ms) :
    let s' := (s.next now (.borrow t)).play ms
    ms.length ≤ s.pool.idle.length + 1 ∧
      ∃ es, s'.past = s.past ++ es ∧ Borrows t s.pool (ms.map (·.2)) es s'.pool ∧
        ((∃ m, s'.Admits m ∧ s'.pool.Answers t m) ∨ (∃ link, .told (.lent t link) ∈ es) ∨
          ∃ f, .told (.failed t f) ∈ es) ∧
        ∀ f, .told (.failed t f) ∈ es → Forgone t f s.pool es s'.pool := by
  have ht : s.pool.waiting? t = none := ha.accepts
  have hb : Borrows t s.pool [] (s.news now (.borrow t)) (s.next now (.borrow t)).pool :=
    borrows_borrow hc ht
  obtain ⟨es, he, hb⟩ := Undisturbed.keeps
    (P := fun ms es q => Borrows t s.pool (ms.map (·.2)) es q)
    (fun ms es now m s' hb ha => by
      rw [List.map_append]
      exact hb.answered hs.served hc ht ha now) [] hb h
  have hn := hb.length_le
  rw [List.nil_append, List.length_map] at hn
  refine ⟨hn, s.news now (.borrow t) ++ es, he.trans (List.append_assoc ..), hb, ?_, fun f =>
    hb.forgone⟩
  rcases hb.over_or_answers with ⟨m, hm⟩ | hover
  · exact .inl (exists_admits_of_answers hm)
  · exact .inr hover

/-- Two connections are idle. -/
def twoIdle : Story :=
  (start default { testOnBorrow := true }).play
    [(0, .borrow 0), (0, .connected 0 (.ok 0)), (0, .borrow 1), (0, .connected 1 (.ok 1)),
      (0, .giveBack 2 0 true), (10, .giveBack 3 1 true)]

/-- Both are dead, and no new one is to be had. -/
def refusal : List (Nat × Move) :=
  [(30, .pinged 4 false), (40, .pinged 4 false), (50, .connected 4 (.error (.io "refused")))]

theorem borrow_alone_refused :
    let s' := (twoIdle.next 20 (.borrow 4)).play refusal
    twoIdle.pool.offered = [⟨1, 10⟩, ⟨0, 0⟩] ∧ s'.pool.idle = [] ∧
      ∃ es, Borrows 4 twoIdle.pool (refusal.map (·.2)) es s'.pool ∧
        Forgone 4 (.io "refused") twoIdle.pool es s'.pool := by
  have hs : Leads (start default { testOnBorrow := true }) twoIdle := Plays.leads (by decide)
  have hu : (twoIdle.next 20 (.borrow 4)).Undisturbed 4 refusal := by decide
  obtain ⟨-, es, he, hb, -, hf⟩ := borrow_alone hs (by decide) (by decide) hu
  have hes : es = rejections 4 [⟨1, 10⟩, ⟨0, 0⟩] ++ [.told (.connect 4), .missed 4 (.io "refused"),
      .told (.notice (.connectFailed twoIdle.pool.addr (.io "refused"))),
      .told (.failed 4 (.io "refused"))] :=
    List.append_cancel_left (he.symm.trans (by decide))
  exact ⟨by decide, by decide, es, hb, hf _ (by simp [hes])⟩

end Story

end Shardway.Pool
