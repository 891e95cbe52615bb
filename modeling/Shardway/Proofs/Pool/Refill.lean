import Shardway.Proofs.Pool.Actors
import Shardway.Proofs.Pool.EvictionPass
import Shardway.Proofs.Pool.Undisturbed

/-!
# New idle connections

An eviction pass with nothing more to examine, which nobody disturbs. It opens connections one after
the other until enough are idle, or until one cannot be opened, and has then given back every permit
that it took.
-/

namespace Shardway.Pool

variable {p q : Pool} {t : Ticket} {now left closed : Nat} {pass pass' : Pass} {m : Move}
  {e : Parked} {fresh : List Parked} {metrics : Metrics} {es : List Event}

/-! ## The end of the examinations -/

/-- What `examine` leaves when nothing more is to be examined: the counts of the pass and the pool.
There is no such pool yet if a connection has to be pinged. -/
def handover? (now : Nat) : (left : Nat) → Pass → Pool → Option (Pass × Pool)
  | 0, pass, p => some (pass, p)
  | left + 1, pass, p =>
    if p.closed || p.free = 0 then some (pass, p)
    else
      match p.idle[pass.kept]? with
      | none => some (pass, p)
      | some e =>
        let stale := p.isStale now p.idle.length e
        let r := (p.takeOut pass.kept).settled e (!stale) pass
        if !stale && p.tuning.testWhileIdle then none else handover? now left r.2 r.1.state

/-- What a move leaves for the pass under the ticket, if by it the examinations come to an end. -/
def handsOver? (now : Nat) (t : Ticket) (p : Pool) : Move → Option (Pass × Pool)
  | .sweep u => if u = t then handover? now p.tuning.testsPerEviction {} p else none
  | .pinged u alive =>
    match if u = t ∧ p.waiting? t = some .sweep then find? t p.sweeps else none with
    | some (.pinging e left pass) =>
      let r := p.answered t alive e pass
      handover? now left r.2 r.1.state
    | _ => none
  | _ => none

theorem Quiet.not_waiting {r : Reaction} (h : Quiet p r) (ht : p.waiting? t = none) :
    r.state.waiting? t = none := by
  obtain ⟨hb, hr, hs⟩ := waiting?_eq_none.mp ht
  have hw (w : Waiting) : ¬r.state.Waits t w := fun hw => by
    have := h.waits t w hw
    cases w <;> simp [Waits, hb, hr, hs] at this
  refine waiting?_eq_none.mpr ⟨?_, ?_, ?_⟩
  · simpa [Waits] using hw .borrow
  · simpa [Waits] using hw .giveBack
  · simpa [Waits] using hw .sweep

theorem quiet_settled {keep : Bool} : Quiet p (p.settled e keep pass).1 :=
  quiet_settle.andThen quiet_release

theorem Served.settled {keep : Bool} (h : p.Served) : (p.settled e keep pass).1.state.Served :=
  (h.frugal frugal_settle).release

/-- The examinations that are left, and then the end of the examination. -/
theorem examine_of_handover? (h : handover? now left pass p = some (pass', q)) :
    ∃ es, p.examine now t left pass = (⟨q, es⟩ : Reaction).andThen (endExamination t pass') ∧
      Quiet p ⟨q, es⟩ ∧ (p.Served → q.Served) := by
  induction left generalizing pass p with
  | zero =>
      cases h
      exact ⟨[], rfl, .refl, id⟩
  | succ left ih =>
      by_cases hg : p.closed = true ∨ p.free = 0 ∨ p.idle[pass.kept]? = none
      · obtain ⟨rfl, rfl⟩ : pass = pass' ∧ p = q := by
          unfold handover? at h
          rcases hg with hg | hg | hg <;> simpa [hg] using h
        exact ⟨[], by rw [examine_of_ends (.inr hg)]; rfl, .refl, id⟩
      obtain ⟨hc, hf, he⟩ : p.closed = false ∧ 0 < p.free ∧ p.idle[pass.kept]? ≠ none := by
        simpa [Nat.pos_iff_ne_zero] using hg
      obtain ⟨e, he⟩ := Option.ne_none_iff_exists'.mp he
      simp only [handover?, hc, hf.ne', he, decide_false, Bool.or_self, Bool.false_eq_true,
        if_false] at h
      split at h
      · cases h
      rename_i hs
      obtain ⟨es, hx, hq, hw⟩ := ih h
      have ht : Quiet p ⟨p.takeOut pass.kept, []⟩ := quiet_of_eq rfl rfl rfl rfl rfl rfl rfl
      have hw' : p.Served → (p.takeOut pass.kept).Served := fun h =>
        h.frugal (frugal_of_eq rfl (Nat.sub_le ..) rfl)
      refine ⟨_, ?_, (ht.andThen (f := fun p => (p.settled e _ pass).1) quiet_settled).andThen
        (f := fun _ => ⟨q, es⟩) hq, fun h => hw (hw' h).settled⟩
      rw [examine_of_getElem? hc hf he, if_neg hs]
      simp only [Reaction.andThen, hx, List.nil_append, List.append_assoc]

theorem waiting?_dropSweep (h : p.waiting? t = some .sweep) :
    (p.dropSweep t).waiting? t = none := by
  unfold waiting? at h ⊢
  split at h
  · cases h
  split at h
  · cases h
  rename_i hb hr
  simp [dropSweep, hb, hr]

/-- The move that ends the examinations leaves the rest of the pass to do. -/
theorem step_of_handsOver? (h : p.handsOver? now t m = some (pass, q)) (ha : p.Accepts m)
    (hp : p.Served) (hc : q.closed = false) :
    (∃ es, p.step now m = (⟨q, es⟩ : Reaction).andThen (endExamination t pass)) ∧
      q.Served ∧ q.waiting? t = none ∧ q.tuning = p.tuning := by
  unfold handsOver? at h
  split at h
  · split at h
    · rename_i u hu
      subst hu
      obtain ⟨es, hx, hq, hw⟩ := examine_of_handover? (t := u) h
      have hc : p.closed = false := hq.closed.symm.trans hc
      refine ⟨⟨es, ?_⟩, hw hp, hq.not_waiting ha, hq.tuning⟩
      rw [step, sweep, if_neg (by simp [hc]), hx]
    · cases h
  · split at h
    · rename_i u alive x e left pass' hs
      split at hs
      · rename_i hu
        obtain ⟨rfl, hwt⟩ := hu
        obtain ⟨es, hx, hq, hw⟩ := examine_of_handover? (t := u) h
        have hd : (if alive then p.dropSweep u
            else (p.dropSweep u).countValidationFailure).waiting? u = none := by
          cases alive <;> exact waiting?_dropSweep hwt
        have hd' : (if alive then p.dropSweep u
            else (p.dropSweep u).countValidationFailure).Served := by
          cases alive <;> exact hp.frugal (frugal_of_eq rfl le_rfl rfl)
        have hr : Quiet _ (p.answered u alive e pass').1 := quiet_settled
        have hr : Quiet _ ((p.answered u alive e pass').1.andThen fun _ => ⟨q, es⟩) := hr.andThen hq
        refine ⟨⟨(p.answered u alive e pass').1.effects ++ es, ?_⟩, hw hd'.settled,
          hr.not_waiting hd, ?_⟩
        · simp only [step, hwt]
          rw [sweepPinged_eq hs]
          simp only [Reaction.andThen, hx, List.append_assoc]
        · refine hr.tuning.trans ?_
          cases alive <;> rfl
      · cases hs
    · cases h
  · cases h

/-! ## Stages of a refill -/

/-- So many connections are wanted idle, as far as permits allow. -/
def wanted (p : Pool) : Nat := min p.tuning.minIdle (p.tuning.maxTotal - p.inUse)

/-- The answers that brought these connections. -/
def deliveries (t : Ticket) (fresh : List Parked) : List (Nat × Move) :=
  fresh.map fun e => (e.since, .connected t (.ok e.link))

/-- What happens when these connections are opened. -/
def refillings (t : Ticket) (fresh : List Parked) : List Event :=
  fresh.flatMap fun e => [.told (.connect t), .opened e.link]

/-- The pool with new connections behind the idle ones. -/
def refilled (q : Pool) (fresh : List Parked) (metrics : Metrics) : Pool :=
  { q with idle := q.idle ++ fresh, metrics }

/-- How a pass that closed so many connections, and had nothing more to examine in the pool `q`,
stands after these answers: what has happened, and what has become of the pool. -/
inductive Refills (t : Ticket) (closed : Nat) (q : Pool) :
    List (Nat × Move) → List Event → Pool → Prop
  /-- More connections are wanted, and the next one is being opened. -/
  | dials {fresh : List Parked} {metrics : Metrics} : q.idle.length + fresh.length < q.wanted →
      Refills t closed q (deliveries t fresh) (refillings t fresh ++ [.told (.connect t)])
        ((q.refilled fresh metrics).acquire.pause t (.connecting closed))
  /-- As many connections are idle as are wanted. -/
  | fills {fresh : List Parked} {metrics : Metrics} :
      q.idle.length + fresh.length = max q.idle.length q.wanted →
      Refills t closed q (deliveries t fresh) (refillings t fresh ++ [.told (.swept t closed)])
        (q.refilled fresh metrics)
  /-- A connection could not be opened. -/
  | fails {fresh : List Parked} {metrics : Metrics} {now : Nat} {f : Fault} :
      q.idle.length + fresh.length < q.wanted →
      Refills t closed q (deliveries t fresh ++ [(now, .connected t (.error f))])
        (refillings t fresh ++ [.told (.connect t), .missed t f,
          .told (.notice (.refillFailed q.addr f)), .told (.swept t closed)])
        (q.refilled fresh metrics)

theorem deliveries_concat :
    deliveries t (fresh ++ [e]) = deliveries t fresh ++ [(e.since, .connected t (.ok e.link))] := by
  simp [deliveries]

theorem refillings_concat :
    refillings t (fresh ++ [e]) = refillings t fresh ++ [.told (.connect t), .opened e.link] := by
  simp [refillings]

/-- While connections are wanted, there is a permit to open one. -/
theorem lt_wanted_iff :
    p.idle.length < p.wanted ↔ (p.needsIdle = true ∧ 0 < p.free) := by
  simp only [wanted, needsIdle, Bool.and_eq_true, decide_eq_true_eq]
  unfold inUse
  omega

/-- With these new connections, the pass opens another one or is over. -/
theorem refills_topUp (closed : Nat) (fresh : List Parked) (metrics : Metrics)
    (hc : q.closed = false) (ht : q.waiting? t = none)
    (hf : fresh = [] ∨ q.idle.length + fresh.length ≤ q.wanted) :
    Refills t closed q (deliveries t fresh)
      (refillings t fresh ++ tell ((q.refilled fresh metrics).topUp t closed).effects)
      ((q.refilled fresh metrics).topUp t closed).state := by
  have hlen : (q.refilled fresh metrics).idle.length = q.idle.length + fresh.length :=
    List.length_append
  have hlt := lt_wanted_iff (p := q.refilled fresh metrics)
  rw [hlen] at hlt
  unfold topUp
  split
  · rename_i hn
    have hn : (q.refilled fresh metrics).needsIdle = true ∧
        0 < (q.refilled fresh metrics).free := by
      simpa [refilled, hc] using hn
    exact .dials (hlt.mpr hn)
  · rename_i hn
    have hle : q.wanted ≤ q.idle.length + fresh.length := by
      refine Nat.le_of_not_lt fun hl => hn ?_
      have := hlt.mp hl
      simpa [refilled, hc] using this
    have hs : without t q.sweeps = q.sweeps :=
      without_of_find?_eq_none (waiting?_eq_none.mp ht).2.2
    have hend : (q.refilled fresh metrics).endSweep t closed =
        ⟨q.refilled fresh metrics, [.swept t closed]⟩ := by
      simp only [endSweep, refilled, hs]
    rw [hend]
    refine .fills ?_
    rcases hf with rfl | hf
    · simpa using hle
    · omega

/-- The rest of a pass begins with no new connection. -/
theorem refills_endExamination (hc : q.closed = false) (ht : q.waiting? t = none) :
    Refills t pass.closed q [] (tell (q.endExamination t pass).effects)
      (q.endExamination t pass).state := by
  have hq : q.endExamination t pass = (q.refilled [] { q.metrics with
      evictions := q.metrics.evictions.add pass.closed.toUInt64 }).topUp t pass.closed := by
    simp only [endExamination, refilled, List.append_nil]
  rw [hq]
  exact refills_topUp _ [] _ hc ht (.inl rfl)

/-! ## A pass that waits -/

section Pause

variable {s : SweepStage}

theorem waiting?_pause (h : p.waiting? t = none) : (p.pause t s).waiting? t = some .sweep := by
  obtain ⟨hb, hr, -⟩ := waiting?_eq_none.mp h
  simp [waiting?, pause, hb, hr, find?_putAt]

theorem hand?_pause (h : p.waiting? t = none) : (p.pause t s).hand? t = some s.hand := by
  have hs : find? t (p.pause t s).sweeps = some s := find?_putAt
  simp [hand?, waiting?_pause h, hs]

/-- A pass that waits already tops up as one that does not. -/
theorem topUp_pause {s : SweepStage} : (p.pause t s).topUp t closed = p.topUp t closed := by
  have hw : without t (putAt t s p.sweeps) = without t p.sweeps := without_putAt
  have hd : putAt t (.connecting closed) (putAt t s p.sweeps) =
      putAt t (.connecting closed) p.sweeps := by
    simp only [putAt] at hw ⊢
    rw [hw]
  unfold topUp
  refine if_congr Iff.rfl ?_ ?_
  · simp only [pause, acquire, hd]
  · simp only [endSweep, pause, hw]

/-- A new connection joins the idle ones, and the pass tops up again. -/
theorem sweepConnected_ok (closed : Nat) (fresh : List Parked) (metrics : Metrics) (now : Nat)
    (link : Link) (hc : q.closed = false) (hq : q.Served) (hf : 0 < q.free)
    (hl : q.idle.length + fresh.length < q.tuning.maxIdle) :
    ∃ metrics', ((q.refilled fresh metrics).acquire.pause t (.connecting closed)).sweepConnected now
        t (.ok link) = (q.refilled (fresh ++ [⟨link, now⟩]) metrics').topUp t closed := by
  have hlt : (q.idle ++ fresh).length < q.tuning.maxIdle := by rwa [List.length_append]
  have hs : find? t ((q.refilled fresh metrics).acquire.pause t (.connecting closed)).sweeps =
      some (.connecting closed) := find?_putAt
  obtain ⟨metrics', -, hr⟩ :=
    refill_eq (p := (q.refilled fresh metrics).acquire.pause t (.connecting closed)) hc (hq hc hf)
      hlt now link
  refine ⟨metrics', ?_⟩
  simp only [sweepConnected, hs]
  rw [hr, ← topUp_pause (s := .connecting closed)]
  simp only [Reaction.andThen, refilled, acquire, pause, List.append_assoc, Nat.sub_add_cancel hf]
  rfl

/-- After a failure the pass is over. -/
theorem sweepConnected_error (closed : Nat) (fresh : List Parked) (metrics : Metrics) (now : Nat)
    (f : Fault) (hc : q.closed = false) (hq : q.Served) (hf : 0 < q.free)
    (ht : find? t q.sweeps = none) :
    ((q.refilled fresh metrics).acquire.pause t (.connecting closed)).sweepConnected now t
        (.error f) =
      ⟨q.refilled fresh metrics, [.notice (.refillFailed q.addr f), .swept t closed]⟩ := by
  have hs : find? t ((q.refilled fresh metrics).acquire.pause t (.connecting closed)).sweeps =
      some (.connecting closed) := find?_putAt
  have hr := release_of_no_queued
    (p := (q.refilled fresh metrics).acquire.pause t (.connecting closed)) hc (hq hc hf)
  have hw : without t (putAt t (.connecting closed) q.sweeps) = q.sweeps :=
    without_putAt.trans (without_of_find?_eq_none ht)
  simp only [sweepConnected, hs, Reaction.andThen, hr]
  simp only [endSweep, refilled, acquire, pause, hw, Nat.sub_add_cancel hf]
  rfl

end Pause

/-! ## Answers -/

/-- What an answer makes of a refill. -/
theorem Refills.answered {ms : List (Nat × Move)} (hq : q.Served) (hc : q.closed = false)
    (ht : q.waiting? t = none) (hv : q.tuning.minIdle ≤ q.tuning.maxIdle)
    (h : Refills t closed q ms es p) (ha : p.Answers t m) (now : Nat) :
    Refills t closed q (ms ++ [(now, m)]) (es ++ (p.inputs m ++ tell (p.step now m).effects))
      (p.step now m).state := by
  cases h with
  | @dials fresh metrics hl =>
      obtain ⟨hb, -, hs⟩ := waiting?_eq_none.mp ht
      have ht' : (q.refilled fresh metrics).acquire.waiting? t = none := ht
      have hw := waiting?_pause (s := .connecting closed) ht'
      have hd := hand?_pause (s := .connecting closed) ht'
      have hf : 0 < q.free := (lt_wanted_iff.mp ((Nat.le_add_right ..).trans_lt hl)).2
      rcases ha.cases with ⟨rfl, hx⟩ | ⟨_, link, rfl, hx⟩ | ⟨result, rfl, -⟩
      · cases hx.symm.trans hb
      · cases hx.symm.trans hd
      cases result with
      | ok link =>
          have hmin : q.wanted ≤ q.tuning.minIdle := Nat.min_le_left ..
          obtain ⟨metrics', hx⟩ := sweepConnected_ok (t := t) closed fresh metrics now link hc
            hq hf (hl.trans_le (hmin.trans hv))
          have hn := refills_topUp closed (fresh ++ [⟨link, now⟩]) metrics' hc ht
            (.inr (by simp; omega))
          rw [deliveries_concat, refillings_concat, ← hx] at hn
          simp only [step, hw, inputs, hd, SweepStage.hand_connecting, if_true]
          simpa using hn
      | error f =>
          have hx := sweepConnected_error closed fresh metrics now f hc hq hf hs
          simp only [step, hw, inputs, hd, SweepStage.hand_connecting, if_true, hx]
          rw [List.append_assoc]
          exact .fails hl
  | fills | fails => exact absurd ha (not_answers_of_waiting?_eq_none ht)

/-! ## The end -/

theorem Refills.length_le {ms : List (Nat × Move)} (h : Refills t closed q ms es p) :
    ms.length ≤ q.wanted - q.idle.length := by
  cases h with
  | dials h =>
      simp only [deliveries, List.length_map]
      omega
  | fills h =>
      simp only [deliveries, List.length_map]
      omega
  | fails h =>
      simp only [deliveries, List.length_append, List.length_map, List.length_singleton]
      omega

/-- A pass that is not over yet can be answered. -/
theorem Refills.over_or_answers {ms : List (Nat × Move)} (ht : q.waiting? t = none)
    (h : Refills t closed q ms es p) :
    (∃ m, p.Answers t m) ∨ .told (.swept t closed) ∈ es := by
  cases h with
  | @dials fresh metrics =>
      have ht : (q.refilled fresh metrics).acquire.waiting? t = none := ht
      exact .inl ⟨.connected t (.ok 0), rfl, hand?_pause ht⟩
  | fills | fails =>
      right
      simp

namespace Story

variable {node : Node} {tuning : Config.PoolTuning} {s : Story} {ms : List (Nat × Move)}

/-- The end of an eviction pass, from its last examination on, that nobody disturbs. After a bounded
number of answers the pass is over: when no connection fails to open, it has opened just as many as
were wanted; when one fails, that is the end. The new ones stay behind those that were idle, and all
permits are given back. -/
theorem refill_alone (hv : tuning.minIdle ≤ tuning.maxIdle) (hs : Leads (start node tuning) s)
    (ha : s.Admits m) (hm : s.pool.handsOver? now t m = some (pass, q)) (hc : q.closed = false)
    (h : (s.next now m).Undisturbed t ms) :
    let s' := (s.next now m).play ms
    ms.length ≤ q.wanted - q.idle.length ∧
      ∃ examining es, s'.past = s.past ++ examining ++ es ∧
        Refills t pass.closed q ms es s'.pool ∧
        ((∃ m, s'.Admits m ∧ s'.pool.Answers t m) ∨ .told (.swept t pass.closed) ∈ es) := by
  obtain ⟨⟨examining, hx⟩, hq, ht, htq⟩ := step_of_handsOver? hm ha.accepts hs.served hc
  have hts : s.pool.tuning = tuning := hs.tuning_eq kept_start
  have hv : q.tuning.minIdle ≤ q.tuning.maxIdle := by rwa [htq, hts]
  have hb : Refills t pass.closed q [] _ _ := refills_endExamination hc ht
  have hpool : (s.next now m).pool = (q.endExamination t pass).state := congrArg (·.state) hx
  have hnews : s.news now m =
      (s.pool.inputs m ++ tell examining) ++ tell (q.endExamination t pass).effects := by
    rw [news, hx, Reaction.andThen_effects, tell_append, List.append_assoc]
  obtain ⟨es, he, hb⟩ := Undisturbed.keeps (P := Refills t pass.closed q)
    (fun ms es now m s' hb ha => hb.answered hq hc ht hv ha now) [] (hpool ▸ hb) h
  refine ⟨hb.length_le, s.pool.inputs m ++ tell examining, _, ?_, hb, ?_⟩
  · rw [he]
    change s.past ++ s.news now m ++ es = _
    rw [hnews]
    simp only [List.append_assoc]
  · rcases hb.over_or_answers ht with ⟨m, hm⟩ | hover
    · exact .inl (exists_admits_of_answers hm)
    · exact .inr hover

/-- At least three connections should be idle. -/
def keepThree : Config.PoolTuning := { minIdle := 3, maxIdle := 4, maxTotal := 4 }

/-- A pass has a connection pinged while another one is lent. -/
def oneLent : Story :=
  (start default keepThree).play
    [(0, .borrow 0), (0, .connected 0 (.ok 0)), (0, .borrow 1), (0, .connected 1 (.ok 1)),
      (10, .giveBack 2 0 true), (20, .sweep 4)]

theorem refill_alone_twice :
    let s' := (oneLent.next 30 (.pinged 4 true)).play
      [(40, .connected 4 (.ok 2)), (50, .connected 4 (.ok 3))]
    s'.pool.idle = [⟨0, 10⟩, ⟨2, 40⟩, ⟨3, 50⟩] ∧
      ∃ q es, q.idle = [⟨0, 10⟩] ∧ q.wanted = 3 ∧ Refills 4 0 q
        [(40, .connected 4 (.ok 2)), (50, .connected 4 (.ok 3))] es s'.pool := by
  have hs : Leads (start default keepThree) oneLent := Plays.leads (by decide)
  obtain ⟨⟨pass, q⟩, hm⟩ : ∃ x, oneLent.pool.handsOver? 30 4 (.pinged 4 true) = some x :=
    Option.isSome_iff_exists.mp (by decide)
  have hq : (oneLent.pool.handsOver? 30 4 (.pinged 4 true)).map
      (fun x => (x.1.closed, x.2.closed, x.2.idle, x.2.wanted)) =
        some (0, false, [⟨0, 10⟩], 3) := by decide
  rw [hm] at hq
  obtain ⟨hp, hc, hi, hw⟩ : pass.closed = 0 ∧ q.closed = false ∧ q.idle = [⟨0, 10⟩] ∧
      q.wanted = 3 := by simpa using hq
  have hu : (oneLent.next 30 (.pinged 4 true)).Undisturbed 4
      [(40, .connected 4 (.ok 2)), (50, .connected 4 (.ok 3))] := by decide
  obtain ⟨-, -, es, -, hr, -⟩ := refill_alone (by decide) hs (by decide) hm hc hu
  exact ⟨by decide, q, es, hi, hw, hp ▸ hr⟩

end Story

end Shardway.Pool
