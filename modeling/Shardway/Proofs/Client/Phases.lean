import Shardway.Proofs.Client.Backoff
import Shardway.Proofs.Client.Marks

/-!
# Phases of a call

How a call stands among its attempts, and what each move makes of that. A move that is not what the
call waits for leaves it as it is.
-/

namespace Shardway.Client

open Retry (isDecisive seenFrom)

variable {config : Config.Cluster} {c : Client} {t u : Ticket} {i : PoolId} {now : Nat}
  {call : Call} {o : Except Fault Reply} {f : Fleet} {es es' : List Event} {e : Pool.Effect}
  {r : Reaction} {link : Link}

/-! ## How a call stands -/

/-- The beginning of an attempt: the index by which it goes, and where that sends its key. -/
structure Start where
  index : Index
  way : Except Fault PoolId

/-- What an attempt comes to that leads to no pool. -/
def Start.unrouted? (b : Start) : Option (Except Fault Reply) :=
  match b.way with
  | .error f => some (.error f)
  | .ok _ => none

/-- All the attempts whose outcomes these are were followed by another, or may be. -/
structure Passed (limit : Nat) (os : List (Except Fault Reply)) : Prop where
  within : os.length < limit
  passed : ∀ o ∈ os, isDecisive o = false

theorem Passed.concat {limit : Nat} {os : List (Except Fault Reply)} (h : Passed limit os)
    (ho : isDecisive o = false) (hl : os.length + 1 < limit) : Passed limit (os ++ [o]) where
  within := by simpa using hl
  passed := fun o' hm => by
    rcases List.mem_append.mp hm with hm | hm
    · exact h.passed o' hm
    · cases List.mem_singleton.mp hm
      exact ho

/-- Attempts that were each followed by a pause. -/
def laps (starts : List Start) : List Mark :=
  starts.zipIdx.flatMap fun (b, i) => [.begun b.index, .paused ⟨firstPause.nanos * 2 ^ i⟩]

theorem laps_concat (starts : List Start) (b : Start) : laps (starts ++ [b]) =
    laps starts ++ [.begun b.index, .paused ⟨firstPause.nanos * 2 ^ starts.length⟩] := by
  simp [laps, List.zipIdx_append]

/-- How a call stands whose attempts began so and came to these outcomes, and what was seen of it.
An outcome is known as soon as the attempt has it, also while its connection is still to go back. -/
inductive Phase (key : Bytes) (request : Request) (limit : Nat) :
    Option Call → List Start → List (Except Fault Reply) → List Mark → Prop
  | trying {starts os} {b : Start} {i : PoolId} {stage : CallStage} : Passed limit os →
      starts.length = os.length → b.way = .ok i →
      (stage = .borrowing i ∨ ∃ link, stage = .running i link) →
      Phase key request limit
        (some ⟨key, request, seenFrom limit firstPause os.length, stage⟩)
        (starts ++ [b]) os (laps starts ++ [.begun b.index])
  | returning {starts os} {b : Start} {i : PoolId} {o : Except Fault Reply} : Passed limit os →
      starts.length = os.length →
      Phase key request limit
        (some ⟨key, request, seenFrom limit firstPause os.length, .returning i o⟩)
        (starts ++ [b]) (os ++ [o]) (laps starts ++ [.begun b.index])
  | pausing {starts os} : Passed limit os → starts.length = os.length → os ≠ [] →
      Phase key request limit
        (some ⟨key, request, seenFrom limit firstPause os.length, .pausing⟩)
        starts os (laps starts)
  | finished {starts os} {b : Start} {o : Except Fault Reply} : Passed limit os →
      starts.length = os.length → (isDecisive o = true ∨ os.length + 1 = limit) →
      Phase key request limit none (starts ++ [b]) (os ++ [o])
        (laps starts ++ [.begun b.index, .answered o])

/-- The requests of a call each go to the pool to which the index of their attempt sends the key. -/
structure Placed (t : Ticket) (request : Request) (starts : List Start) (es : List Event) :
    Prop where
  count : attempts t es = starts.length
  sent : ∀ before i link req after, es = before ++ .told (.send t i link req) :: after →
    req = request ∧ ∃ j b, attempts t before = j + 1 ∧ starts[j]? = some b ∧ b.way = .ok i

/-- The call stands so after these events, and has sent its requests where they belong. -/
structure Goes (t : Ticket) (key : Bytes) (request : Request) (limit : Nat) (found : Option Call)
    (starts : List Start) (os : List (Except Fault Reply)) (es : List Event) : Prop where
  phase : Phase key request limit found starts os (marks t es)
  placed : Placed t request starts es

variable {key : Bytes} {request : Request} {limit : Nat} {starts : List Start} {b : Start}
  {os : List (Except Fault Reply)} {stage : CallStage} {found : Option Call} {index : Index}

/-- An attempt begins, or the last of them goes on. -/
theorem Placed.append {more : List Start} (h : Placed t request starts es)
    (hc : attempts t es' = more.length)
    (hs : ∀ before i link req after, es' = before ++ .told (.send t i link req) :: after →
      req = request ∧ attempts t before = more.length ∧
        ∃ b, (starts ++ more).getLast? = some b ∧ b.way = .ok i) :
    Placed t request (starts ++ more) (es ++ es') where
  count := by rw [attempts_append, h.count, hc, List.length_append]
  sent := by
    intro before i link req after he
    rcases Pool.split_of_append he with ⟨after', he⟩ | ⟨before', rfl, he'⟩
    · obtain ⟨hr, j, b, hj, hb, hw⟩ := h.sent before i link req after' he
      refine ⟨hr, j, b, hj, ?_, hw⟩
      rw [List.getElem?_append_left (List.getElem?_eq_some_iff.mp hb).1, hb]
    · obtain ⟨hr, hn, b, hb, hw⟩ := hs before' i link req after he'
      rw [List.getLast?_eq_getElem?] at hb
      have hlt := (List.getElem?_eq_some_iff.mp hb).1
      refine ⟨hr, _, b, ?_, hb, hw⟩
      rw [attempts_append, h.count, hn, List.length_append]
      rw [List.length_append] at hlt
      omega

theorem Placed.begin (h : Placed t request starts es)
    (hes : heard t es' = [.begun t key request index]) :
    Placed t request (starts ++ [b]) (es ++ es') := by
  apply h.append
  · rw [← attempts_heard, hes]
    simp [attempts, isBegun]
  · rintro before i link req after rfl
    have hm : .told (.send t i link req) ∈ heard t (before ++ .told (.send t i link req) :: after) :=
      mem_heard (List.mem_append_right _ List.mem_cons_self) rfl
    rw [hes] at hm
    cases List.mem_singleton.mp hm

/-- The last of the attempts goes on. -/
theorem Placed.pass (h : Placed t request starts es)
    (hb : ∀ e ∈ heard t es', isBegun t e = false)
    (hs : ∀ i link req, .told (.send t i link req) ∈ heard t es' →
      req = request ∧ ∃ b, starts.getLast? = some b ∧ b.way = .ok i) :
    Placed t request starts (es ++ es') := by
  have hzero : attempts t es' = 0 := by
    rw [← attempts_heard]
    exact List.countP_eq_zero.mpr fun e he => by simp [hb e he]
  suffices happ : Placed t request (starts ++ []) (es ++ es') by rwa [List.append_nil] at happ
  apply h.append hzero
  rintro before i link req after rfl
  have hm : .told (.send t i link req) ∈ heard t (before ++ .told (.send t i link req) :: after) :=
    mem_heard (List.mem_append_right _ List.mem_cons_self) rfl
  obtain ⟨hr, hw⟩ := hs i link req hm
  rw [List.append_nil]
  refine ⟨hr, ?_, hw⟩
  rw [attempts_append] at hzero
  exact Nat.eq_zero_of_add_eq_zero_right hzero

theorem Placed.quiet (h : Placed t request starts es) (hes : heard t es' = []) :
    Placed t request starts (es ++ es') :=
  h.pass (by simp [hes]) (by simp [hes])

/-! ## The end of an attempt -/

theorem settle_passed {g : Fault} {j : Nat} (h : isDecisive (.error g : Except Fault Reply) = false)
    (hj : j + 1 < limit) :
    c.settle t ⟨key, request, seenFrom limit firstPause j, stage⟩ (.error g) =
      ⟨c.put t ⟨key, request, seenFrom limit firstPause (j + 1), .pausing⟩,
        [.notice ((seenFrom limit firstPause j).notice g),
          .pause t ⟨firstPause.nanos * 2 ^ j⟩]⟩ := by
  have hg : g.isRetryable = true := by simpa [isDecisive] using h
  simp only [settle, Retry.next?_seenFrom, if_pos (And.intro hg hj)]
  rfl

theorem isFinal_of_last {j : Nat} (h : isDecisive o = true ∨ j + 1 = limit) :
    IsFinal ⟨key, request, seenFrom limit firstPause j, stage⟩ o := by
  rintro g rfl
  rw [Retry.next?_seenFrom]
  apply if_neg
  rintro ⟨hg, hj⟩
  rcases h with h | h
  · simp [isDecisive, hg] at h
  · omega

/-- After an attempt the call pauses, or it is over. -/
theorem goes_settle (hp : Passed limit os) (hl : starts.length = os.length)
    (hm : marks t es = laps starts ++ [.begun b.index]) (hpl : Placed t request (starts ++ [b]) es)
    (hes : heard t es' = heard t ((c.settle t
      ⟨key, request, seenFrom limit firstPause os.length, stage⟩ o).effects.map
        (Event.ofEffect f))) :
    Goes t key request limit ((c.settle t
      ⟨key, request, seenFrom limit firstPause os.length, stage⟩ o).state.find? t)
      (starts ++ [b]) (os ++ [o]) (es ++ es') := by
  by_cases hd : isDecisive o = false ∧ os.length + 1 < limit
  · obtain ⟨g, rfl, -⟩ := Retry.exists_eq_error hd.1
    rw [settle_passed hd.1 hd.2] at hes ⊢
    have hone : heard t es' = [.told (.pause t ⟨firstPause.nanos * 2 ^ os.length⟩)] := by
      rw [hes]
      simp [heard, Event.ofEffect, Event.call?, Effect.call?]
    refine ⟨?_, hpl.pass (by simp [hone, isBegun]) (by simp [hone])⟩
    have hms : marks t (es ++ es') = laps (starts ++ [b]) := by
      rw [marks_append_of_heard hone, hm, laps_concat, hl, List.append_assoc]
      simp [marks, mark?]
    have hlen : (os ++ [Except.error g]).length = os.length + 1 := by simp
    rw [hms, find?_put, ← hlen]
    exact .pausing (hp.concat hd.1 hd.2) (by simp [hl]) (by simp)
  · have hlast : isDecisive o = true ∨ os.length + 1 = limit := by
      by_cases ho : isDecisive o = false
      · have hlt := hp.within
        have hge : ¬os.length + 1 < limit := fun h => hd ⟨ho, h⟩
        exact .inr (by omega)
      · exact .inl (Bool.not_eq_false _ ▸ ho)
    rw [settle_of_isFinal (isFinal_of_last hlast)] at hes ⊢
    have hone : heard t es' = [.told (.answered t o)] := by
      rw [hes]
      simp [heard, Event.ofEffect, Event.call?, Effect.call?]
    refine ⟨?_, hpl.pass (by simp [hone, isBegun]) (by simp [hone])⟩
    have hms : marks t (es ++ es') = laps starts ++ [.begun b.index, .answered o] := by
      rw [marks_append_of_heard hone, hm, List.append_assoc]
      simp [marks, mark?]
    rw [hms, find?_without]
    exact .finished hp hl hlast

theorem Ends.heard_eq (h : Ends t call i e r) : ∃ c : Client, c.find? t = some call ∧
    r.state.find? t = (c.hear i e).state.find? t ∧
    heard t (r.effects.map (Event.ofEffect f)) =
      heard t ((c.hear i e).effects.map (Event.ofEffect f)) := by
  obtain ⟨c, pre, post, hc, hr, hf, hpre, hpost⟩ := h
  refine ⟨c, hc, hf, ?_⟩
  rw [hr, List.map_append, List.map_append, heard_append, heard_append,
    heard_effects_of_none hpre, heard_effects_of_none hpost, List.nil_append, List.append_nil]

/-- The pool has an answer for the attempt: a connection, or a refusal that ends the attempt. -/
theorem goes_borrowed (hp : Passed limit os) (hl : starts.length = os.length)
    (hw : b.way = .ok i) (hm : marks t es = laps starts ++ [.begun b.index])
    (hpl : Placed t request (starts ++ [b]) es) {w : Pool.Waiting} (he : e.ended? = some (t, w))
    (hb : w = .borrow)
    (h : Ends t ⟨key, request, seenFrom limit firstPause os.length, .borrowing i⟩ i e r)
    (hes : heard t es' = heard t (r.effects.map (Event.ofEffect f))) :
    Goes t key request limit (r.state.find? t) (starts ++ [b]) (os ++ refusals t [.pool i e])
      (es ++ es') := by
  obtain ⟨c, hc, hfind, hheard⟩ := h.heard_eq (f := f)
  rw [hheard] at hes
  rw [hfind]
  subst hb
  cases e with
  | lent u link =>
      cases he
      have hear : c.hear i (.lent t link) = ⟨c.put t ⟨key, request,
          seenFrom limit firstPause os.length, .running i link⟩, [.send t i link request]⟩ := by
        simp only [Client.hear, hc]
      rw [hear] at hes ⊢
      have hone : heard t es' = [.told (.send t i link request)] := by
        rw [hes]
        simp [heard, Event.ofEffect, Event.call?, Effect.call?]
      have hms : marks t (es ++ es') = laps starts ++ [.begun b.index] := by
        rw [marks_append_of_heard hone, hm]
        simp [marks, mark?]
      have hnone : refusals t [.pool i (.lent t link)] = [] := rfl
      rw [find?_put, hnone, List.append_nil]
      refine ⟨?_, hpl.pass (by simp [hone, isBegun]) fun j link' req hsend => ?_⟩
      · rw [hms]
        exact .trying hp hl hw (.inr ⟨link, rfl⟩)
      · rw [hone] at hsend
        cases List.mem_singleton.mp hsend
        exact ⟨rfl, b, List.getLast?_concat, hw⟩
  | failed u g =>
      cases he
      have hear : c.hear i (.failed t g) = c.settle t ⟨key, request,
          seenFrom limit firstPause os.length, .borrowing i⟩ (.error g) := by
        simp only [Client.hear, hc]
      rw [hear] at hes ⊢
      have hone : refusals t [.pool i (.failed t g)] = [.error g] := by
        simp [refusals, refusal?]
      rw [hone]
      exact goes_settle hp hl hm hpl hes
  | _ => cases he

namespace Story

variable {s s' : Story} {m : Move} {pm : Pool.Move} {p : Pool} {g : Fault}

/-! ## Attempts and their outcomes -/

/-- The attempt of the call that begins with a move. -/
def start? (s : Story) (t : Ticket) (key : Bytes) (m : Move) : Option Start :=
  (s.client.attempt? m).bind fun (u, _) =>
    if u = t then some ⟨s.client.router.current, s.client.router.route key⟩ else none

/-- The reply that comes to the request of the call. -/
def reply? (s : Story) (t : Ticket) : Move → Option (Except Fault Reply)
  | .replied u o =>
    match s.client.find? u with
    | some ⟨_, _, _, .running _ _⟩ => if u = t then some o else none
    | _ => none
  | _ => none

/-- What attempts of the call come to with a move: its key leads to no pool, the pool does not serve
it, or its request is answered or fails. -/
def outcomes (s : Story) (now : Nat) (t : Ticket) (key : Bytes) (m : Move) :
    List (Except Fault Reply) :=
  ((s.start? t key m).bind Start.unrouted?).toList ++
    refusals t (s.client.step now m).effects ++ (s.reply? t m).toList

theorem start?_of_attempt? (hm : s.client.attempt? m = some (t, call)) :
    s.start? t key m = some ⟨s.client.router.current, s.client.router.route key⟩ := by
  simp [start?, hm]

theorem start?_eq_none (ha : s.Admits m) (hc : s.client.find? t = some call)
    (hs : call.stage = .pausing → m ≠ .woken t) : s.start? t key m = none := by
  unfold start?
  cases hm : s.client.attempt? m with
  | none => rfl
  | some x => exact if_neg (ne_of_attempt? ha hc hs hm)

theorem reply?_eq_none (hc : s.client.find? t = some call)
    (hs : ∀ i link, call.stage = .running i link → ∀ o, m ≠ .replied t o) :
    s.reply? t m = none := by
  unfold reply?
  split
  · split
    · rename_i hf
      apply if_neg
      rintro rfl
      cases hf.symm.trans hc
      exact hs _ _ rfl _ rfl
    · rfl
  · rfl

/-! ## One move -/

/-- The effects of a move come after all that it begins with. -/
theorem append_news (s : Story) (now : Nat) (m : Move) (es : List Event) :
    es ++ s.news now m = es ++ (s.beginnings m ++ s.arrivals m) ++
      (s.client.step now m).effects.map (Event.ofEffect s.client.router.fleet) :=
  (List.append_assoc ..).symm

theorem heard_news_of_attempt? (hm : s.client.attempt? m = some (t, call)) :
    heard t (s.beginnings m ++ s.arrivals m) =
      [.begun t call.key call.request s.client.router.current] := by
  have ha : heard t (s.arrivals m) = [] := heard_eq_nil.mpr fun e he => by
    simp [call?_arrivals he]
  rw [heard_append, ha, List.append_nil]
  simp [beginnings, hm, heard, Event.call?]

/-- The call begins an attempt. -/
theorem goes_attempt
    (hm : s.client.attempt? m =
      some (t, ⟨key, request, seenFrom limit firstPause os.length, stage⟩))
    (hstep : s.client.step now m = s.client.attempt now t
      ⟨key, request, seenFrom limit firstPause os.length, stage⟩)
    (hw : ∀ (i : PoolId) p w, s.pools[i]? = some p → ¬p.Waits t w) (hrep : s.reply? t m = none)
    (hp : Passed limit os) (hl : starts.length = os.length) (hms : marks t es = laps starts)
    (hpl : Placed t request starts es) :
    Goes t key request limit ((s.next now m).client.find? t)
      (starts ++ (s.start? t key m).toList) (os ++ s.outcomes now t key m)
      (es ++ s.news now m) := by
  have hbegin := heard_news_of_attempt? hm
  have hmb : marks t (es ++ (s.beginnings m ++ s.arrivals m)) =
      laps starts ++ [.begun s.client.router.current] := by
    rw [marks_append_of_heard hbegin, hms]
    simp [marks, mark?]
  have hplb : Placed t request (starts ++ [⟨s.client.router.current, s.client.router.route key⟩])
      (es ++ (s.beginnings m ++ s.arrivals m)) := hpl.begin hbegin
  have hstart : (s.start? t key m).toList =
      [⟨s.client.router.current, s.client.router.route key⟩] := by
    rw [start?_of_attempt? hm]
    rfl
  have hout : s.outcomes now t key m =
      (Start.unrouted? ⟨s.client.router.current, s.client.router.route key⟩).toList ++
        refusals t (s.client.step now m).effects := by
    rw [outcomes, start?_of_attempt? hm, hrep]
    exact List.append_nil _
  rw [append_news, hstart, hout, Story.next]
  cases hr : s.client.router.route key with
  | error g =>
      rw [hr] at hplb
      have hset : s.client.step now m = s.client.settle t
          ⟨key, request, seenFrom limit firstPause os.length, stage⟩ (.error g) := by
        rw [hstep]
        simp only [Client.attempt, hr]
      rw [hset, refusals_settle]
      exact goes_settle hp hl hmb hplb rfl
  | ok i =>
      rw [hr] at hplb
      have hpool : s.client.step now m = (s.client.put t
          ⟨key, request, seenFrom limit firstPause os.length, .borrowing i⟩).onPool now i
            (.borrow t) := by
        rw [hstep]
        simp only [Client.attempt, hr]
      have hcalls := calls_onPool now (c := s.client.put t
          ⟨key, request, seenFrom limit firstPause os.length, .borrowing i⟩)
        (i := i) (m := .borrow t) find?_put
        (fun p hp => Pool.waiting?_eq_none_of_not_waits fun w => hw i p w hp)
        (fun p w hp hwaits => absurd hwaits (hw i p w hp))
        (fun w hb => by
          cases hb
          rfl)
      rw [hpool]
      rcases hcalls with hsp | ⟨p, e, w, hi, he, hew, haw, hends⟩
      · have hnone : refusals t ((s.client.put t
            ⟨key, request, seenFrom limit firstPause os.length, .borrowing i⟩).onPool now i
              (.borrow t)).effects = [] := refusals_onRouter (by simp) hsp.untold
        have hquiet := heard_effects (f := s.client.router.fleet) hsp.untold
        rw [hnone, hsp.own, find?_put]
        refine ⟨?_, hplb.quiet hquiet⟩
        rw [marks_append_of_quiet hquiet, hmb]
        have hph : Phase key request limit
            (some ⟨key, request, seenFrom limit firstPause os.length, .borrowing i⟩)
            (starts ++ [⟨s.client.router.current, .ok i⟩]) os
            (laps starts ++ [.begun s.client.router.current]) := .trying hp hl rfl (.inl rfl)
        simpa [Start.unrouted?] using hph
      · cases haw
        rw [refusals_onPool hi he]
        exact goes_borrowed hp hl rfl hmb hplb hew rfl hends rfl

/-- The call has nothing to do with a move. -/
theorem goes_spared (h : Goes t key request limit (some call) starts os es)
    (hc : s.client.find? t = some call) (hsp : Spares t s.client (s.client.step now m))
    (ha : s.Admits m) (hs : call.stage = .pausing → m ≠ .woken t)
    (hrun : ∀ i link, call.stage = .running i link → ∀ o, m ≠ .replied t o) :
    Goes t key request limit ((s.next now m).client.find? t)
      (starts ++ (s.start? t key m).toList) (os ++ s.outcomes now t key m)
      (es ++ s.news now m) := by
  have hstart : s.start? t key m = none := start?_eq_none ha hc hs
  have hout : s.outcomes now t key m = [] := by
    rw [outcomes, hstart, reply?_eq_none hc hrun, refusals_step (by simp [hc]) hsp.untold]
    rfl
  have hquiet : heard t (s.news now m) = [] :=
    heard_eq_nil.mpr fun e => call?_news ha hc hs hsp
  have hfind : (s.next now m).client.find? t = some call := hsp.own.trans hc
  have hms : marks t (es ++ s.news now m) = marks t es := marks_append_of_quiet hquiet
  rw [hstart, hout, hfind]
  simp only [Option.toList_none, List.append_nil]
  exact ⟨hms ▸ h.phase, h.placed.quiet hquiet⟩

theorem heard_before (ha : s.Admits m) (hc : s.client.find? t = some call)
    (hs : call.stage = .pausing → m ≠ .woken t) :
    heard t (s.beginnings m ++ s.arrivals m) = [] :=
  heard_eq_nil.mpr fun _ => call?_before ha hc hs

/-- The connection of the call is back, and its outcome counts. -/
theorem goes_returned (hp : Passed limit os) (hl : starts.length = os.length)
    (hm : marks t es = laps starts ++ [.begun b.index]) (hpl : Placed t request (starts ++ [b]) es)
    (h : Ends t ⟨key, request, seenFrom limit firstPause os.length, .returning i o⟩ i
      (.returned t) r)
    (hes : heard t es' = heard t (r.effects.map (Event.ofEffect f))) :
    Goes t key request limit (r.state.find? t) (starts ++ [b]) (os ++ [o]) (es ++ es') := by
  obtain ⟨c, hc, hfind, hheard⟩ := h.heard_eq (f := f)
  have hear : c.hear i (.returned t) = c.settle t
      ⟨key, request, seenFrom limit firstPause os.length, .returning i o⟩ o := by
    simp only [Client.hear, hc]
  rw [hheard, hear] at hes
  rw [hfind, hear]
  exact goes_settle hp hl hm hpl hes

/-- The reply to the request of the call. -/
theorem goes_replied (hk : s.Kept config) (ha : s.Admits (.replied t o))
    (hc : s.client.find? t = some
      ⟨key, request, seenFrom limit firstPause os.length, .running i link⟩)
    (hp : Passed limit os) (hl : starts.length = os.length)
    (hm : marks t es = laps starts ++ [.begun b.index])
    (hpl : Placed t request (starts ++ [b]) es) :
    Goes t key request limit ((s.next now (.replied t o)).client.find? t)
      (starts ++ [b] ++ (s.start? t key (.replied t o)).toList)
      (os ++ s.outcomes now t key (.replied t o)) (es ++ s.news now (.replied t o)) := by
  have hs (h : CallStage.running i link = .pausing) :
      Move.replied t o ≠ .woken t := by cases h
  have hstart : s.start? t key (.replied t o) = none := start?_eq_none ha hc hs
  have hreply : s.reply? t (.replied t o) = some o := by simp [reply?, hc]
  have hn := hk.tracked.orderly.not_waits hc rfl
  have hcalls := calls_onPool now (c := s.client.put t
      ⟨key, request, seenFrom limit firstPause os.length, .returning i o⟩)
    (i := i) (m := .giveBack t link (isHealthy o)) find?_put
    (fun p hp => ⟨Pool.waiting?_eq_none_of_not_waits fun w => hn i p w hp,
      ha _ i link hc rfl p hp⟩)
    (fun p w hp hw => absurd hw (hn i p w hp))
    (fun w hw => by
      cases hw
      rfl)
  have hquiet := heard_before ha hc hs
  have hms : marks t (es ++ (s.beginnings (.replied t o) ++ s.arrivals (.replied t o))) =
      laps starts ++ [.begun b.index] := (marks_append_of_quiet hquiet).trans hm
  rw [append_news, outcomes, hstart, hreply, Story.next, step_replied hc rfl]
  simp only [Option.toList_none, List.append_nil]
  rcases hcalls with hsp | ⟨p, e, w, hi, he, hew, haw, hends⟩
  · have hnone : refusals t ((s.client.put t
        ⟨key, request, seenFrom limit firstPause os.length, .returning i o⟩).onPool now i
          (.giveBack t link (isHealthy o))).effects = [] :=
      refusals_onRouter (by simp) hsp.untold
    have hlate := heard_effects (f := s.client.router.fleet) hsp.untold
    rw [hnone, hsp.own, find?_put]
    refine ⟨?_, (hpl.quiet hquiet).quiet hlate⟩
    rw [marks_append_of_quiet hlate, hms]
    exact .returning hp hl
  · obtain rfl : e = .returned t := by
      cases haw
      cases e <;> cases hew
      rfl
    rw [refusals_onPool hi he]
    exact goes_returned hp hl hms (hpl.quiet hquiet) hends rfl

/-- The operation of the call on its pool has ended. -/
theorem goes_ended (h : Goes t key request limit (some call) starts os es) (ha : s.Admits m)
    (hc : s.client.find? t = some call) (hm : s.client.poolMove? m = some (i, pm))
    (hi : s.pools[i]? = some p) (he : Pool.endings (p.step now pm).effects = [e])
    {w : Pool.Waiting} (hew : e.ended? = some (t, w)) (haw : call.stage.awaits? = some (i, w))
    (hends : Ends t call i e (s.client.step now m)) :
    Goes t key request limit ((s.next now m).client.find? t)
      (starts ++ (s.start? t key m).toList) (os ++ s.outcomes now t key m)
      (es ++ s.news now m) := by
  have hs (h : call.stage = .pausing) : m ≠ .woken t := by
    rw [h] at haw
    cases haw
  have hrun (j : PoolId) (link : Link) (h : call.stage = .running j link) :
      ∀ o, m ≠ .replied t o := by
    rw [h] at haw
    cases haw
  have hstart : s.start? t key m = none := start?_eq_none ha hc hs
  have hout : s.outcomes now t key m = refusals t [.pool i e] := by
    rw [outcomes, hstart, reply?_eq_none hc hrun, refusals_of_poolMove? hm hi he]
    exact List.append_nil _
  have hquiet := heard_before ha hc hs
  have hms : marks t (es ++ (s.beginnings m ++ s.arrivals m)) = marks t es :=
    marks_append_of_quiet hquiet
  have hpl := h.placed.quiet hquiet
  rw [hstart, hout, append_news]
  simp only [Option.toList_none, List.append_nil]
  have hph := h.phase
  generalize marks t es = ms at hph hms
  cases hph with
  | trying hp hl hw hst =>
      rcases hst with rfl | ⟨link, rfl⟩
      · cases haw
        exact goes_borrowed hp hl hw hms hpl hew rfl hends rfl
      · cases haw
  | returning hp hl =>
      cases haw
      obtain rfl : e = .returned t := by
        cases e <;> cases hew
        rfl
      have hnone : refusals t [.pool i (.returned t)] = [] := rfl
      rw [hnone, List.append_nil]
      exact goes_returned hp hl hms hpl hends rfl
  | pausing hp hl hne => cases haw

/-- What a call comes to, move by move. -/
theorem goes_next (h : Goes t key request limit (s.client.find? t) starts os es)
    (hk : s.Kept config) (ha : s.Admits m) (hc : s.client.find? t ≠ none) :
    Goes t key request limit ((s.next now m).client.find? t)
      (starts ++ (s.start? t key m).toList) (os ++ s.outcomes now t key m)
      (es ++ s.news now m) := by
  obtain ⟨call, hcall⟩ := Option.ne_none_iff_exists'.mp hc
  rw [hcall] at h
  by_cases hrun : ∃ i link o, call.stage = .running i link ∧ m = .replied t o
  · obtain ⟨i, link, o, hs, rfl⟩ := hrun
    obtain ⟨hph, hpl⟩ := h
    generalize hms : marks t es = ms at hph
    cases hph with
    | trying hp hl hw hst =>
        rcases hst with rfl | ⟨link', rfl⟩
        · cases hs
        · exact goes_replied hk ha hcall hp hl hms hpl
    | returning => cases hs
    | pausing => cases hs
  by_cases hwake : call.stage = .pausing ∧ m = .woken t
  · obtain ⟨hs, rfl⟩ := hwake
    obtain ⟨hph, hpl⟩ := h
    generalize hms : marks t es = ms at hph
    cases hph with
    | trying hp hl hw hst => rcases hst with rfl | ⟨link, rfl⟩ <;> cases hs
    | returning => cases hs
    | pausing hp hl =>
        have hm : s.client.attempt? (.woken t) = some
            (t, ⟨key, request, seenFrom limit firstPause os.length, .pausing⟩) := by
          simp only [attempt?, hcall]
        have hstep : s.client.step now (.woken t) = s.client.attempt now t
            ⟨key, request, seenFrom limit firstPause os.length, .pausing⟩ := by
          simp only [step, woken, hcall]
        exact goes_attempt hm hstep (hk.tracked.orderly.not_waits hcall rfl) rfl hp hl hms hpl
  have hrun (i : PoolId) (link : Link) (hs : call.stage = .running i link) (o : Except Fault Reply)
      (hm : m = .replied t o) : False := hrun ⟨i, link, o, hs, hm⟩
  have hwake (hs : call.stage = .pausing) (hm : m = .woken t) : False := hwake ⟨hs, hm⟩
  rcases hk.spares_or_concerns ha hcall now with hsp | hcon
  · exact goes_spared h hcall hsp ha hwake hrun
  cases hcon with
  | replied hs => exact (hrun _ _ hs _ rfl).elim
  | woken hs => exact (hwake hs rfl).elim
  | ended hm hi he hew haw hends => exact goes_ended h ha hcall hm hi he hew haw hends

end Story

end Shardway.Client
