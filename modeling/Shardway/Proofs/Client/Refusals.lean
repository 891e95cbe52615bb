import Shardway.Proofs.Client.Calls
import Shardway.Reply.Wire

/-!
# Error replies

What becomes of the line with which a node refuses the request of a call: the fault that the call
ends with, and the connection over which the line came. The line is told as it was sent unless its
code has no kind and no detail follows, or it reports a missing subscription.
-/

namespace Shardway

namespace Refusal

/-- The line again. -/
def line (r : Refusal) : String :=
  match r.detail with
  | none => r.code
  | some detail => s!"{r.code} {detail}"

/-- What is reported of the refusal still has its code, and as its detail the one that was sent. -/
structure IsWhole (r : Refusal) : Prop where
  coded : r.kind? ≠ some .noSub
  detailed : r.kind? = none → r.detail ≠ none

variable {r : Refusal} {k : RefusalKind} {s : String}

theorem line_ofLine : (ofLine s).line = s := by
  have hs : s.toList.takeWhile (· ≠ ' ') ++ s.toList.dropWhile (· ≠ ' ') = s.toList :=
    List.takeWhile_append_dropWhile
  have hd := List.head?_dropWhile_not (· ≠ ' ') s.toList
  apply String.toList_injective
  unfold line ofLine
  dsimp only
  generalize s.toList.takeWhile (· ≠ ' ') = w at *
  generalize s.toList.dropWhile (· ≠ ' ') = d at *
  cases d with
  | nil => simpa using hs
  | cons c rest =>
      -- What is left begins with the space that ended the code.
      have hc : c = ' ' := by simpa using hd
      subst hc
      change (String.ofList w ++ " " ++ String.ofList rest).toList = s.toList
      simpa using hs

theorem word_of_kind? (h : r.kind? = some k) : k.word = r.code := by
  simpa using List.find?_some h

theorem code?_word (h : k ≠ .noSub) : k.code? = some k.word := by
  cases k with
  | noSub => exact absurd rfl h
  | _ => rfl

/-- A code of its own is reported again. -/
theorem ofLink_report_of_kind (h : r.kind? = some k) (hk : k ≠ .noSub) :
    Fault.ofLink r.report = .server r.line := by
  have hw : k.word = r.code := word_of_kind? h
  unfold report line Fault.ofLink
  rw [h]
  cases hd : r.detail <;>
    simp [LinkFault.isTimeout, LinkFault.isSocket, LinkFault.code?, LinkFault.detail?,
      code?_word hk, hw]

/-- A missing subscription is taken for a fault of the protocol. -/
theorem ofLink_report_of_noSub (h : r.kind? = some .noSub) :
    ∃ text, Fault.ofLink r.report = .protocol text := by
  unfold report Fault.ofLink
  rw [h]
  exact ⟨_, rfl⟩

/-- After a code that has no kind some detail is always reported. -/
theorem ofLink_report_of_none (h : r.kind? = none) :
    Fault.ofLink r.report =
      .server (r.code ++ " " ++ r.detail.getD "Unknown extension error encountered") := by
  unfold report Fault.ofLink
  rw [h]
  rfl

/-- The fault keeps the whole line just when the refusal is whole. -/
theorem ofLink_report_eq_server : Fault.ofLink r.report = .server r.line ↔ r.IsWhole := by
  cases hk : r.kind? with
  | none =>
      rw [ofLink_report_of_none hk]
      cases hd : r.detail with
      | none =>
          have hl : r.line = r.code := by rw [line, hd]
          constructor
          · intro h
            have hlen := congrArg String.length (Fault.server.inj h)
            have hs : " ".length = 1 := rfl
            rw [hl, String.length_append, String.length_append, hs] at hlen
            omega
          · intro h
            exact absurd hd (h.detailed hk)
      | some detail =>
          constructor
          · intro _
            exact ⟨by simp [hk], by simp [hd]⟩
          · intro _
            rw [line, hd]
            rfl
  | some k =>
      by_cases hn : k = .noSub
      · obtain ⟨text, ht⟩ := ofLink_report_of_noSub (hn ▸ hk)
        constructor
        · intro h
          cases ht.symm.trans h
        · intro h
          exact absurd (hn ▸ hk) h.coded
      · constructor
        · intro _
          exact ⟨by simpa [hk] using hn, by simp [hk]⟩
        · intro _
          exact ofLink_report_of_kind hk hn

theorem exists_ofLink_report (h : r.kind? ≠ some .noSub) :
    ∃ text, Fault.ofLink r.report = .server text := by
  cases hk : r.kind? with
  | none => exact ⟨_, ofLink_report_of_none hk⟩
  | some k => exact ⟨_, ofLink_report_of_kind hk fun hn => h (hn ▸ hk)⟩

/-- Only a missing subscription makes a fault of the connection. -/
theorem isConnectionFault_ofLink_report :
    (Fault.ofLink r.report).isConnectionFault = true ↔ r.kind? = some .noSub := by
  cases hk : r.kind? with
  | none => simp [ofLink_report_of_none hk, Fault.isConnectionFault]
  | some k =>
      by_cases hn : k = .noSub
      · obtain ⟨text, ht⟩ := ofLink_report_of_noSub (hn ▸ hk)
        simp [ht, hn, Fault.isConnectionFault]
      · simp [ofLink_report_of_kind hk hn, hn, Fault.isConnectionFault]

theorem isRetryable_ofLink_report : (Fault.ofLink r.report).isRetryable = false := by
  cases hk : r.kind? with
  | none => rw [ofLink_report_of_none hk]; rfl
  | some k =>
      by_cases hn : k = .noSub
      · obtain ⟨text, ht⟩ := ofLink_report_of_noSub (hn ▸ hk)
        rw [ht]; rfl
      · rw [ofLink_report_of_kind hk hn]; rfl

end Refusal

namespace Client

variable {config : Config.Cluster} {t : Ticket} {i : PoolId} {link : Link} {now : Nat}
  {call : Call} {o : Except Fault Reply}

/-! ## Calls that are about to be over -/

namespace Story

variable {s s' : Story} {m : Move}

/-- Since `s`, all that the call has heard is its answer, or nothing while it only waits for the
return of its connection. -/
def AnswersWith (s : Story) (t : Ticket) (call : Call) (o : Except Fault Reply) (s' : Story) :
    Prop :=
  ∃ es, s'.past = s.past ++ es ∧
    (s'.client.find? t = some call ∧ (∀ e ∈ es, e.call? ≠ some t) ∨
      ∃ before after, es = before ++ .told (.answered t o) :: after ∧
        ∀ e ∈ before, e.call? ≠ some t)

/-- A move that answers the call adds to its past just that. -/
theorem answered_news {r : Reaction} {pre : List Event} {f : Fleet} (h : Answers t o r)
    (hpre : ∀ e ∈ pre, e.call? ≠ some t) :
    ∃ before after, pre ++ r.effects.map (Event.ofEffect f) =
      before ++ .told (.answered t o) :: after ∧ ∀ e ∈ before, e.call? ≠ some t := by
  obtain ⟨l, l', hr, hl, -⟩ := h.told
  refine ⟨pre ++ l.map (Event.ofEffect f), l'.map (Event.ofEffect f), ?_, fun e he => ?_⟩
  · rw [hr]
    simp [Event.ofEffect]
  · rcases List.mem_append.mp he with he | he
    · exact hpre e he
    · obtain ⟨x, hx, rfl⟩ := List.mem_map.mp he
      simp [call?_ofEffect, hl x hx]

theorem eq_returned {e : Pool.Effect} {w : Pool.Waiting} (he : e.ended? = some (t, w))
    (hs : call.stage = .returning i o) {j : PoolId} (ha : call.stage.awaits? = some (j, w)) :
    j = i ∧ e = .returned t := by
  rw [hs] at ha
  cases ha
  cases e <;> cases he
  exact ⟨rfl, rfl⟩

/-- A call that returns its connection is not disturbed by anything. -/
theorem AnswersWith.next {s₀ : Story} (h : s₀.AnswersWith t call o s) (hk : s.Kept config)
    (ha : s.Admits m) (hs : call.stage = .returning i o) (ho : IsFinal call o) :
    s₀.AnswersWith t call o (s.next now m) := by
  obtain ⟨es, hp, ⟨hc, hes⟩ | ⟨before, after, rfl, hb⟩⟩ := h
  · have hnp : call.stage = .pausing → m ≠ .woken t := by simp [hs]
    refine ⟨es ++ s.news now m, by simp [Story.next, hp], ?_⟩
    rcases hk.spares_or_concerns ha hc now with hsp | hcon
    · refine .inl ⟨hsp.own.trans hc, fun e he => ?_⟩
      rcases List.mem_append.mp he with he | he
      · exact hes e he
      · exact call?_news ha hc hnp hsp he
    · cases hcon with
      | replied hr => cases hs.symm.trans hr
      | woken hw => cases hs.symm.trans hw
      | @ended _ j pm p e w hm hi he hew haw hends =>
          obtain ⟨rfl, rfl⟩ := eq_returned hew hs haw
          have hans := hends.returned hs ho
          have hpre (e : Event) (he : e ∈ es ++ (s.beginnings m ++ s.arrivals m)) :
              e.call? ≠ some t := (List.mem_append.mp he).elim (hes e) (call?_before ha hc hnp)
          obtain ⟨before, after, hn, hb⟩ := answered_news (f := s.client.router.fleet) hans hpre
          exact .inr ⟨before, after, by rw [← hn]; simp [news], hb⟩
  · refine ⟨before ++ .told (.answered t o) :: (after ++ s.news now m), ?_,
      .inr ⟨before, after ++ s.news now m, rfl, hb⟩⟩
    simp [Story.next, hp]

theorem AnswersWith.leads {s₀ : Story} (h : s₀.AnswersWith t call o s) (hr : Runs config s)
    (hs : call.stage = .returning i o) (ho : IsFinal call o) (hl : Leads s s') :
    s₀.AnswersWith t call o s' := by
  induction hl with
  | refl => exact h
  | next hl _ ha ih => exact ih.next (hr.leads hl).kept ha hs ho

/-- A reply ends the attempt of a call, which only returns its connection then. -/
theorem answersWith_replied (hk : s.Kept config) (ha : s.Admits (.replied t o))
    (hc : s.client.find? t = some call) (hs : call.stage = .running i link)
    (ho : IsFinal call o) :
    s.AnswersWith t { call with stage := .returning i o } o (s.next now (.replied t o)) := by
  have hx := step_replied hc hs o now
  have hn := hk.tracked.orderly.not_waits hc (by rw [hs]; rfl)
  have hb (e : Event) (he : e ∈ s.beginnings (.replied t o) ++ s.arrivals (.replied t o)) :
      e.call? ≠ some t := call?_before ha hc (by simp [hs]) he
  have hcalls := calls_onPool now (c := s.client.put t { call with stage := .returning i o })
    (i := i) (m := .giveBack t link (isHealthy o)) find?_put
    (fun p hp => ⟨Pool.waiting?_eq_none_of_not_waits fun w => hn i p w hp,
      ha call i link hc hs p hp⟩)
    (fun p w hp hw => absurd hw (hn i p w hp))
    (fun w hw => by
      cases hw
      rfl)
  refine ⟨s.news now (.replied t o), rfl, ?_⟩
  rcases hcalls with hsp | ⟨p, e, w, hi, he, hew, haw, hends⟩
  · refine .inl ⟨?_, fun e he => ?_⟩
    · rw [Story.next, hx]
      exact hsp.own.trans find?_put
    · rcases List.mem_append.mp he with he | he
      · exact hb e he
      · obtain ⟨x, hm, rfl⟩ := List.mem_map.mp he
        rw [call?_ofEffect]
        exact hsp.untold x (hx ▸ hm)
  · obtain ⟨-, rfl⟩ := eq_returned hew rfl haw
    rw [← hx] at hends
    exact .inr (answered_news (hends.returned rfl ho) hb)

/-! ## Refused requests -/

open Reply

theorem outcome_refusal {line : String} :
    Wire.outcome (.refusal (.ofLine line)) = .error (.ofLink (Refusal.ofLine line).report) := rfl

/-- An error reply to the request of a call is the end of the call, which is not tried again. Its
text is the line as the node sent it just if the refusal is whole. The connection goes back to its
pool as a healthy one, unless the line reports a missing subscription, which is taken for a fault of
the connection. -/
theorem refused_call (h : Runs config s) {line : String} {f : Fault} (hn : s.now ≤ now)
    (hf : Wire.outcome (.refusal (.ofLine line)) = .error f)
    (ha : s.Admits (.replied t (.error f))) (hc : s.client.find? t = some call)
    (hs : call.stage = .running i link) (hl : Leads (s.next now (.replied t (.error f))) s') :
    s.AnswersWith t { call with stage := .returning i (.error f) } (.error f) s' ∧
      f.isRetryable = false ∧
      (f = .server line ↔ (Refusal.ofLine line).IsWhole) ∧
      ((Refusal.ofLine line).kind? ≠ some .noSub → ∃ text, f = .server text) ∧
      (f.isConnectionFault = true ↔ (Refusal.ofLine line).kind? = some .noSub) ∧
      (s.next now (.replied t (.error f))).client.router = (s.client.router.stepPool now i
        (.giveBack t link (decide ((Refusal.ofLine line).kind? ≠ some .noSub)))).state := by
  cases outcome_refusal.symm.trans hf
  have hr : (Fault.ofLink (Refusal.ofLine line).report).isRetryable = false :=
    Refusal.isRetryable_ofLink_report
  have hfinal : IsFinal call (.error (Fault.ofLink (Refusal.ofLine line).report)) := by
    rintro f ⟨⟩
    simp [Retry.next?, hr]
  refine ⟨(answersWith_replied h.kept ha hc hs hfinal).leads (h.next hn ha) rfl hfinal hl, hr, ?_,
    Refusal.exists_ofLink_report, Refusal.isConnectionFault_ofLink_report, ?_⟩
  · have hw := Refusal.ofLink_report_eq_server (r := .ofLine line)
    rwa [Refusal.line_ofLine] at hw
  · have hh : isHealthy (.error (Fault.ofLink (Refusal.ofLine line).report)) =
        decide ((Refusal.ofLine line).kind? ≠ some .noSub) := by
      rw [Bool.eq_iff_iff, decide_eq_true_iff, ne_eq, ← Refusal.isConnectionFault_ofLink_report]
      simp [isHealthy]
    rw [← hh, Story.next, step_replied hc hs]
    exact onRouter_router _

/-- The only request of a client may be answered. -/
theorem admits_soloSent (r : Router) (o : Except Fault Reply) :
    (soloSent r).Admits (.replied 0 o) := by
  intro call i link hc hs p hp
  cases hc
  cases hs
  cases hp
  exact List.mem_cons_self

/-- The call is over as soon as its request is refused, and its connection is idle. -/
theorem soloSent_server (r : Router) (text : String) :
    (soloSent r).next 2 (.replied 0 (.error (.server text))) =
      soloAt r [(1, .borrow 0), (1, .connected 0 (.ok 7)), (2, .giveBack 0 7 true)] [] 2
        ((soloSent r).past ++ [.came 0 (.giveBack 0 7 true) (.back 7),
          .told (.pool 0 (.returned 0)), .told (.answered 0 (.error (.server text)))]) := rfl

/-- After a fault of the connection it is closed. -/
theorem soloSent_protocol (r : Router) (text : String) :
    (soloSent r).next 2 (.replied 0 (.error (.protocol text))) =
      soloAt r [(1, .borrow 0), (1, .connected 0 (.ok 7)), (2, .giveBack 0 7 false)] [] 2
        ((soloSent r).past ++ [.came 0 (.giveBack 0 7 false) (.back 7), .told (.pool 0 (.close 7)),
          .told (.pool 0 (.returned 0)), .told (.answered 0 (.error (.protocol text)))]) := rfl

/-- The node does not know the command. -/
theorem refused_call_unknown :
    ∃ s : Story, Runs solo s ∧ .told (.send 0 0 7 [[71]]) ∈ s.past ∧
      .told (.answered 0 (.error (.server "ERR unknown command"))) ∈
        (s.next 2 (.replied 0 (.error (.server "ERR unknown command")))).past ∧
      (s.next 2 (.replied 0 (.error (.server "ERR unknown command")))).client.router =
        (s.client.router.stepPool 2 0 (.giveBack 0 7 true)).state := by
  obtain ⟨r, -, h⟩ := exists_soloSent
  have hf : Wire.outcome (.refusal (.ofLine "ERR unknown command")) =
      .error (.server "ERR unknown command") := by
    have hd : Fault.ofLink (Refusal.ofLine "ERR unknown command").report =
        .server "ERR unknown command" := by decide
    rw [outcome_refusal, hd]
  obtain ⟨-, -, -, -, -, hm⟩ :=
    refused_call h (Nat.le_succ 1) hf (admits_soloSent r _) rfl rfl .refl
  exact ⟨soloSent r, h, by simp [soloSent, soloAt], by simp [soloSent_server, soloAt], hm⟩

/-- Not every line is told as it was sent, and not every connection is kept: a code without a detail
is told with one, and after a missing subscription the connection is closed. -/
theorem not_whole_oops :
    ∃ s : Story, Runs solo s ∧
      (∃ f, Wire.outcome (.refusal (.ofLine "OOPS")) = .error f ∧ f ≠ .server "OOPS" ∧
        .told (.answered 0 (.error f)) ∈ (s.next 2 (.replied 0 (.error f))).past ∧
        .told (.answered 0 (.error (.server "OOPS"))) ∉
          (s.next 2 (.replied 0 (.error f))).past) ∧
      ∃ f, Wire.outcome (.refusal (.ofLine "NOSUB gone")) = .error f ∧
        f.isConnectionFault = true ∧
        .told (.answered 0 (.error f)) ∈ (s.next 2 (.replied 0 (.error f))).past ∧
        .told (.pool 0 (.close 7)) ∈ (s.next 2 (.replied 0 (.error f))).past := by
  obtain ⟨r, -, h⟩ := exists_soloSent
  have ho : Fault.ofLink (Refusal.ofLine "OOPS").report =
      .server "OOPS Unknown extension error encountered" := by decide
  have hn : Fault.ofLink (Refusal.ofLine "NOSUB gone").report =
      .protocol "An error was signalled by the server - NoSub: gone" := by decide
  refine ⟨soloSent r, h, ⟨_, by rw [outcome_refusal, ho], by decide, ?_, ?_⟩,
    ⟨_, by rw [outcome_refusal, hn], by decide, ?_, ?_⟩⟩
  · simp [soloSent_server, soloAt]
  · rw [soloSent_server]
    simp [soloAt, soloSent]
  · simp [soloSent_protocol, soloAt]
  · simp [soloSent_protocol, soloAt]

end Story

end Client

end Shardway
