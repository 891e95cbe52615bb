import Shardway.Proofs.Client.Phases

/-!
# Calls that are retried

Whatever else happens to a client, a call goes as a run of its attempts does. Each attempt goes by
the index that is current when it begins.
-/

namespace Shardway.Client

open Retry (isDecisive seenFrom)

variable {config : Config.Cluster} {c : Client} {t : Ticket} {i : PoolId} {now : Nat}
  {o : Except Fault Reply} {es : List Event} {key : Bytes} {request : Request} {limit : Nat}
  {starts : List Start} {b : Start} {os : List (Except Fault Reply)} {call : Call}
  {found : Option Call}

namespace Story

variable {s s' : Story}

/-! ## Up to the end of a call -/

/-- The call has come, and the client has gone on since, up to the end of the call at most. The
attempts of the call that began meanwhile are noted, and what they came to. -/
inductive Course (s : Story) (now₀ : Nat) (t : Ticket) (key : Bytes) (request : Request)
    (attempts : Nat) : Story → List Start → List (Except Fault Reply) → Prop
  | called : Course s now₀ t key request attempts (s.next now₀ (.call t key request attempts))
      (s.start? t key (.call t key request attempts)).toList
      (s.outcomes now₀ t key (.call t key request attempts))
  | next {s' : Story} {starts os} (now : Nat) (m : Move) :
      Course s now₀ t key request attempts s' starts os → s'.client.find? t ≠ none →
      s'.now ≤ now → s'.Admits m →
      Course s now₀ t key request attempts (s'.next now m) (starts ++ (s'.start? t key m).toList)
        (os ++ s'.outcomes now t key m)

theorem Course.goes {limit : Nat} (hc : Course s now t key request limit s' starts os)
    (h : Runs config s) (hn : s.now ≤ now) (ha : s.Admits (.call t key request limit)) :
    Runs config s' ∧ ∃ es, s'.past = s.past ++ es ∧
      Goes t key request (max limit 1) (s'.client.find? t) starts os es := by
  induction hc with
  | called =>
      have hfirst : seenFrom (max limit 1) firstPause 0 = ⟨max limit 1, 0, firstPause⟩ := rfl
      have hp : Passed (max limit 1) [] :=
        ⟨Nat.le_max_right limit 1, fun o ho => absurd ho List.not_mem_nil⟩
      have hpl : Placed t request [] [] := ⟨rfl, fun before i link req after he => by simp at he⟩
      have hm : s.client.attempt? (.call t key request limit) =
          some (t, ⟨key, request, seenFrom (max limit 1) firstPause 0, .pausing⟩) := rfl
      have hstep : s.client.step now (.call t key request limit) = s.client.attempt now t
          ⟨key, request, seenFrom (max limit 1) firstPause 0, .pausing⟩ := rfl
      have hg := goes_attempt hm hstep (fun i p w hp => not_waits_of_admits_call ha w hp) rfl hp
        rfl rfl hpl
      exact ⟨h.next hn ha, _, rfl, hg⟩
  | next now m _ hne hn ha' ih =>
      obtain ⟨hr, es, hes, hg⟩ := ih
      refine ⟨hr.next hn ha', es ++ _, ?_, goes_next hg hr.kept ha' hne⟩
      rw [Story.next, hes, List.append_assoc]

end Story

/-! ## Calls and runs -/

/-- The sequence begins with the list. -/
def Continues {α : Type} (l : List α) (f : Nat → α) : Prop :=
  ∀ (j : Nat) a, l[j]? = some a → f j = a

/-- What is seen of a call whose attempts go by these indices, from its beginning to its end. -/
def timeline (x : Nat → Index) (r : Retry.Run Reply) : List Mark :=
  (r.pauses.flatMap fun (p, _) => [.begun (x p.made), .paused p.pause]) ++
    [.begun (x r.pauses.length), .answered r.result]

variable {x : Nat → Index} {outcome : Nat → Except Fault Reply} {k n : Nat}

theorem Continues.of_concat {α : Type} {l : List α} {a : α} {g : Nat → α}
    (h : Continues (l ++ [a]) g) : Continues l g ∧ g l.length = a :=
  ⟨fun j b hb => h j b (by rw [List.getElem?_append_left (List.getElem?_eq_some_iff.mp hb).1, hb]),
    h l.length a (by simp)⟩

/-- The first `n` attempts of a timeline, each followed by a pause. -/
def lapsTo (x : Nat → Index) (n : Nat) : List Mark :=
  (List.range n).flatMap fun i => [.begun (x i), .paused ⟨firstPause.nanos * 2 ^ i⟩]

theorem lapsTo_succ (x : Nat → Index) (n : Nat) : lapsTo x (n + 1) =
    lapsTo x n ++ [.begun (x n), .paused ⟨firstPause.nanos * 2 ^ n⟩] := by
  simp [lapsTo, List.range_succ]

theorem length_lapsTo (x : Nat → Index) (n : Nat) : (lapsTo x n).length = 2 * n := by
  induction n with
  | zero => rfl
  | succ n ih =>
      rw [lapsTo_succ, List.length_append, ih]
      rfl

theorem laps_eq (h : Continues (starts.map Start.index) x) :
    laps starts = lapsTo x starts.length := by
  induction starts using List.reverseRecOn with
  | nil => rfl
  | append_singleton starts b ih =>
      rw [List.map_append] at h
      obtain ⟨h, hb⟩ := h.of_concat
      rw [List.length_map] at hb
      rw [laps_concat, ih h, List.length_append, List.length_singleton, lapsTo_succ, hb]

theorem lapsTo_isPrefix (h : n ≤ k) : lapsTo x n <+: lapsTo x k := by
  induction h with
  | refl => exact List.prefix_rfl
  | step _ ih =>
      rw [Nat.succ_eq_add_one, lapsTo_succ]
      exact ih.trans (List.prefix_append _ _)

/-- The beginning of an attempt comes where it belongs. -/
theorem begun_isPrefix (h : n ≤ k) :
    lapsTo x n ++ [.begun (x n)] <+: lapsTo x k ++ [.begun (x k), .answered o] := by
  rcases Nat.lt_or_eq_of_le h with hlt | rfl
  · have hone : lapsTo x n ++ [.begun (x n)] <+: lapsTo x (n + 1) := by
      rw [lapsTo_succ]
      exact (List.prefix_append_right_inj _).mpr (List.prefix_append [_] [_])
    exact (hone.trans (lapsTo_isPrefix hlt)).trans (List.prefix_append _ _)
  · exact (List.prefix_append_right_inj _).mpr (List.prefix_append [_] [_])

theorem timeline_run (h : Retry.EndsAt outcome limit k) :
    timeline x (Retry.run outcome limit firstPause) =
      lapsTo x k ++ [.begun (x k), .answered (outcome k)] := by
  obtain ⟨hres, hp⟩ := h.exact firstPause
  generalize Retry.run outcome limit firstPause = r at hres hp
  have hretries : r.pauses.map Prod.fst = (List.range k).map (seenFrom limit firstPause) := by
    have h := congrArg (List.map Prod.fst) hp
    simpa [Retry.Run.paused, Function.comp_def] using h
  have hlen : r.pauses.length = k := by
    have h := congrArg List.length hretries
    simpa using h
  have hlaps : (r.pauses.flatMap fun p => [Mark.begun (x p.1.made), .paused p.1.pause]) =
      lapsTo x k := by
    rw [← List.flatMap_map (f := Prod.fst)
      (g := fun p : Retry => [Mark.begun (x p.made), .paused p.pause]), hretries, List.flatMap_map]
    rfl
  rw [timeline, hres, hlen]
  exact congrArg (· ++ _) hlaps

theorem Passed.le (h : Passed limit os) (ho : Continues os outcome)
    (hk : Retry.EndsAt outcome limit k) : os.length ≤ k := by
  apply Nat.le_of_not_lt
  intro hlt
  have hd : isDecisive (outcome k) = false := by
    rw [ho k os[k] (List.getElem?_eq_getElem hlt)]
    exact h.passed _ (List.getElem_mem hlt)
  rcases hk.last with hlast | hlast
  · cases hd.symm.trans hlast
  · have hw := h.within
    omega

theorem Passed.endsAt (h : Passed limit os) (ho : Continues (os ++ [o]) outcome)
    (hlast : isDecisive o = true ∨ os.length + 1 = limit) :
    Retry.EndsAt outcome limit os.length := by
  obtain ⟨ho, hone⟩ := ho.of_concat
  refine ⟨fun i hi => ?_, h.within, ?_⟩
  · rw [ho i os[i] (List.getElem?_eq_getElem hi)]
    exact h.passed _ (List.getElem_mem hi)
  · rwa [hone]

/-- A call with at most `limit` attempts goes as a run does that begins with these outcomes, and has
made one attempt at least. -/
structure Follows (t : Ticket) (request : Request) (limit : Nat) (starts : List Start)
    (os : List (Except Fault Reply)) (found : Option Call) (es : List Event) : Prop where
  begun : starts ≠ []
  inStep : os.length ≤ starts.length ∧ starts.length ≤ os.length + 1
  /-- What was seen is the timeline of the run up to here, and all of it just if it is over. -/
  course : ∀ x outcome, Continues (starts.map Start.index) x → Continues os outcome →
    marks t es <+: timeline x (Retry.run outcome limit firstPause) ∧
      (marks t es = timeline x (Retry.run outcome limit firstPause) ↔ found = none)
  /-- The call is told nothing that none of its attempts came to, as that there was none. -/
  answered : ∀ o, .told (.answered t o) ∈ es → o ∈ os
  placed : Placed t request starts es
  /-- Also the pause that would come next can be represented. -/
  representable : ∀ call, found = some call → call.retry.pause.nanos ≤ Span.longest.nanos

theorem Phase.ne_nil {ms : List Mark} (h : Phase key request limit found starts os ms) :
    starts ≠ [] := by
  cases h with
  | pausing hp hl hne =>
      rintro rfl
      exact hne (List.eq_nil_of_length_eq_zero hl.symm)
  | _ => simp

theorem Phase.length {ms : List Mark} (h : Phase key request limit found starts os ms) :
    os.length ≤ starts.length ∧ starts.length ≤ os.length + 1 := by
  cases h with
  | finished hp hl => simp [hl]
  | trying hp hl => simp [hl]
  | returning hp hl => simp [hl]
  | pausing hp hl => simp [hl]

theorem Phase.retry_le {ms : List Mark} (h : Phase key request limit (some call) starts os ms)
    (hpause : firstPause.nanos * 2 ^ (limit - 1) ≤ Span.longest.nanos) :
    call.retry.pause.nanos ≤ Span.longest.nanos := by
  cases h with
  | trying hp => exact Retry.seenFrom_le hpause hp.within
  | returning hp => exact Retry.seenFrom_le hpause hp.within
  | pausing hp => exact Retry.seenFrom_le hpause hp.within

theorem mem_laps {o : Except Fault Reply} : .answered o ∉ laps starts := by
  simp [laps]

theorem Phase.mem_outcomes {ms : List Mark} (h : Phase key request limit found starts os ms)
    (ho : .answered o ∈ ms) : o ∈ os := by
  cases h with
  | trying => simp [mem_laps] at ho
  | returning => simp [mem_laps] at ho
  | pausing => exact absurd ho mem_laps
  | @finished _ _ b o' =>
      have ho : o = o' := by simpa [mem_laps] using ho
      simp [ho]

/-- An attempt goes on that is one of those of the run. -/
theorem trying_course (hp : Passed limit os) (hl : starts.length = os.length)
    (hx : Continues ((starts ++ [b]).map Start.index) x) (ho : Continues os outcome) :
    laps starts ++ [.begun b.index] <+: timeline x (Retry.run outcome limit firstPause) ∧
      laps starts ++ [.begun b.index] ≠ timeline x (Retry.run outcome limit firstPause) := by
  have hk := Retry.endsAt_decisive outcome (Nat.zero_lt_of_lt hp.within)
  have hle : starts.length ≤ Retry.decisive outcome limit := hl ▸ hp.le ho hk
  rw [List.map_append] at hx
  obtain ⟨hx, hb⟩ := hx.of_concat
  rw [List.length_map] at hb
  rw [timeline_run hk, laps_eq hx, ← hb]
  refine ⟨begun_isPrefix hle, fun heq => ?_⟩
  have hlen := congrArg List.length heq
  simp only [List.length_append, length_lapsTo, List.length_cons, List.length_nil] at hlen
  omega

theorem Phase.course {ms : List Mark} (h : Phase key request limit found starts os ms)
    (hx : Continues (starts.map Start.index) x) (ho : Continues os outcome) :
    ms <+: timeline x (Retry.run outcome limit firstPause) ∧
      (ms = timeline x (Retry.run outcome limit firstPause) ↔ found = none) := by
  cases h with
  | trying hp hl hw hst =>
      obtain ⟨hpre, hne⟩ := trying_course hp hl hx ho
      exact ⟨hpre, iff_of_false hne (Option.some_ne_none _)⟩
  | returning hp hl =>
      obtain ⟨hpre, hne⟩ := trying_course hp hl hx ho.of_concat.1
      exact ⟨hpre, iff_of_false hne (Option.some_ne_none _)⟩
  | pausing hp hl hne =>
      have hk := Retry.endsAt_decisive outcome (Nat.zero_lt_of_lt hp.within)
      have hle : starts.length ≤ Retry.decisive outcome limit := hl ▸ hp.le ho hk
      rw [timeline_run hk, laps_eq hx]
      refine ⟨(lapsTo_isPrefix hle).trans (List.prefix_append _ _),
        iff_of_false (fun heq => ?_) (Option.some_ne_none _)⟩
      have hlen := congrArg List.length heq
      simp only [List.length_append, length_lapsTo, List.length_cons, List.length_nil] at hlen
      omega
  | @finished starts os b o hp hl hlast =>
      have hk := hp.endsAt ho hlast
      rw [List.map_append] at hx
      obtain ⟨hx, hb⟩ := hx.of_concat
      rw [List.length_map] at hb
      have heq : laps starts ++ [.begun b.index, .answered o] =
          timeline x (Retry.run outcome limit firstPause) := by
        rw [timeline_run hk, laps_eq hx, ← hl, hb, hl, ho.of_concat.2]
      exact ⟨heq ▸ List.prefix_rfl, iff_of_true heq rfl⟩

theorem Goes.follows (h : Goes t key request limit found starts os es)
    (hpause : firstPause.nanos * 2 ^ (limit - 1) ≤ Span.longest.nanos) :
    Follows t request limit starts os found es where
  begun := h.phase.ne_nil
  inStep := h.phase.length
  course := fun x outcome => h.phase.course
  answered := fun o ho => h.phase.mem_outcomes (List.mem_filterMap.mpr ⟨_, ho, by simp [mark?]⟩)
  placed := h.placed
  representable := fun call hf => (hf ▸ h.phase).retry_le hpause

/-- A run of attempts goes on up to the first one that is decisive, or up to the last one allowed:
its outcome is the result, after each attempt before it there is a pause, twice as long each time,
and what would come later does not matter. A call goes as such a run does, even if it is to make no
attempt at all, whatever comes between its attempts. Each of them goes by the index that is current
when it begins, and the call is answered with the outcome of one of them. -/
theorem retries_exactly :
    (∀ {α : Type} (outcome : Nat → Except Fault α) (limit : Nat) (pause : Span), 0 < limit →
      pause.nanos * 2 ^ (limit - 1) ≤ Span.longest.nanos →
      Retry.Exact outcome limit pause (Retry.decisive outcome limit)
          (Retry.run outcome limit pause) ∧
        (∀ outcome', (∀ i ≤ Retry.decisive outcome limit, outcome' i = outcome i) →
          Retry.run outcome' limit pause = Retry.run outcome limit pause) ∧
        ∀ i ≤ Retry.decisive outcome limit,
          (seenFrom limit pause i).pause.nanos ≤ Span.longest.nanos) ∧
      ∀ {config : Config.Cluster} {s s' : Story} {now : Nat} {t : Ticket} {key : Bytes}
        {request : Request} {limit : Nat} {starts : List Start}
        {os : List (Except Fault Reply)}, Story.Runs config s → s.now ≤ now →
        s.Admits (.call t key request limit) →
        firstPause.nanos * 2 ^ (max limit 1 - 1) ≤ Span.longest.nanos →
        Story.Course s now t key request limit s' starts os →
        ∃ es, s'.past = s.past ++ es ∧
          Follows t request (max limit 1) starts os (s'.client.find? t) es := by
  refine ⟨fun outcome limit pause hlimit hpause => ?_, fun h hn ha hpause hc => ?_⟩
  · have hk := Retry.endsAt_decisive outcome hlimit
    refine ⟨hk.exact pause, fun outcome' ho => hk.run_congr ho pause, fun i hi => ?_⟩
    exact Retry.seenFrom_le hpause (Nat.lt_of_le_of_lt hi hk.within)
  · obtain ⟨-, es, hes, hg⟩ := hc.goes h hn ha
    exact ⟨es, hes, hg.follows hpause⟩

theorem next_woken {call : Call} (hc : c.find? t = some call) (hs : call.stage = .pausing)
    (hr : c.router.route call.key = .ok i) {now' : Nat} (past : List Event) :
    Story.next ⟨c, now, past⟩ now' (.woken t) =
      ⟨((c.put t { call with stage := .borrowing i }).onPool now' i (.borrow t)).state, now',
        past ++ (.begun t call.key call.request c.router.current ::
          ((c.put t { call with stage := .borrowing i }).onPool now' i (.borrow t)).effects.map
            (Event.ofEffect c.router.fleet))⟩ := by
  have ha : arrived c.router.fleet.pools i (.borrow t) = [] := by
    unfold arrived
    split <;> rfl
  simp [Story.next, Story.news, Story.beginnings, Story.arrivals, attempt?, poolMove?, step, woken,
    attempt, hc, hs, hr, Story.pools, Except.toOption, ha]

namespace Story

def refused : Fault := .connectionFailed "refused"

/-- The pool of the only call opens a connection. -/
def soloDialing (r : Router) : Story :=
  soloAt r [(1, .borrow 0)] [(0, ⟨[1], [[71]], seenFrom 2 firstPause 0, .borrowing 0⟩)] 1
    [.begun 0 [1] [[71]] r.current, .dialed 0 0 (some ⟨"a", 7000⟩)]

/-- It could not, and the call pauses. -/
def soloPausing (r : Router) : Story :=
  soloAt r [(1, .borrow 0), (2, .connected 0 (.error refused))]
    [(0, ⟨[1], [[71]], seenFrom 2 firstPause 1, .pausing⟩)] 2
    ((soloDialing r).past ++ [.came 0 (.connected 0 (.error refused)) (.missed 0 refused),
      .told (.pool 0 (.notice (.connectFailed ⟨"a", 7000⟩ refused))),
      .told (.pool 0 (.failed 0 refused)), .told (.notice (.retrying 1 refused firstPause)),
      .told (.pause 0 firstPause)])

/-- It opens another. -/
def soloAgain (r : Router) : Story :=
  soloAt r [(1, .borrow 0), (2, .connected 0 (.error refused)), (52, .borrow 0)]
    [(0, ⟨[1], [[71]], seenFrom 2 firstPause 1, .borrowing 0⟩)] 52
    ((soloPausing r).past ++ [.begun 0 [1] [[71]] r.current, .dialed 0 0 (some ⟨"a", 7000⟩)])

/-- The request was sent over it, and answered. -/
def soloServed (r : Router) : Story :=
  ((soloAgain r).next 53 (.pool 0 (.connected 0 (.ok 7)))).next 54 (.replied 0 (.ok .nil))

/-- The way from the call to its answer. -/
theorem course_soloServed {r : Router} (hr : ∀ key, r.route key = .ok 0) :
    ∃ starts os, Course (soloAt r [] [] 0 []) 1 0 [1] [[71]] 2 (soloServed r) starts os := by
  have hcalled : (soloAt r [] [] 0 []).next 1 (.call 0 [1] [[71]] 2) = soloDialing r := by
    have hc : (soloAt r [] [] 0 []).client.router.route [1] = .ok 0 := hr [1]
    exact next_call hc []
  have hpausing : (soloDialing r).next 2 (.pool 0 (.connected 0 (.error refused))) =
      soloPausing r := rfl
  have hagain : (soloPausing r).next 52 (.woken 0) = soloAgain r := by
    have hc : (soloPausing r).client.router.route [1] = .ok 0 := hr [1]
    have hf : (soloPausing r).client.find? 0 =
        some ⟨[1], [[71]], seenFrom 2 firstPause 1, .pausing⟩ := rfl
    exact (next_woken hf rfl hc (soloPausing r).past).trans rfl
  have h : Course (soloAt r [] [] 0 []) 1 0 [1] [[71]] 2 _ _ _ := .called
  rw [hcalled] at h
  have h := h.next 2 (.pool 0 (.connected 0 (.error refused))) (Option.some_ne_none _)
    (Nat.le_succ 1)
    ⟨by simp [Pool.Move.begun?], fun p hp => ⟨trivial, fun link _ => List.not_mem_nil⟩⟩
  rw [hpausing] at h
  have h := h.next 52 (.woken 0) (Option.some_ne_none _) (show 2 ≤ 52 by decide) trivial
  rw [hagain] at h
  have h := h.next 53 (.pool 0 (.connected 0 (.ok 7))) (Option.some_ne_none _) (Nat.le_succ 52)
    ⟨by simp [Pool.Move.begun?], fun p hp => ⟨trivial, fun link _ => List.not_mem_nil⟩⟩
  have h := h.next 54 (.replied 0 (.ok .nil)) (Option.some_ne_none _) (Nat.le_succ 53)
    fun call i link hc hs p hp => by
      cases hc
      cases hs
      cases hp
      exact List.mem_cons_self
  exact ⟨_, _, h⟩

end Story

/-- The third attempt of five succeeds. And a call is served at its second attempt, 50 milliseconds
after its pool could not open a connection for the first. -/
theorem retries_exactly_refused :
    (Retry.run (fun i => if i < 2 then .error (.timeout "slow") else .ok i) 5 firstPause).result =
        .ok 2 ∧
      ∃ (s s' : Story) (starts : List Start) (os : List (Except Fault Reply)) (x : Index),
        Story.Runs Story.solo s ∧ s.Admits (.call 0 [1] [[71]] 2) ∧
          Story.Course s 1 0 [1] [[71]] 2 s' starts os ∧ s'.client.find? 0 = none ∧
          .ok .nil ∈ os ∧ marks 0 s'.past =
            [.begun x, .paused (.ofMillis 50), .begun x, .answered (.ok .nil)] := by
  refine ⟨?_, ?_⟩
  · obtain ⟨hexact, -⟩ := retries_exactly.1
      (fun i => if i < 2 then .error (.timeout "slow") else .ok i) 5 firstPause (by decide)
      (by decide)
    exact hexact.result
  · obtain ⟨r, h, -, -, -, hp, hr⟩ := Story.exists_launch_solo
    rw [← Story.soloAt_nil hp] at h
    have ha : (Story.soloAt r [] [] 0 []).Admits (.call 0 [1] [[71]] 2) := ⟨rfl, fun p hp => by
      cases List.mem_singleton.mp hp
      rfl⟩
    obtain ⟨starts, os, hc⟩ := Story.course_soloServed hr
    obtain ⟨es, hes, hf⟩ := retries_exactly.2 h (Nat.zero_le 1) ha (by decide) hc
    have hpast : (Story.soloServed r).past = es := hes
    refine ⟨_, _, starts, os, r.current, h, ha, hc, rfl, hf.answered _ ?_, rfl⟩
    rw [← hpast]
    exact List.mem_of_getElem? (i := 14) rfl

end Shardway.Client
