import Shardway.Proofs.Pool.Closing

/-!
# Connections opened by closed pools

A closed pool opens a connection only for a borrower that was having one tested when the pool was
shut down, and only if that one does not answer.
-/

namespace Shardway.Pool

def Event.dialed? : Event → Option Ticket
  | .told (.connect t) => some t
  | _ => none

/-- The operations for which a connection was to be opened. -/
def dials (past : List Event) : List Ticket := past.filterMap Event.dialed?

@[simp] theorem dials_append (p q : List Event) : dials (p ++ q) = dials p ++ dials q :=
  List.filterMap_append ..

theorem mem_dials {past : List Event} {t : Ticket} : t ∈ dials past ↔ .told (.connect t) ∈ past := by
  simp only [dials, List.mem_filterMap]
  constructor
  · rintro ⟨e, he, h⟩
    rcases e with _ | _ | _ | _ | e
    all_goals try simp [Event.dialed?] at h
    cases e <;> simp_all
  · intro h
    exact ⟨_, h, rfl⟩

variable {p : Pool} {t : Ticket} {link : Link} {now : Nat} {m : Move}

/-- A closed pool opens a connection exactly when one that it has tested for a borrower does not
answer. -/
theorem IsShut.connect_iff (h : p.IsShut) :
    .connect t ∈ (p.step now m).effects ↔
      m = .pinged t false ∧ ∃ link, find? t p.borrows = some (.pinging link) := by
  constructor
  · intro hc
    rcases h.step_cases now m with hs | ⟨u, b, -, hs⟩ | ⟨u, link, rfl, hu, hs⟩
    · exact absurd hc (hs.connect t)
    · exact absurd hc (hs.connect t)
    · rw [hs.effects] at hc
      have ht : t = u := by simpa using hc
      exact ⟨by rw [ht], link, ht ▸ hu⟩
  · rintro ⟨rfl, link, hl⟩
    have hi : (p.reject link).state.idle = [] := h.idle
    simp [step, waiting?_of_borrows hl, Pool.borrowPinged, hl, lend_of_idle_eq_nil hi]

/-- In a closed pool no further connection is tested for a borrower. -/
theorem IsShut.pinging_of_step (h : p.IsShut)
    (hl : find? t (p.step now m).state.borrows = some (.pinging link)) :
    find? t p.borrows = some (.pinging link) := by
  rcases h.step_cases now m with hs | ⟨u, b, -, hs⟩ | ⟨u, k, -, -, hs⟩
  · exact hs.borrows ▸ hl
  · exact eq_some_of_without (hs.borrows ▸ hl)
  · rw [hs.borrows] at hl
    have hu : t ≠ u := by
      rintro rfl
      cases find?_putAt.symm.trans hl
    exact find?_putAt_of_ne hu ▸ hl

namespace Story

variable {node : Node} {tuning : Config.PoolTuning} {s : Story}

theorem told_mem_news {e : Effect} :
    .told e ∈ s.news now m ↔ e ∈ (s.pool.step now m).effects := by
  simp only [news, List.mem_append, mem_tell, told_notMem_inputs, false_or]

/-- A connection that is opened after the pool was closed is for a borrower whose test failed. -/
theorem dialed_of_closed (h : s.pool.IsShut) (ht : t ∈ dials (s.news now m)) :
    dials (s.news now m) = [t] ∧ find? t (s.next now m).pool.borrows = some .connecting ∧
      ∃ link, find? t s.pool.borrows = some (.pinging link) ∧ .silent t ∈ s.news now m ∧
        .told (.close link) ∈ s.news now m := by
  rw [mem_dials, told_mem_news] at ht
  rcases h.step_cases now m with hs | ⟨u, b, -, hs⟩ | ⟨u, link, rfl, hl, hs⟩
  · exact absurd ht (hs.connect t)
  · exact absurd ht (hs.connect t)
  · have hu : t = u := by simpa [hs.effects] using ht
    subst hu
    have hn : s.news now (.pinged t false) =
        [.silent t, .told (.close link), .told (.connect t)] := by
      simp [news, hs.effects, inputs, hand?, waiting?_of_borrows hl, hl]
    have hc : find? t (s.next now (.pinged t false)).pool.borrows = some .connecting :=
      (congrArg (find? t) hs.borrows).trans find?_putAt
    rw [hn]
    exact ⟨rfl, hc, link, hl, by simp, by simp⟩

/-- What a closed pool has opened connections for after some moves. -/
theorem dials_play (h : s.pool.IsShut) (ms : List (Nat × Move)) :
    ∃ es, (s.play ms).past = s.past ++ es ∧ (dials es).Nodup ∧
      (∀ t ∈ dials es, ∃ link, find? t s.pool.borrows = some (.pinging link) ∧ .silent t ∈ es ∧
        .told (.close link) ∈ es) ∧
      ∀ t link, find? t (s.play ms).pool.borrows = some (.pinging link) →
        find? t s.pool.borrows = some (.pinging link) := by
  induction ms generalizing s with
  | nil => exact ⟨[], by simp [play], .nil, by simp [dials], fun _ _ h => h⟩
  | cons x ms ih =>
      obtain ⟨now, m⟩ := x
      obtain ⟨es, he, hn, hd, hp⟩ := ih ((rests_next h now m).shut h)
      have hk (t : Ticket) (link : Link)
          (hl : find? t (s.next now m).pool.borrows = some (.pinging link)) :
          find? t s.pool.borrows = some (.pinging link) := h.pinging_of_step hl
      refine ⟨s.news now m ++ es, he.trans (List.append_assoc ..), ?_, fun t ht => ?_,
        fun t link hl => hk t link (hp t link hl)⟩
      · rw [dials_append]
        refine List.nodup_append'.mpr ⟨?_, hn, fun t ht ht' => ?_⟩
        · cases hx : dials (s.news now m) with
          | nil => exact .nil
          | cons t l =>
              obtain ⟨ht, -⟩ := dialed_of_closed h (t := t) (hx ▸ List.mem_cons_self)
              exact hx ▸ ht ▸ List.nodup_singleton t
        · -- Once it waits for a connection, the borrower has none to be tested.
          obtain ⟨-, hc, -⟩ := dialed_of_closed h ht
          obtain ⟨link, hl, -⟩ := hd t ht'
          cases hc.symm.trans hl
      · rw [dials_append] at ht
        rcases List.mem_append.mp ht with ht | ht
        · obtain ⟨-, -, link, hl, hs, hc⟩ := dialed_of_closed h ht
          exact ⟨link, hl, List.mem_append_left _ hs, List.mem_append_left _ hc⟩
        · obtain ⟨link, hl, hs, hc⟩ := hd t ht
          exact ⟨link, hk t link hl, List.mem_append_right _ hs, List.mem_append_right _ hc⟩

theorem Leads.testOnBorrow (h : Leads (start node tuning) s)
    (hl : find? t s.pool.borrows = some (.pinging link)) : tuning.testOnBorrow = true := by
  induction h with
  | refl => cases hl
  | @next s now m h' hn ha ih =>
      rcases (ha.accepts.course now).pinging t link hl with hl | ht
      · exact ih hl
      · have hq : s.pool.tuning = tuning := h'.tuning_eq kept_start
        exact hq ▸ ht

/-- After a shutdown, connections are opened for none but the borrowers that were having one tested
at that moment, at most one for each, and only when the test fails. All other borrowers without a
connection fail. -/
theorem dials_after_shutdown (h : Leads (start node tuning) s) (now : Nat)
    (ms : List (Nat × Move)) :
    let s' := (s.next now .shutdown).play ms
    (∃ es, s'.past = (s.next now .shutdown).past ++ es ∧ (dials es).Nodup ∧
      (∀ t ∈ dials es, ∃ link, find? t s.pool.borrows = some (.pinging link) ∧ .silent t ∈ es ∧
        .told (.close link) ∈ es) ∧
      (tuning.testOnBorrow = false → dials es = [])) ∧
    (∀ now' m t, .connect t ∈ (s'.pool.step now' m).effects ↔
      m = .pinged t false ∧ ∃ link, find? t s'.pool.borrows = some (.pinging link)) ∧
    ∀ now' t, find? t s'.pool.borrows = some .queued ∨ find? t s'.pool.borrows = some .granted →
      .failed t s'.pool.closedFault ∈ (s'.pool.step now' (.takeUp t)).effects := by
  have h0 : (s.next now .shutdown).pool.IsShut := isShut_shutdown h.drained
  have hs : ((s.next now .shutdown).play ms).pool.IsShut := (rests_play h0 ms).shut h0
  obtain ⟨es, he, hn, hd, -⟩ := dials_play h0 ms
  have hb : (s.next now .shutdown).pool.borrows = s.pool.borrows := shutdown_borrows
  rw [hb] at hd
  refine ⟨⟨es, he, hn, hd, fun ht => ?_⟩, fun _ _ _ => hs.connect_iff, fun now' t ht => ?_⟩
  · refine List.eq_nil_iff_forall_not_mem.mpr fun t hm => ?_
    obtain ⟨link, hl, -⟩ := hd t hm
    exact Bool.false_ne_true (ht.symm.trans (h.testOnBorrow hl))
  · rcases ht with ht | ht <;> simp [step, Pool.takeUp, ht, hs.closed]

/-- The one idle connection is tested for a borrower. -/
def testing : List (Nat × Move) :=
  [(0, .borrow 0), (0, .connected 0 (.ok 0)), (0, .giveBack 1 0 true), (0, .borrow 2)]

theorem dials_after_shutdown_testing :
    let s := (start default { testOnBorrow := true }).play testing
    find? 2 s.pool.borrows = some (.pinging 0) ∧
      .connect 2 ∈ ((s.next 10 .shutdown).pool.step 100 (.pinged 2 false)).effects ∧
      ∃ es, ((s.next 10 .shutdown).play [(100, .pinged 2 false)]).past =
        (s.next 10 .shutdown).past ++ es ∧ (dials es).Nodup := by
  intro s
  have h : Leads (start default { testOnBorrow := true }) s := Plays.leads (by decide)
  obtain ⟨-, hc, -⟩ := dials_after_shutdown h 10 []
  obtain ⟨⟨es, he, hn, -⟩, -⟩ := dials_after_shutdown h 10 [(100, .pinged 2 false)]
  exact ⟨by decide, (hc 100 _ 2).mpr ⟨rfl, 0, by decide⟩, es, he, hn⟩

/-- It is not so that a closed pool opens no connection. -/
theorem not_dials_eq_nil_testing :
    ¬∀ tuning s now ms, Leads (start default tuning) s → s.now ≤ now →
      (s.next now .shutdown).Plays ms → ∀ es,
      ((s.next now .shutdown).play ms).past = (s.next now .shutdown).past ++ es → dials es = [] := by
  intro h
  have hs : Leads (start default { testOnBorrow := true })
      ((start default { testOnBorrow := true }).play testing) := Plays.leads (by decide)
  have := h _ _ 10 [(100, .pinged 2 false)] hs (by decide) (by decide)
    [.silent 2, .told (.close 0), .told (.connect 2)] (by decide)
  cases this

end Story
end Shardway.Pool
