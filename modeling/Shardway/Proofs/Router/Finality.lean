import Shardway.Proofs.Router.Serial
import Shardway.Proofs.Topology.Progress

/-!
# What comes after a shutdown

A shutdown is final. All refreshes that are in progress then, and all that come later, fail; and they
do come to their ends.
-/

namespace Shardway

/-- How many moves a refresh can still wait for. -/
def RefreshStage.work (sets : List ReplicaSet) : RefreshStage → Nat
  | .waiting => (Round.start sets).state.work + 2
  | .probing round => round.work + 1

namespace Router

def work (r : Router) : Nat := (r.refreshes.map fun e => e.2.work r.sets).sum

/-- The first refresh waits for the move: it has its turn, or its round has a verdict, or the member
that answers is still to be heard. -/
def awaits (r : Router) : Move → Bool
  | .resume t =>
    match r.refreshes with
    | (u, .waiting) :: _ => u = t
    | (u, .probing round) :: _ => u = t && round.isReady
    | [] => false
  | .probed t i j _ =>
    match r.refreshes with
    | (u, .probing round) :: _ => u = t && round.awaits i j
    | _ => false
  | _ => false

/-- Why a refresh fails after the shutdown: its own round has broken off, or the router is closed. -/
inductive Denied (past : List Event) (t : Ticket) : Fault → Prop
  | broken {i : Nat} {reason : String} :
      .broke t i reason ∈ past → Denied past t (Round.brokenOffFault reason)
  | shutdown : Denied past t .shutdown

/-- The rounds in progress are not over, and none has broken off by itself. -/
def Underway (past : List Event) (r : Router) : Prop :=
  ∀ t round, (t, .probing round) ∈ r.refreshes →
    round.Ongoing r.sets ∧
      ∀ reason, .brokenOff reason ∈ round.verdicts → ∃ i, .broke t i reason ∈ past

/-- What the events `es` mean for the refreshes of a router that is closed by then: no index is put
in place, those that end fail, and the others are still in progress or were given up. -/
structure Denies (past : List Event) (r : Router) (es : List Event) (r' : Router) : Prop where
  closed : r'.closed = true
  renewals : renewals es = []
  failed : ∀ t result, .told (.refreshed t result) ∈ es →
    ∃ f, result = .error f ∧ Denied (past ++ es) t f
  ended : ∀ t ∈ r.refreshes.map (·.1), t ∈ r'.refreshes.map (·.1) ∨
    (∃ f, .told (.refreshed t (.error f)) ∈ es) ∨ .left t ∈ es
  work : r'.work ≤ r.work

variable {config : Config.Cluster} {past es es' : List Event} {r r' r'' : Router} {t : Ticket}
  {rest : List (Ticket × RefreshStage)} {round : Round} {now : Nat}

/-! ## Rounds in progress -/

theorem Underway.sub (h : Underway past r) (hs : r'.sets = r.sets)
    (hr : ∀ t round, (t, .probing round) ∈ r'.refreshes → (t, .probing round) ∈ r.refreshes) :
    Underway (past ++ es) r' := by
  intro t round ht
  obtain ⟨ho, hb⟩ := h t round (hr t round ht)
  refine ⟨hs ▸ ho, fun reason hm => ?_⟩
  obtain ⟨i, hi⟩ := hb reason hm
  exact ⟨i, List.mem_append_left _ hi⟩

theorem Underway.cons (h : Underway past r) {x : RefreshStage} (hr : r.refreshes = (t, x) :: rest)
    (ho : round.Ongoing r.sets)
    (hb : ∀ reason, .brokenOff reason ∈ round.verdicts → ∃ i, .broke t i reason ∈ past ++ es) :
    Underway (past ++ es) { r with refreshes := (t, .probing round) :: rest } := by
  intro u y hu
  rcases List.mem_cons.mp hu with hu | hu
  · cases hu
    exact ⟨ho, hb⟩
  · have hs : Underway (past ++ es) { r with refreshes := rest } :=
      h.sub rfl fun v z hv => hr ▸ List.mem_cons_of_mem _ hv
    exact hs u y hu

theorem Underway.turn (h : Underway past r) (ht : Story.Turn past r es r') : Underway (past ++ es) r' := by
  cases ht with
  | idle _ => exact h.sub rfl fun _ _ hu => hu
  | other hs hr _ _ _ => exact h.sub hs fun _ _ hu => hr ▸ hu
  | queue _ _ => exact h.sub rfl fun _ _ hu => by simpa using hu
  | refuse _ => exact h.sub rfl fun _ _ hu => hu
  | begin hr =>
      exact h.cons hr (Round.ongoing_start _) fun _ hm => absurd hm Round.brokenOff_notMem_start
  | @hear t round rest i j role hr =>
      obtain ⟨ho, hb⟩ := h t round (hr ▸ List.mem_cons_self)
      refine h.cons hr ho.answer fun reason hm => ?_
      obtain ⟨k, hk⟩ := hb reason (Round.brokenOff_of_answer hm)
      exact ⟨k, List.mem_append_left _ hk⟩
  | @breakOff t round rest i reason hr =>
      obtain ⟨ho, hb⟩ := h t round (hr ▸ List.mem_cons_self)
      refine h.cons hr ho.breakOff fun why hm => ?_
      rcases Round.mem_of_breakOff hm with hm | rfl
      · obtain ⟨k, hk⟩ := hb why hm
        exact ⟨k, List.mem_append_left _ hk⟩
      · exact ⟨i, List.mem_append_right _ List.mem_cons_self⟩
  | @count t round rest hr hc =>
      obtain ⟨ho, -⟩ := h t round (hr ▸ List.mem_cons_self)
      exact h.cons hr (ho.collect hc) fun _ hm => by simp [Round.collect] at hm
  | fail hr _ => exact h.sub rfl fun _ _ hu => hr ▸ List.mem_cons_of_mem _ hu
  | renew _ hr _ hs hr' _ _ _ =>
      refine h.sub hs fun _ _ hu => ?_
      rw [hr'] at hu
      exact hr ▸ List.mem_cons_of_mem _ hu
  | leave hs _ => exact h.sub rfl fun _ _ hu => hs.subset hu

/-- A round in progress has no other fault than that it has broken off by itself. -/
theorem Underway.broken {f : Fault} (h : Underway past r)
    (hr : r.refreshes = (t, .probing round) :: rest) (hc : round.collect.2 = some (.error f)) :
    ∃ i reason, f = Round.brokenOffFault reason ∧ .broke t i reason ∈ past := by
  obtain ⟨reason, rfl, hm⟩ := Round.fault_of_collect hc
  obtain ⟨i, hi⟩ := (h t round (hr ▸ List.mem_cons_self)).2 reason hm
  exact ⟨i, reason, rfl, hi⟩

/-! ## Turns of a closed router -/

theorem work_cons {x : RefreshStage} (hr : r.refreshes = (t, x) :: rest) :
    r.work = x.work r.sets + (rest.map fun e => e.2.work r.sets).sum := by
  rw [work, hr, List.map_cons, List.sum_cons]

theorem Denied.mono {f : Fault} (h : Denied past t f) (hs : past ⊆ es) : Denied es t f := by
  cases h with
  | broken hi => exact .broken (hs hi)
  | shutdown => exact .shutdown

theorem Denies.trans (h : Denies past r es r') (h' : Denies (past ++ es) r' es' r'') :
    Denies past r (es ++ es') r'' where
  closed := h'.closed
  renewals := by rw [renewals_append, h.renewals, h'.renewals, List.append_nil]
  failed := fun t result ht => by
    rw [← List.append_assoc]
    rcases List.mem_append.mp ht with ht | ht
    · obtain ⟨f, rfl, hf⟩ := h.failed t result ht
      exact ⟨f, rfl, hf.mono (List.subset_append_left _ _)⟩
    · exact h'.failed t result ht
  ended := fun t ht => by
    rcases h.ended t ht with ht | ⟨f, hf⟩ | hl
    · rcases h'.ended t ht with ht | ⟨f, hf⟩ | hl
      · exact .inl ht
      · exact .inr (.inl ⟨f, List.mem_append_right _ hf⟩)
      · exact .inr (.inr (List.mem_append_right _ hl))
    · exact .inr (.inl ⟨f, List.mem_append_left _ hf⟩)
    · exact .inr (.inr (List.mem_append_left _ hl))
  work := Nat.le_trans h'.work h.work

theorem denies_of_idle (he : ∀ e ∈ es, e.IsIdle) (hc : r'.closed = true) (hs : r'.sets = r.sets)
    (hr : r'.refreshes = r.refreshes) : Denies past r es r' where
  closed := hc
  renewals := by
    refine List.filterMap_eq_nil_iff.mpr fun e hm => ?_
    cases e with
    | renewed => exact (he _ hm).elim
    | _ => rfl
  failed := fun t result ht => (he _ ht).elim
  ended := fun t ht => .inl (hr ▸ ht)
  work := by rw [work, work, hs, hr]

theorem denies_cons {x y : RefreshStage} (hr : r.refreshes = (t, x) :: rest)
    (hc : r.closed = true) (he : renewals es = []) (hf : ∀ u result, .told (.refreshed u result) ∉ es)
    (hw : y.work r.sets ≤ x.work r.sets) :
    Denies past r es { r with refreshes := (t, y) :: rest } where
  closed := hc
  renewals := he
  failed := fun u result hu => absurd hu (hf u result)
  ended := fun u hu => .inl (by simpa [hr] using hu)
  work := by
    rw [work_cons hr, work_cons (r := { r with refreshes := (t, y) :: rest }) rfl]
    exact Nat.add_le_add_right hw _

theorem Underway.denies (h : Underway past r) (hc : r.closed = true) (ht : Story.Turn past r es r') :
    Denies past r es r' := by
  cases ht with
  | idle he => exact denies_of_idle (by simpa using he) hc rfl rfl
  | other hs hr _ _ ho => exact denies_of_idle (by simp) (ho hc) hs hr
  -- A closed router takes no refresh up, and none succeeds.
  | queue ho _ => exact absurd (hc.symm.trans ho) (by simp)
  | renew ho => exact absurd (hc.symm.trans ho) (by simp)
  | @refuse t _ =>
      refine ⟨hc, rfl, fun u result hu => ?_, fun u hu => .inl hu, Nat.le_refl _⟩
      have hu : u = t ∧ result = .error .shutdown := by simpa using hu
      exact ⟨_, hu.2, .shutdown⟩
  | begin hr => exact denies_cons hr hc rfl (by simp) (Nat.le_succ _)
  | @hear t round rest i j role hr =>
      refine denies_cons hr hc rfl (by simp) ?_
      have hw : (round.answer i j role).state.work + (round.awaits i j).toNat = round.work :=
        Round.work_answer
      simp only [RefreshStage.work]
      omega
  | breakOff hr =>
      exact denies_cons hr hc rfl (by simp) (Nat.succ_le_succ Round.work_breakOff)
  | @count t round rest hr _ =>
      refine denies_cons hr hc rfl (by simp) ?_
      have hw : round.collect.1.state.work + round.verdicts.length = round.work :=
        Round.work_collect
      simp only [RefreshStage.work]
      omega
  | @fail t round rest f hr hf =>
      refine ⟨hc, rfl, fun u result hu => ?_, fun u hu => ?_, ?_⟩
      · have hu : u = t ∧ result = .error f := by simpa using hu
        obtain ⟨rfl, rfl⟩ := hu
        refine ⟨f, rfl, ?_⟩
        cases hf with
        | closed _ _ => exact .shutdown
        | broken hb =>
            obtain ⟨i, reason, rfl, hi⟩ := h.broken hr hb
            exact .broken (List.mem_append_left _ hi)
      · rw [hr, List.map_cons] at hu
        rcases List.mem_cons.mp hu with rfl | hu
        · exact .inr (.inl ⟨f, List.mem_cons_self⟩)
        · exact .inl hu
      · rw [work_cons hr]
        exact Nat.le_add_left _ _
  | @leave t refreshes hs hl =>
      refine ⟨hc, rfl, by simp, fun u hu => ?_, (hs.map _).sum_le_sum (by simp)⟩
      obtain ⟨e, he, rfl⟩ := List.mem_map.mp hu
      by_cases hn : e.1 = t
      · exact .inr (.inr (hn ▸ List.mem_cons_self))
      · exact .inl (List.mem_map_of_mem (hl e he hn))

/-! ## Moves that are awaited -/

theorem exists_awaits (h : Underway past r) (hs : (r.sets.map (·.id)).Pairwise (· < ·))
    (hr : r.refreshes ≠ []) :
    ∃ t, r.awaits (.resume t) = true ∨ ∃ i j, ∀ role, r.awaits (.probed t i j role) = true := by
  obtain ⟨⟨t, x⟩, rest, hr⟩ := List.exists_cons_of_ne_nil hr
  refine ⟨t, ?_⟩
  cases x with
  | waiting => exact .inl (by simp [awaits, hr])
  | probing round =>
      have ho := (h t round (hr ▸ List.mem_cons_self)).1
      rcases ho.isReady_or_awaits hs with hi | ⟨i, j, hj⟩
      · exact .inl (by simp [awaits, hr, hi])
      · exact .inr ⟨i, j, fun role => by simp [awaits, hr, hj]⟩

theorem resume_of_probing (hr : r.refreshes = (t, .probing round) :: rest)
    (ht : (r.refreshes.map (·.1)).Nodup) :
    (r.resume t).state.sets = r.sets ∧ ((r.resume t).state.refreshes = rest ∨
      round.collect.2 = none ∧
        (r.resume t).state.refreshes = (t, .probing round.collect.1.state) :: rest) := by
  rcases hc : round.collect with ⟨collected, outcome⟩
  simp only [Router.resume, hr, if_true, hc]
  rw [Story.setStage_eq _ hr ht]
  cases outcome with
  | none => exact ⟨rfl, .inr ⟨rfl, rfl⟩⟩
  | some result =>
      cases result with
      | error f =>
          rw [Reaction.andThen_state, endRefresh_state]
          exact ⟨rfl, .inl rfl⟩
      | ok resolved =>
          obtain ⟨hs, hf, -⟩ := install_frame resolved
            { r with refreshes := (t, .probing collected.state) :: rest }
          rw [Reaction.andThen_state, Reaction.andThen_state, endRefresh_state]
          exact ⟨hs, .inl (congrArg List.tail hf)⟩

theorem work_resume_lt (h : Underway past r) (ht : (r.refreshes.map (·.1)).Nodup)
    (ha : r.awaits (.resume t) = true) : (r.resume t).state.work < r.work := by
  cases hr : r.refreshes with
  | nil => simp [awaits, hr] at ha
  | cons e rest =>
      obtain ⟨u, x⟩ := e
      cases x with
      | waiting =>
          obtain rfl : u = t := by simpa [awaits, hr] using ha
          have hb : (r.resume u).state =
              { r with refreshes := (u, .probing (Round.start r.sets).state) :: rest } := by
            simp only [Router.resume, hr, if_true, Router.beginRound, Story.setStage_eq _ hr ht]
          rw [hb, work_cons hr, work_cons (r := { r with refreshes := _ :: rest }) rfl]
          exact Nat.add_lt_add_right (Nat.lt_succ_self _) _
      | probing round =>
          obtain ⟨rfl, hready⟩ : u = t ∧ round.isReady = true := by simpa [awaits, hr] using ha
          obtain ⟨hs, hf | ⟨hn, hf⟩⟩ := resume_of_probing hr ht
          · rw [work_cons hr, work, hs, hf]
            simp [RefreshStage.work]
          · rw [work_cons hr, work_cons hf, hs]
            have ho := (h u round (hr ▸ List.mem_cons_self)).1
            have hw := Round.work_collect (r := round)
            have hv := ho.verdicts_ne_nil hready hn
            have hv : 0 < round.verdicts.length := List.length_pos_of_ne_nil hv
            simp only [RefreshStage.work]
            omega

theorem work_probed_lt {i j : Nat} {role : Role} (ht : (r.refreshes.map (·.1)).Nodup)
    (ha : r.awaits (.probed t i j role) = true) : (r.probed t i j role).state.work < r.work := by
  cases hr : r.refreshes with
  | nil => simp [awaits, hr] at ha
  | cons e rest =>
      obtain ⟨u, x⟩ := e
      cases x with
      | waiting => simp [awaits, hr] at ha
      | probing round =>
          obtain ⟨rfl, hj⟩ : u = t ∧ round.awaits i j = true := by simpa [awaits, hr] using ha
          have hp : (r.probed u i j role).state =
              { r with refreshes := (u, .probing (round.answer i j role).state) :: rest } := by
            simp only [probed, Router.onRound, hr, if_true, Story.setStage_eq _ hr ht]
          have hw : (round.answer i j role).state.work + (round.awaits i j).toNat = round.work :=
            Round.work_answer
          rw [hj, Bool.toNat_true] at hw
          rw [hp, work_cons hr, work_cons (r := { r with refreshes := _ :: rest }) rfl]
          simp only [RefreshStage.work]
          omega

theorem work_step_lt {m : Move} (now : Nat) (h : Underway past r) (ht : (r.refreshes.map (·.1)).Nodup)
    (ha : r.awaits m = true) : (r.step now m).state.work < r.work := by
  cases m with
  | resume t => exact work_resume_lt h ht ha
  | probed t i j role => exact work_probed_lt ht ha
  | _ => cases ha

/-! ## Stories -/

namespace Story

/-- A story goes on, with so many moves, or more, that were awaited when they came. -/
inductive Goes (s : Story) : Nat → Story → Prop
  | refl : Goes s 0 s
  | next {s' : Story} {n : Nat} {m : Move} (now : Nat) :
      Goes s n s' → s'.Admits m → Goes s n (s'.next now m)
  | awaited {s' : Story} {n : Nat} {m : Move} (now : Nat) :
      Goes s n s' → s'.Admits m → s'.router.awaits m = true → Goes s (n + 1) (s'.next now m)

variable {s s' : Story} {m : Move} {n : Nat}

theorem Goes.leads (h : Goes s n s') : Leads s s' := by
  induction h with
  | refl => exact .refl
  | next now _ ha ih => exact ih.next now ha
  | awaited now _ ha _ ih => exact ih.next now ha

theorem underway_turns (h : Underway past r) (ht : Turns past r es r') : Underway (past ++ es) r' := by
  induction ht with
  | refl => rwa [List.append_nil]
  | tail _ ht ih =>
      rw [← List.append_assoc]
      exact ih.turn ht

theorem denies_turns (h : Underway past r) (hc : r.closed = true) (ht : Turns past r es r') :
    Denies past r es r' := by
  induction ht with
  | refl => exact denies_of_idle (by simp) hc rfl rfl
  | tail ht ht' ih => exact ih.trans ((underway_turns h ht).denies ih.closed ht')

theorem Runs.underway (h : Runs config s) : Underway s.past s.router := by
  induction h with
  | launch _ _ _ hs =>
      intro t round hm
      rw [refreshes_ofResolved hs] at hm
      cases hm
  | next now h ha ih => exact underway_turns ih (turns_next h.reachable h.serial.1.tickets ha now)

theorem Runs.denies (h : Runs config s) (hc : s.router.closed = true) (ha : s.Admits m)
    (now : Nat) : Denies s.past s.router (s.news now m) (s.next now m).router :=
  denies_turns h.underway hc (turns_next h.reachable h.serial.1.tickets ha now)

theorem denies_shutdown (s : Story) (now : Nat) :
    Denies s.past s.router (s.news now .shutdown) (s.next now .shutdown).router := by
  have hr : (s.router.shutdown now).state.sets = s.router.sets ∧
      (s.router.shutdown now).state.refreshes = s.router.refreshes := by
    unfold Router.shutdown
    split <;> exact ⟨rfl, rfl⟩
  exact denies_of_idle idle_shutdown (closed_shutdown _ now) hr.1 hr.2

theorem Leads.denies (h : Runs config s) (hl : Leads (s.next now .shutdown) s') :
    ∃ es, s'.past = s.past ++ es ∧ Denies s.past s.router es s'.router := by
  have h1 : Runs config (s.next now .shutdown) := h.next now trivial
  induction hl with
  | refl => exact ⟨_, rfl, denies_shutdown s now⟩
  | @next s' m now' hl ha ih =>
      obtain ⟨es, he, hd⟩ := ih
      refine ⟨es ++ s'.news now' m, by simp [Story.next, he], hd.trans ?_⟩
      rw [← he]
      exact (h1.leads hl).denies hd.closed ha now'

theorem Leads.rests (h : Runs config s) (hc : s.router.closed = true) (hl : Leads s s') :
    Rests s.router s'.router := by
  induction hl with
  | refl => exact .refl
  | next now hl _ ih =>
      exact ih.trans ((h.leads hl).reachable.rests_step (ih.closed.trans hc) now _)

theorem Goes.work_le (h : Runs config s) (hc : s.router.closed = true) (hg : Goes s n s') :
    n + s'.router.work ≤ s.router.work := by
  induction hg with
  | refl => exact Nat.le_of_eq (Nat.zero_add _)
  | next now hg ha ih =>
      have h' := h.leads hg.leads
      have hw := (h'.denies ((hg.leads.rests h hc).closed.trans hc) ha now).work
      omega
  | awaited now hg ha hm ih =>
      have h' := h.leads hg.leads
      have hw := work_step_lt now h'.underway h'.serial.1.tickets hm
      simp only [Story.next]
      omega

/-- The shutdown of a router is final, whatever is in progress and whatever comes later: the registered
pools are closed for good, none is registered or opened any more, the index and the generation stay
as they are, and nothing is routed. No refresh puts an index in place any more. Each that ends has
failed: its own round had broken off, or it found the router closed. Those that were in progress have
failed, or were given up, or are still in progress; and as long as one is, there is a move that it
waits for. There are not more such moves than there was work left, so all of them end. -/
theorem closed_for_good (h : Runs config s) (hg : Goes (s.next now .shutdown) n s') :
    ClosedDown s.router s'.router ∧
      (∃ es, s'.past = s.past ++ es ∧ renewals es = [] ∧
        (∀ t result, .told (.refreshed t result) ∈ es →
          ∃ f, result = .error f ∧ Denied s'.past t f) ∧
        ∀ t ∈ s.router.refreshes.map (·.1), t ∈ s'.router.refreshes.map (·.1) ∨
          (∃ f, .told (.refreshed t (.error f)) ∈ es) ∨ .left t ∈ es) ∧
      n ≤ s.router.work ∧
      (s'.router.refreshes ≠ [] → ∃ t, s'.router.awaits (.resume t) = true ∨
        ∃ i j, ∀ role, s'.router.awaits (.probed t i j role) = true) := by
  have h1 : Runs config (s.next now .shutdown) := h.next now trivial
  have h' := h1.leads hg.leads
  have hc : (s.next now .shutdown).router.closed = true := closed_shutdown _ now
  obtain ⟨es, he, hd⟩ := hg.leads.denies h
  have hq := h.reachable.closedDown (hg.leads.rests h1 hc)
  refine ⟨hq, ⟨es, he, hd.renewals, he ▸ hd.failed, hd.ended⟩, ?_, fun hr => ?_⟩
  · have hw := hg.work_le h1 hc
    have hs := (denies_shutdown s now).work
    omega
  · refine exists_awaits h'.underway ?_ hr
    rw [h'.reachable.steady.sets]
    exact ReplicaSet.pairwise_ofNodes _

/-- How many of these moves are awaited when they come. -/
def heeded (s : Story) : List (Nat × Move) → Nat
  | [] => 0
  | (now, m) :: ms => (s.router.awaits m).toNat + (s.next now m).heeded ms

theorem Goes.play {ms : List (Nat × Move)} (h : Goes s n s')
    (hm : ∀ x ∈ ms, ∀ t, x.2 ≠ .refresh t) : Goes s (n + s'.heeded ms) (s'.play ms) := by
  induction ms generalizing s' n with
  | nil => exact h
  | cons x ms ih =>
      obtain ⟨now, m⟩ := x
      obtain ⟨hx, hms⟩ := List.forall_mem_cons.mp hm
      have ha : s'.Admits m := by
        cases m with
        | refresh t => exact absurd rfl (hx t)
        | _ => trivial
      rw [heeded, ← Nat.add_assoc]
      refine ih ?_ hms
      cases hw : s'.router.awaits m with
      | false => exact h.next now ha
      | true => exact h.awaited now ha hw

/-- One refresh probes and another one waits for its turn. -/
def crowded (r : Router) : Story := (twofold r).next 1 (.probed 0 1 0 .master)

/-- The first refresh probes to its end, and the second one breaks off. -/
def closingTime : List (Nat × Move) :=
  [(3, .probed 0 0 0 .master), (3, .resume 0), (4, .resume 1), (5, .brokeOff 1 0 "task 9 panicked"),
    (5, .resume 1)]

/-- The refreshes that have failed, and how. -/
def failures (past : List Event) : List (Ticket × Fault) :=
  past.filterMap fun
    | .told (.refreshed t (.error f)) => some (t, f)
    | _ => none

theorem closed_for_good_pair :
    ∃ s s', Runs pair s ∧ s.router.refreshes.map (·.1) = [0, 1] ∧
      Goes (s.next 2 .shutdown) 4 s' ∧ s'.router.refreshes = [] ∧
      failures s'.past = [(0, .shutdown), (1, Round.brokenOffFault "task 9 panicked")] ∧
      ClosedDown s.router s'.router ∧ 4 ≤ s.router.work := by
  obtain ⟨started, told, hs, ht⟩ := exists_twofold
  have h : Runs pair (crowded started) := ht.next 1 (m := .probed 0 1 0 .master) trivial
  let s' (r : Router) := ((crowded r).next 2 .shutdown).play closingTime
  have hr : (ofResolved pair false pairGroups).1.toOption.map (fun r =>
      ((crowded r).router.refreshes.map (·.1),
        ((crowded r).next 2 .shutdown).heeded closingTime, (s' r).router.refreshes,
        failures (s' r).past)) =
      some ([0, 1], 4, [], [(0, .shutdown), (1, Round.brokenOffFault "task 9 panicked")]) := by cbv
  rw [hs] at hr
  have hr := Option.some.inj hr
  simp only [Prod.mk.injEq] at hr
  obtain ⟨hw, hn, he, hf⟩ := hr
  have hg : Goes ((crowded started).next 2 .shutdown) 4 (s' started) := by
    have hp : Goes ((crowded started).next 2 .shutdown)
        (0 + ((crowded started).next 2 .shutdown).heeded closingTime) (s' started) :=
      Goes.refl.play (by simp [closingTime])
    rwa [hn] at hp
  obtain ⟨hc, -, hl, -⟩ := closed_for_good h hg
  exact ⟨_, _, h, hw, hg, he, hf, hc, hl⟩

end Story

end Router

end Shardway
