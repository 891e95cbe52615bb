import Shardway.Proofs.Topology.Answers
import Mathlib.Algebra.GroupWithZero.Nat

/-!
# Progress of a round

A round that is not over waits for some member, or has a verdict to count. Whatever it waits for
brings it nearer to its end, and nothing takes it further away.
-/

namespace Shardway

/-- How many members of a group are still to be heard, and one for its verdict. -/
def Poll.work (p : Poll) : Nat := if p.closed then 0 else p.roles.count none + 1

namespace Round

/-- How many answers and verdicts there can still be, and how many verdicts are to be counted. -/
def work (r : Round) : Nat := (r.polls.map Poll.work).sum + r.verdicts.length

/-- The member `j` of the group at place `i` is still to be heard. -/
def awaits (i j : Nat) (r : Round) : Bool :=
  match r.polls[i]? with
  | none => false
  | some p => !p.closed && p.roles[j]? = some none

/-- The group of every closed poll was counted, or has a verdict that is to be counted. -/
def Counts (r : Round) : Prop :=
  ∀ p ∈ r.polls, p.closed = true →
    p.set.id ∈ r.resolved.map (·.id) ∨ ∃ g, .elected g ∈ r.verdicts ∧ g.id = p.set.id

/-- A round of these groups that is not over. -/
structure Ongoing (sets : List ReplicaSet) (r : Round) : Prop where
  sane : r.Sane sets
  pending : ∀ i, r.PendingAt i
  counts : (∃ reason, .brokenOff reason ∈ r.verdicts) ∨ r.Counts
  short : r.polls ≠ [] → r.resolved.length < r.polls.length

variable {sets : List ReplicaSet} {r : Round} {i j k : Nat} {role : Role}
  {reason : String}

/-! ## Verdicts -/

theorem mem_close_verdicts {v : Verdict} (h : v ∈ r.verdicts) : v ∈ (r.close i).state.verdicts := by
  rcases r.close_cases i with ⟨hs, -⟩ | ⟨p, roles, -, hc⟩
  · rwa [hs]
  · rw [hc.state]
    exact List.mem_append_left _ h

theorem mem_verdicts_of_close {v : Verdict} (h : v ∈ (r.close i).state.verdicts)
    (hv : ∀ g, v ≠ .elected g) : v ∈ r.verdicts := by
  rcases r.close_cases i with ⟨hs, -⟩ | ⟨p, roles, -, hc⟩
  · rwa [hs] at h
  · rw [hc.state] at h
    rcases List.mem_append.mp h with h | h
    · exact h
    · exact absurd (List.mem_singleton.mp h) (hv _)

theorem brokenOff_of_answer (h : .brokenOff reason ∈ (r.answer i j role).state.verdicts) :
    .brokenOff reason ∈ r.verdicts :=
  mem_verdicts_of_close (r := r.hear i j role) h (by simp)

theorem brokenOff_of_closeAll {n : Nat}
    (h : .brokenOff reason ∈ (closeAll n r).state.verdicts) : .brokenOff reason ∈ r.verdicts := by
  induction n with
  | zero => exact h
  | succ n ih => exact ih (mem_verdicts_of_close h (by simp))

theorem brokenOff_notMem_start : .brokenOff reason ∉ (start sets).state.verdicts := by
  intro h
  cases brokenOff_of_closeAll h

theorem mem_of_breakOff {why : String}
    (h : .brokenOff why ∈ (r.breakOff i reason).verdicts) :
    .brokenOff why ∈ r.verdicts ∨ why = reason := by
  rcases r.breakOff_cases i reason with hs | ⟨p, hc⟩
  · exact .inl (hs ▸ h)
  · rw [hc.state] at h
    refine (List.mem_append.mp h).imp_right fun hm => ?_
    cases List.mem_singleton.mp hm
    rfl

/-! ## Counting -/

theorem mem_count {verdicts : List Verdict} {resolved : List ResolvedGroup} {g : GroupId}
    (hb : ∀ reason, .brokenOff reason ∉ verdicts)
    (h : g ∈ resolved.map (·.id) ∨ ∃ x, .elected x ∈ verdicts ∧ x.id = g) :
    g ∈ (count verdicts resolved).1.map (·.id) := by
  induction verdicts generalizing resolved with
  | nil =>
      rcases h with h | ⟨x, hx, -⟩
      · exact h
      · cases hx
  | cons v verdicts ih =>
      cases v with
      | brokenOff reason => exact absurd List.mem_cons_self (hb reason)
      | elected y =>
          refine ih (fun reason hm => hb reason (List.mem_cons_of_mem _ hm)) ?_
          rw [map_id_insert, mem_addId]
          rcases h with h | ⟨x, hx, rfl⟩
          · exact .inl (.inr h)
          · rcases List.mem_cons.mp hx with hx | hx
            · cases hx
              exact .inl (.inl rfl)
            · exact .inr ⟨x, hx, rfl⟩

theorem fault_of_collect {f : Fault} (h : r.collect.2 = some (.error f)) :
    ∃ reason, f = brokenOffFault reason ∧ .brokenOff reason ∈ r.verdicts := by
  have hc := r.collect_outcome
  rw [h] at hc
  cases hc with
  | broken hb => exact ⟨_, rfl, hb⟩

theorem collect_eq_none (h : r.collect.2 = none) :
    (∀ reason, .brokenOff reason ∉ r.verdicts) ∧
      r.collect.1.state.resolved.length ≠ r.polls.length := by
  have hc := r.collect_outcome
  rw [h] at hc
  cases hc with
  | ongoing hb hl => exact ⟨hb, hl⟩

/-! ## Rounds that are not over -/

theorem ClosesWith.pendingAt {p : Poll} {v : Verdict} {r' : Round} (h : ClosesWith i p v r r')
    (hk : k ≠ i → r.PendingAt k) : r'.PendingAt k := by
  rw [h.state]
  intro q hq ho
  by_cases hki : k = i
  · subst hki
    rw [List.getElem?_set_self (List.getElem?_eq_some_iff.mp h.poll).1] at hq
    cases hq
    cases ho
  · rw [List.getElem?_set_ne (Ne.symm hki)] at hq
    exact hk hki q hq ho

theorem pendingAt_close (hk : k ≠ i → r.PendingAt k) : (r.close i).state.PendingAt k := by
  rcases r.close_cases i with ⟨hs, hi⟩ | ⟨p, roles, -, hc⟩
  · rw [hs]
    by_cases hki : k = i
    · exact hki ▸ hi
    · exact hk hki
  · exact hc.pendingAt hk

theorem pendingAt_closeAll {n : Nat} (hk : n ≤ k → r.PendingAt k) :
    (closeAll n r).state.PendingAt k := by
  induction n with
  | zero => exact hk (Nat.zero_le k)
  | succ n ih => exact pendingAt_close fun hn => ih fun hl => hk (by omega)

theorem Counts.close (h : r.Counts) : (r.close i).state.Counts := by
  rcases r.close_cases i with ⟨hs, -⟩ | ⟨p, roles, -, hc⟩
  · rwa [hs]
  · rw [hc.state]
    intro q hq ho
    rcases List.mem_or_eq_of_mem_set hq with hq | rfl
    · refine (h q hq ho).imp_right fun ⟨x, hx, hi⟩ => ?_
      exact ⟨x, List.mem_append_left _ hx, hi⟩
    · exact .inr ⟨elect p.set roles, List.mem_append_right _ List.mem_cons_self, rfl⟩

theorem Counts.closeAll (n : Nat) (h : r.Counts) : (Round.closeAll n r).state.Counts := by
  induction n with
  | zero => exact h
  | succ n ih => exact ih.close

theorem close_resolved : (r.close i).state.resolved = r.resolved := by
  rcases r.close_cases i with ⟨hs, -⟩ | ⟨p, roles, -, hc⟩
  · rw [hs]
  · rw [hc.state]

theorem close_length : (r.close i).state.polls.length = r.polls.length := by
  rcases r.close_cases i with ⟨hs, -⟩ | ⟨p, roles, -, hc⟩
  · rw [hs]
  · rw [hc.state, List.length_set]

theorem ongoing_start (sets : List ReplicaSet) : Ongoing sets (start sets).state := by
  have hr (n : Nat) (r : Round) : (closeAll n r).state.resolved = r.resolved := by
    induction n with
    | zero => rfl
    | succ n ih => exact close_resolved.trans ih
  refine ⟨sane_start sets, fun i => ?_, .inr ?_, fun hp => ?_⟩
  · -- All places are looked at once, so none is left that could be closed.
    refine pendingAt_closeAll fun hl p hp => ?_
    have hi := (List.getElem?_eq_some_iff.mp hp).1
    rw [List.length_map] at hi
    omega
  · refine Counts.closeAll _ fun p hp ho => ?_
    obtain ⟨set, -, rfl⟩ := List.mem_map.mp hp
    cases ho
  · rw [start, hr]
    exact List.length_pos_of_ne_nil hp

theorem pendingAt_hear (hk : k ≠ i) (h : r.PendingAt k) : (r.hear i j role).PendingAt k := by
  rcases r.hear_cases i j role with ⟨hs, -⟩ | ⟨p, -, -, hs⟩
  · rwa [hs]
  · rw [hs]
    intro q hq ho
    rw [List.getElem?_set_ne (Ne.symm hk)] at hq
    exact h q hq ho

theorem Counts.hear (h : r.Counts) : (r.hear i j role).Counts := by
  rcases r.hear_cases i j role with ⟨hs, -⟩ | ⟨p, -, ho, hs⟩
  · rwa [hs]
  · rw [hs]
    intro q hq hc
    rcases List.mem_or_eq_of_mem_set hq with hq | rfl
    · exact h q hq hc
    · exact absurd (hc.symm.trans ho) (by simp)

theorem Ongoing.answer (h : Ongoing sets r) : Ongoing sets (r.answer i j role).state := by
  have hl : (r.answer i j role).state.polls.length = r.polls.length :=
    close_length.trans (List.length_modify ..)
  refine ⟨h.sane.answer, fun k => ?_, ?_, fun hp => ?_⟩
  · rw [answer_eq]
    exact pendingAt_close fun hk => pendingAt_hear hk (h.pending k)
  · rcases h.counts with ⟨reason, hb⟩ | hc
    · exact .inl ⟨reason, mem_close_verdicts (r := r.hear i j role) hb⟩
    · rw [answer_eq]
      exact .inr hc.hear.close
  · rw [hl, answer_eq, close_resolved]
    refine h.short fun hn => hp (List.eq_nil_of_length_eq_zero ?_)
    rw [hl, hn, List.length_nil]

theorem Ongoing.breakOff (h : Ongoing sets r) : Ongoing sets (r.breakOff i reason) := by
  rcases r.breakOff_cases i reason with hs | ⟨p, hc⟩
  · rwa [hs]
  · refine ⟨h.sane.breakOff, fun k => hc.pendingAt fun _ => h.pending k, .inl ⟨reason, ?_⟩, ?_⟩
    · rw [hc.state]
      exact List.mem_append_right _ List.mem_cons_self
    · rw [hc.state, List.length_set]
      refine fun hp => h.short fun hn => hp ?_
      simp [hn]

theorem Sane.resolved_length_le (h : r.Sane sets) : r.resolved.length ≤ r.polls.length := by
  have hm : r.resolved.map (·.id) ⊆ sets.map (·.id) := fun g hg => by
    obtain ⟨x, hx, rfl⟩ := List.mem_map.mp hg
    exact h.resolved x hx
  have hle := (nodup_of_pairwise_lt h.ascending).length_le_of_subset hm
  rw [← h.polls] at hle
  simpa using hle

theorem Ongoing.collect (h : Ongoing sets r) (ho : r.collect.2 = none) :
    Ongoing sets r.collect.1.state := by
  obtain ⟨hb, hl⟩ := collect_eq_none ho
  refine ⟨h.sane.collect, h.pending, .inr fun p hp hc => ?_, fun _ => ?_⟩
  · exact .inl (mem_count hb (h.counts.resolve_left (fun ⟨reason, hm⟩ => hb reason hm) p hp hc))
  · exact Nat.lt_of_le_of_ne h.sane.collect.resolved_length_le hl

theorem Ongoing.verdicts_ne_nil (h : Ongoing sets r) (hr : r.isReady = true)
    (ho : r.collect.2 = none) : r.verdicts ≠ [] := by
  intro hv
  have hp : r.polls = [] := by simpa [Round.isReady, hv] using hr
  have hl := h.sane.collect.resolved_length_le
  refine (collect_eq_none ho).2 ?_
  rw [hp, List.length_nil]
  simpa [Round.collect, hp] using hl

/-- A round that is not over can go on. -/
theorem Ongoing.isReady_or_awaits (h : Ongoing sets r) (hs : (sets.map (·.id)).Pairwise (· < ·)) :
    r.isReady = true ∨ ∃ i j, r.awaits i j = true := by
  by_cases hr : r.isReady = true
  · exact .inl hr
  obtain ⟨hv, hp⟩ : r.verdicts = [] ∧ r.polls ≠ [] := by simpa [Round.isReady] using hr
  have hc : r.Counts := h.counts.resolve_left (by simp [hv])
  -- If all groups had their verdicts, all of them would be counted.
  obtain ⟨p, hm, ho⟩ : ∃ p ∈ r.polls, p.closed = false := by
    by_contra hn
    have hids : r.polls.map (·.set.id) = sets.map (·.id) := by
      rw [← h.sane.polls, List.map_map]
      rfl
    have hsub : r.polls.map (·.set.id) ⊆ r.resolved.map (·.id) := fun g hg => by
      obtain ⟨q, hq, rfl⟩ := List.mem_map.mp hg
      refine (hc q hq ?_).resolve_right (by simp [hv])
      by_contra hf
      exact hn ⟨q, hq, by simpa using hf⟩
    have hle := (hids ▸ nodup_of_pairwise_lt hs).length_le_of_subset hsub
    rw [List.length_map, List.length_map] at hle
    exact absurd (h.short hp) (Nat.not_lt.mpr hle)
  obtain ⟨i, hi⟩ := List.mem_iff_getElem?.mp hm
  obtain ⟨j, hj⟩ := List.mem_iff_getElem?.mp (h.pending i p hi ho)
  exact .inr ⟨i, j, by simp [awaits, hi, ho, hj]⟩

/-! ## Work -/

theorem sum_work_set {polls : List Poll} {p : Poll} (q : Poll) (hp : polls[i]? = some p) :
    ((polls.set i q).map Poll.work).sum + p.work = (polls.map Poll.work).sum + q.work := by
  induction polls generalizing i with
  | nil => cases hp
  | cons x polls ih =>
      cases i with
      | zero =>
          cases hp
          simp only [List.set_cons_zero, List.map_cons, List.sum_cons]
          omega
      | succ i =>
          have hi := ih hp
          simp only [List.set_cons_succ, List.map_cons, List.sum_cons]
          omega

theorem ClosesWith.work {p : Poll} {v : Verdict} {r' : Round} (h : ClosesWith i p v r r') :
    r'.work + p.roles.count none = r.work := by
  have hw := sum_work_set { p with closed := true } h.poll
  have hp : p.work = p.roles.count none + 1 := by simp [Poll.work, h.isOpen]
  have hq : ({ p with closed := true } : Poll).work = 0 := rfl
  rw [h.state]
  simp only [Round.work, List.length_append, List.length_singleton]
  omega

theorem work_close : (r.close i).state.work = r.work := by
  rcases r.close_cases i with ⟨hs, -⟩ | ⟨p, roles, hr, hc⟩
  · rw [hs]
  · have hw := hc.work
    have hn : p.roles.count none = 0 := List.count_eq_zero.mpr (by simp [hr])
    rwa [hn, Nat.add_zero] at hw

theorem work_breakOff : (r.breakOff i reason).work ≤ r.work := by
  rcases r.breakOff_cases i reason with hs | ⟨p, hc⟩
  · exact Nat.le_of_eq (by rw [hs])
  · have hw := hc.work
    omega

theorem work_collect : r.collect.1.state.work + r.verdicts.length = r.work := by
  simp [Round.work, Round.collect]

theorem count_none_modify (l : List (Option Role)) (j : Nat) (role : Role) :
    (l.modify j fun x => some (x.getD role)).count none +
      (if l[j]? = some none then 1 else 0) = l.count none := by
  induction l generalizing j with
  | nil => simp
  | cons x l ih =>
      cases j with
      | zero => cases x <;> simp
      | succ j =>
          have hj := ih j
          cases x <;> simp <;> omega

/-- An answer that is awaited leaves less to hear, and no answer leaves more. -/
theorem work_answer : (r.answer i j role).state.work + (r.awaits i j).toNat = r.work := by
  rw [answer_eq, work_close]
  rcases r.hear_cases i j role with ⟨hs, hc⟩ | ⟨p, hp, ho, hs⟩
  · have ha : r.awaits i j = false := by
      unfold awaits
      split
      · rfl
      · rename_i p hp
        simp [hc p hp]
    rw [hs, ha, Bool.toNat_false, Nat.add_zero]
  · have hw := sum_work_set (p.note j role) hp
    have hn := count_none_modify p.roles j role
    have ha : r.awaits i j = (p.roles[j]? = some none : Bool) := by simp [awaits, hp, ho]
    have hq : (p.note j role).work = (p.note j role).roles.count none + 1 := by
      simp [Poll.work, Poll.note, ho]
    have hk : p.work = p.roles.count none + 1 := by simp [Poll.work, ho]
    rw [hs, ha]
    simp only [Round.work]
    simp only [Poll.note] at hw hq ⊢
    by_cases hj : p.roles[j]? = some none
    · simp only [hj, if_true, decide_true, Bool.toNat_true] at hn ⊢
      omega
    · simp only [hj, if_false, decide_false, Bool.toNat_false] at hn ⊢
      omega

end Round

end Shardway
