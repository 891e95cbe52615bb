import Shardway.Proofs.Topology.Election

/-!
# Answers in a round

Every group that a round counts was elected from the roles that all of its members have told in that
round.
-/

namespace Shardway

/-- The group was elected from one of these sets, and each member has told the role by which it
was. -/
def ElectedBy (sets : List ReplicaSet) (told : Nat → Nat → Role → Prop) (g : ResolvedGroup) :
    Prop :=
  ∃ i set roles, sets[i]? = some set ∧ g = elect set roles ∧ roles.length = set.members.length ∧
    ∀ j role, roles[j]? = some role → told i j role

namespace Round

/-! ## What the moves of a round do -/

/-- The group at place `i` has its verdict, or a member that is still to be heard. -/
def PendingAt (i : Nat) (r : Round) : Prop :=
  ∀ p, r.polls[i]? = some p → p.closed = false → none ∈ p.roles

/-- A group is closed with a verdict on it. -/
structure ClosesWith (i : Nat) (p : Poll) (v : Verdict) (r r' : Round) : Prop where
  poll : r.polls[i]? = some p
  isOpen : p.closed = false
  state : r' = { r with
    polls := r.polls.set i { p with closed := true }
    verdicts := r.verdicts ++ [v] }

/-- A round that has noted what a member told, and has not looked yet whether its group is known. -/
def hear (i j : Nat) (role : Role) (r : Round) : Round :=
  { r with polls := r.polls.modify i fun p => if p.closed then p else p.note j role }

variable {r : Round} {i j : Nat} {role : Role} {reason : String}

theorem answer_eq : r.answer i j role = (r.hear i j role).close i := rfl

theorem eq_map_some_of_mapM {l : List (Option Role)} {roles : List Role}
    (h : l.mapM id = some roles) : l = roles.map some := by
  induction l generalizing roles with
  | nil =>
      cases h
      rfl
  | cons x l ih =>
      simp only [List.mapM_cons, id_eq, Option.bind_eq_bind, Option.bind_eq_some_iff,
        Option.pure_def, Option.some.injEq] at h
      obtain ⟨role, rfl, rest, hl, rfl⟩ := h
      rw [ih hl, List.map_cons]

theorem none_mem_of_mapM {l : List (Option Role)} (h : l.mapM id = none) : none ∈ l := by
  induction l with
  | nil => cases h
  | cons x l ih =>
      cases x with
      | none => exact List.mem_cons_self
      | some role =>
          cases hl : l.mapM id with
          | none => exact List.mem_cons_of_mem _ (ih hl)
          | some roles => simp [List.mapM_cons, hl] at h

/-- A group is closed just when all its members are known. -/
theorem close_cases (i : Nat) (r : Round) :
    (r.close i).state = r ∧ r.PendingAt i ∨ ∃ p roles, p.roles = roles.map some ∧
      ClosesWith i p (.elected (elect p.set roles)) r (r.close i).state := by
  unfold Round.close
  split
  · rename_i hi
    refine .inl ⟨rfl, fun p hp => ?_⟩
    rw [hi] at hp
    cases hp
  · rename_i p hp
    split
    · rename_i roles ho hc
      exact .inr ⟨p, roles, eq_map_some_of_mapM hc, hp, ho, rfl⟩
    · rename_i hn
      refine .inl ⟨rfl, fun q hq ho => ?_⟩
      cases hp.symm.trans hq
      cases hc : p.complete? with
      | none => exact none_mem_of_mapM hc
      | some roles => exact absurd hc (hn roles ho)

theorem breakOff_cases (i : Nat) (reason : String) (r : Round) :
    r.breakOff i reason = r ∨
      ∃ p, ClosesWith i p (.brokenOff reason) r (r.breakOff i reason) := by
  unfold Round.breakOff
  split
  · exact .inl rfl
  · rename_i p hp
    split
    · exact .inl rfl
    · rename_i hc
      exact .inr ⟨p, hp, by simpa using hc, rfl⟩

theorem hear_cases (i j : Nat) (role : Role) (r : Round) :
    r.hear i j role = r ∧ (∀ p, r.polls[i]? = some p → p.closed = true) ∨
      ∃ p, r.polls[i]? = some p ∧ p.closed = false ∧
        r.hear i j role = { r with polls := r.polls.set i (p.note j role) } := by
  unfold hear
  rw [List.modify_eq_set_getElem?]
  cases hp : r.polls[i]? with
  | none => exact .inl ⟨rfl, by simp⟩
  | some p =>
      cases hc : p.closed with
      | true =>
          refine .inl ⟨?_, fun q hq => Option.some.inj hq ▸ hc⟩
          obtain ⟨hi, rfl⟩ := List.getElem?_eq_some_iff.mp hp
          simp [hc]
      | false => exact .inr ⟨p, rfl, hc, by simp [hc]⟩

/-! ## What a round knows -/

/-- All that a round knows was told to it. -/
structure Informed (sets : List ReplicaSet) (told : Nat → Nat → Role → Prop) (r : Round) :
    Prop where
  polls : r.polls.map (·.set) = sets
  sizes : ∀ p ∈ r.polls, p.roles.length = p.set.members.length
  roles : ∀ (i : Nat) p, r.polls[i]? = some p →
    ∀ j role, p.roles[j]? = some (some role) → told i j role
  verdicts : ∀ g, .elected g ∈ r.verdicts → ElectedBy sets told g
  resolved : ∀ g ∈ r.resolved, ElectedBy sets told g

variable {sets : List ReplicaSet} {told told' : Nat → Nat → Role → Prop} {g : ResolvedGroup}

theorem electedBy_mono (h : ElectedBy sets told g)
    (ht : ∀ i j role, told i j role → told' i j role) : ElectedBy sets told' g := by
  obtain ⟨i, set, roles, hs, hg, hl, hr⟩ := h
  exact ⟨i, set, roles, hs, hg, hl, fun j role hj => ht i j role (hr j role hj)⟩

theorem Informed.mono (h : r.Informed sets told)
    (ht : ∀ i j role, told i j role → told' i j role) : r.Informed sets told' where
  polls := h.polls
  sizes := h.sizes
  roles := fun i p hp j role hj => ht i j role (h.roles i p hp j role hj)
  verdicts := fun g hg => electedBy_mono (h.verdicts g hg) ht
  resolved := fun g hg => electedBy_mono (h.resolved g hg) ht

theorem Informed.setPoll {p q : Poll} (h : r.Informed sets told) (hp : r.polls[i]? = some p)
    (hs : q.set = p.set) (hl : q.roles.length = p.roles.length)
    (hr : ∀ j role, q.roles[j]? = some (some role) → told i j role) :
    ({ r with polls := r.polls.set i q } : Round).Informed sets told := by
  refine { h with polls := ?_, sizes := fun x hx => ?_, roles := fun k x hx j role hj => ?_ }
  · rw [← h.polls]
    exact map_set_set hp hs
  · rcases List.mem_or_eq_of_mem_set hx with hx | rfl
    · exact h.sizes x hx
    · rw [hl, hs]
      exact h.sizes p (List.mem_of_getElem? hp)
  · by_cases hik : i = k
    · subst hik
      rw [List.getElem?_set_self (List.getElem?_eq_some_iff.mp hp).1] at hx
      cases hx
      exact hr j role hj
    · rw [List.getElem?_set_ne hik] at hx
      exact h.roles k x hx j role hj

/-- Closing a group changes nothing that members have told. -/
theorem ClosesWith.informed {p : Poll} {v : Verdict} {r' : Round} (hc : ClosesWith i p v r r')
    (h : r.Informed sets told) (hv : ∀ g, v = .elected g → ElectedBy sets told g) :
    r'.Informed sets told := by
  rw [hc.state]
  have hp := h.setPoll (q := { p with closed := true }) hc.poll rfl rfl (h.roles i p hc.poll)
  refine { hp with verdicts := fun g hg => ?_ }
  rcases List.mem_append.mp hg with hg | hg
  · exact h.verdicts g hg
  · exact hv g (List.mem_singleton.mp hg).symm

theorem Informed.close (h : r.Informed sets told) : (r.close i).state.Informed sets told := by
  rcases r.close_cases i with ⟨hs, -⟩ | ⟨p, roles, hr, hc⟩
  · rwa [hs]
  · refine hc.informed h fun g hg => ?_
    cases hg
    refine ⟨i, p.set, roles, ?_, rfl, ?_, fun j role hj => ?_⟩
    · rw [← h.polls, List.getElem?_map, hc.poll, Option.map_some]
    · rw [← h.sizes p (List.mem_of_getElem? hc.poll), hr, List.length_map]
    · exact h.roles i p hc.poll j role (by rw [hr, List.getElem?_map, hj, Option.map_some])

theorem Informed.closeAll (n : Nat) (h : r.Informed sets told) :
    (Round.closeAll n r).state.Informed sets told := by
  induction n with
  | zero => exact h
  | succ n ih => exact ih.close

theorem informed_start (sets : List ReplicaSet) (told : Nat → Nat → Role → Prop) :
    (start sets).state.Informed sets told := by
  refine Informed.closeAll _ ⟨?_, fun p hp => ?_, fun i p hp j role hj => ?_, by simp, by simp⟩
  · rw [List.map_map]
    exact List.map_id sets
  · obtain ⟨set, -, rfl⟩ := List.mem_map.mp hp
    exact List.length_map _
  · obtain ⟨set, -, rfl⟩ := List.mem_map.mp (List.mem_of_getElem? hp)
    obtain ⟨x, -, hx⟩ := Option.map_eq_some_iff.mp ((List.getElem?_map ..).symm.trans hj)
    cases hx

theorem getElem?_note {p : Poll} {x : Role} (h : (p.note j role).roles[i]? = some (some x)) :
    p.roles[i]? = some (some x) ∨ i = j ∧ x = role := by
  simp only [Poll.note, List.getElem?_modify] at h
  split at h
  · rename_i hji
    cases hx : p.roles[i]? with
    | none => simp [hx] at h
    | some o =>
        cases o with
        | none => exact .inr ⟨hji.symm, by simpa [hx] using h.symm⟩
        | some y => exact .inl (by simpa [hx] using h)
  · exact .inl (by simpa using h)

theorem Informed.answer (h : r.Informed sets told) (ht : told i j role) :
    (r.answer i j role).state.Informed sets told := by
  rw [answer_eq]
  refine Informed.close ?_
  rcases r.hear_cases i j role with ⟨hs, -⟩ | ⟨p, hp, -, hs⟩
  · rwa [hs]
  · rw [hs]
    refine h.setPoll hp rfl (List.length_modify ..) fun k x hx => ?_
    rcases getElem?_note hx with hx | ⟨rfl, rfl⟩
    · exact h.roles i p hp k x hx
    · exact ht

theorem Informed.breakOff (h : r.Informed sets told) :
    (r.breakOff i reason).Informed sets told := by
  rcases r.breakOff_cases i reason with hs | ⟨p, hc⟩
  · rwa [hs]
  · exact hc.informed h (by simp)

theorem Informed.collect (h : r.Informed sets told) :
    r.collect.1.state.Informed sets told :=
  { h with
    verdicts := by simp [Round.collect]
    resolved := forall_mem_count h.verdicts h.resolved }

theorem Informed.outcome {resolved : List ResolvedGroup} (h : r.Informed sets told)
    (ho : r.collect.2 = some (.ok resolved)) : ∀ g ∈ resolved, ElectedBy sets told g := by
  have hr := r.collect_outcome
  rw [ho] at hr
  cases hr
  exact h.collect.resolved

end Round

end Shardway
