import Shardway.Proofs.Topology.GroupIds

/-!
# Rounds of probes

Whatever the members answer, in whatever order, and whichever groups break off: a round that ends
well has counted every group, by ascending id.
-/

namespace Shardway.Round

/-- A round that was begun for these groups and has gone on since, in any way. -/
inductive Runs (sets : List ReplicaSet) : Round → Prop
  | start : Runs sets (start sets).state
  | answer {r : Round} (i j : Nat) (role : Role) : Runs sets r → Runs sets (r.answer i j role).state
  | breakOff {r : Round} (i : Nat) (reason : String) :
      Runs sets r → Runs sets (r.breakOff i reason)
  | collect {r : Round} : Runs sets r → Runs sets r.collect.1.state

/-- All that a round knows of is one of its groups. -/
structure Sane (sets : List ReplicaSet) (r : Round) : Prop where
  polls : r.polls.map (·.set) = sets
  verdicts : ∀ g, .elected g ∈ r.verdicts → g.id ∈ sets.map (·.id)
  resolved : ∀ g ∈ r.resolved, g.id ∈ sets.map (·.id)
  ascending : (r.resolved.map (·.id)).Pairwise (· < ·)

variable {sets : List ReplicaSet} {r : Round} {i j : Nat} {role : Role} {reason : String}

theorem map_id_insert (g : ResolvedGroup) (l : List ResolvedGroup) :
    (insert g l).map (·.id) = addId g.id (l.map (·.id)) := by
  induction l with
  | nil => rfl
  | cons h r ih =>
      simp only [insert, addId, List.map_cons]
      split
      · rfl
      · split
        · rename_i heq
          rw [List.map_cons, heq]
        · rw [List.map_cons, ih]

theorem map_set_modify {f : Poll → Poll} (hf : ∀ p, (f p).set = p.set) (polls : List Poll) :
    (polls.modify i f).map (·.set) = polls.map (·.set) := by
  induction polls generalizing i with
  | nil => simp
  | cons p l ih => cases i <;> simp [hf, ih]

theorem map_set_set {polls : List Poll} {p q : Poll} (hp : polls[i]? = some p)
    (hq : q.set = p.set) : (polls.set i q).map (·.set) = polls.map (·.set) := by
  induction polls generalizing i with
  | nil => simp at hp
  | cons x l ih =>
      cases i with
      | zero =>
          cases hp
          simp [hq]
      | succ i => simpa using ih hp

theorem Sane.close (h : r.Sane sets) : (r.close i).state.Sane sets := by
  unfold Round.close
  split
  · exact h
  · rename_i p hp
    split
    · rename_i roles _ _
      have hm : p.set.id ∈ sets.map (·.id) := by
        rw [← h.polls, List.map_map]
        exact List.mem_map_of_mem (List.mem_of_getElem? hp)
      refine { h with polls := ?_, verdicts := ?_ }
      · rw [← h.polls]
        exact map_set_set hp rfl
      · intro g hg
        rcases List.mem_append.mp hg with hg | hg
        · exact h.verdicts g hg
        · cases List.mem_singleton.mp hg
          exact hm
    · exact h

theorem Sane.closeAll (n : Nat) (h : r.Sane sets) : (Round.closeAll n r).state.Sane sets := by
  induction n with
  | zero => exact h
  | succ n ih => exact ih.close

theorem sane_start (sets : List ReplicaSet) : (start sets).state.Sane sets := by
  refine Sane.closeAll _ ⟨?_, by simp, by simp, .nil⟩
  rw [List.map_map]
  exact List.map_id sets

theorem Sane.answer (h : r.Sane sets) : (r.answer i j role).state.Sane sets := by
  refine Sane.close { h with polls := ?_ }
  rw [← h.polls]
  exact map_set_modify (fun p => by split <;> rfl) _

theorem Sane.breakOff (h : r.Sane sets) : (r.breakOff i reason).Sane sets := by
  unfold Round.breakOff
  split
  · exact h
  · split
    · exact h
    · rename_i p hp _
      refine { h with polls := ?_, verdicts := ?_ }
      · rw [← h.polls]
        exact map_set_set hp rfl
      · intro g hg
        rcases List.mem_append.mp hg with hg | hg
        · exact h.verdicts g hg
        · cases List.mem_singleton.mp hg

theorem count_sane {verdicts : List Verdict} {resolved : List ResolvedGroup}
    (hv : ∀ g, .elected g ∈ verdicts → g.id ∈ sets.map (·.id))
    (hr : ∀ g ∈ resolved, g.id ∈ sets.map (·.id)) (ha : (resolved.map (·.id)).Pairwise (· < ·)) :
    (∀ g ∈ (count verdicts resolved).1, g.id ∈ sets.map (·.id)) ∧
      ((count verdicts resolved).1.map (·.id)).Pairwise (· < ·) := by
  induction verdicts generalizing resolved with
  | nil => exact ⟨hr, ha⟩
  | cons v verdicts ih =>
      cases v with
      | brokenOff reason => exact ⟨hr, ha⟩
      | elected g =>
          refine ih (fun g hg => hv g (List.mem_cons_of_mem _ hg)) (fun x hx => ?_) ?_
          · have hx : x.id ∈ (insert g resolved).map (·.id) := List.mem_map_of_mem hx
            rw [map_id_insert, mem_addId] at hx
            rcases hx with hx | hx
            · exact hx ▸ hv g List.mem_cons_self
            · obtain ⟨y, hy, hyx⟩ := List.mem_map.mp hx
              exact hyx ▸ hr y hy
          · rw [map_id_insert]
            exact pairwise_addId ha

/-! ## How a round ends -/

section

variable {verdicts : List Verdict} {resolved : List ResolvedGroup}

theorem mem_of_count (h : (count verdicts resolved).2.2 = some reason) :
    .brokenOff reason ∈ verdicts := by
  induction verdicts generalizing resolved with
  | nil => cases h
  | cons v verdicts ih =>
      cases v with
      | brokenOff _ =>
          cases h
          exact List.mem_cons_self
      | elected g => exact List.mem_cons_of_mem _ (ih h)

theorem notMem_of_count (h : (count verdicts resolved).2.2 = none) :
    .brokenOff reason ∉ verdicts := by
  induction verdicts generalizing resolved with
  | nil => exact List.not_mem_nil
  | cons v verdicts ih =>
      cases v with
      | brokenOff _ => cases h
      | elected g => simpa using ih h

end

/-- What comes of counting the verdicts of a round. -/
inductive Outcome (r : Round) : Option (Except Fault (List ResolvedGroup)) → Prop
  | broken {reason : String} : .brokenOff reason ∈ r.verdicts →
      Outcome r (some (.error (brokenOffFault reason)))
  | complete : (∀ reason, .brokenOff reason ∉ r.verdicts) →
      r.collect.1.state.resolved.length = r.polls.length →
      Outcome r (some (.ok r.collect.1.state.resolved))
  | ongoing : (∀ reason, .brokenOff reason ∉ r.verdicts) →
      r.collect.1.state.resolved.length ≠ r.polls.length → Outcome r none

theorem collect_outcome (r : Round) : r.Outcome r.collect.2 := by
  unfold Round.collect
  dsimp only
  split
  · exact .broken (mem_of_count ‹_›)
  · split
    · exact .complete (fun _ => notMem_of_count ‹_›) ‹_›
    · exact .ongoing (fun _ => notMem_of_count ‹_›) ‹_›

theorem Sane.collect (h : r.Sane sets) : r.collect.1.state.Sane sets := by
  obtain ⟨hr, ha⟩ := count_sane h.verdicts h.resolved h.ascending
  exact ⟨h.polls, by simp [Round.collect], hr, ha⟩

theorem Runs.sane (h : Runs sets r) : r.Sane sets := by
  induction h with
  | start => exact sane_start sets
  | answer i j role _ ih => exact ih.answer
  | breakOff i reason _ ih => exact ih.breakOff
  | collect _ ih => exact ih.collect

/-- A round that ends well has counted every group. -/
theorem Sane.map_id_outcome {resolved : List ResolvedGroup} (h : r.Sane sets)
    (ha : (sets.map (·.id)).Pairwise (· < ·)) (ho : r.collect.2 = some (.ok resolved)) :
    resolved.map (·.id) = sets.map (·.id) := by
  have hc := r.collect_outcome
  rw [ho] at hc
  cases hc with
  | complete _ hl =>
      refine eq_of_subset_of_length h.collect.ascending ha (fun g hg => ?_) ?_
      · obtain ⟨x, hx, rfl⟩ := List.mem_map.mp hg
        exact h.collect.resolved x hx
      · rw [List.length_map, hl, ← h.polls, List.length_map, List.length_map]

end Shardway.Round
