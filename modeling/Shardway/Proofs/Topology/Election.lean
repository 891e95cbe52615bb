import Shardway.Proofs.Topology.Rounds

/-!
# Elections

An elected master is a member of its group, and no other place in the group has its address. All
groups that a round counts are elected from its replica sets.
-/

namespace Shardway

variable {set : ReplicaSet} {sets : List ReplicaSet} {roles : List Role} {m n : Node}
  {g : ResolvedGroup}

/-! ## Members -/

namespace ReplicaSet

/-- The nodes of each group belong to it. -/
def AreOf (nodes : List Node) (sets : List ReplicaSet) : Prop :=
  ∀ set ∈ sets, ∀ n ∈ set.members, n ∈ nodes ∧ n.group = set.id

theorem AreOf.place {nodes : List Node} (h : AreOf nodes sets) (hn : n ∈ nodes) :
    AreOf nodes (place n sets) := by
  have hs : AreOf nodes [⟨n.group, [n]⟩] := by
    intro set hset x hx
    cases List.mem_singleton.mp hset
    cases List.mem_singleton.mp hx
    exact ⟨hn, rfl⟩
  induction sets with
  | nil => exact hs
  | cons s r ih =>
      have hr : AreOf nodes r := fun set hset => h set (List.mem_cons_of_mem _ hset)
      unfold ReplicaSet.place
      split
      · intro set hset
        rcases List.mem_cons.mp hset with rfl | hset
        · exact hs _ List.mem_cons_self
        · exact h set hset
      · split
        · rename_i hg
          intro set hset
          rcases List.mem_cons.mp hset with rfl | hset
          · intro x hx
            rcases List.mem_append.mp hx with hx | hx
            · exact h s List.mem_cons_self x hx
            · cases List.mem_singleton.mp hx
              exact ⟨hn, hg⟩
          · exact hr set hset
        · intro set hset
          rcases List.mem_cons.mp hset with rfl | hset
          · exact h _ List.mem_cons_self
          · exact ih hr set hset

theorem areOf_ofNodes (nodes : List Node) : AreOf nodes (ofNodes nodes) := by
  have h (l : List Node) (sets : List ReplicaSet) (hl : l ⊆ nodes) (hs : AreOf nodes sets) :
      AreOf nodes (l.foldl (fun sets n => ReplicaSet.place n sets) sets) := by
    induction l generalizing sets with
    | nil => exact hs
    | cons n l ih =>
        obtain ⟨hn, hl⟩ := List.cons_subset.mp hl
        exact ih _ hl (hs.place hn)
  exact h nodes [] (List.Subset.refl _) (by simp [AreOf])

end ReplicaSet

/-! ## The winner -/

namespace Election

variable {b : Ballot}

theorem mem_of_winner? (h : winner? b = some m) : ∃ role, (m, role) ∈ b := by
  obtain ⟨⟨n, role⟩, hx, rfl⟩ := List.mem_map.mp (List.mem_of_head? h)
  exact ⟨role, (List.mem_filter.mp hx).1⟩

/-- What is collected from entries was among them. -/
theorem mem_foldl_addByAddr {entries : Ballot} {nodes : List Node}
    (h : n ∈ entries.foldl (fun ns e => addByAddr ns e.1) nodes) :
    n ∈ nodes ∨ ∃ role, (n, role) ∈ entries := by
  induction entries generalizing nodes with
  | nil => exact .inl h
  | cons e entries ih =>
      obtain ⟨x, role⟩ := e
      rcases ih h with h | ⟨role', h⟩
      · have h : n ∈ addByAddr nodes x := h
        unfold addByAddr at h
        split at h
        · exact .inl h
        · rcases List.mem_append.mp h with h | h
          · exact .inl h
          · cases List.mem_singleton.mp h
            exact .inr ⟨role, List.mem_cons_self⟩
      · exact .inr ⟨role', List.mem_cons_of_mem _ h⟩

theorem addr_ne_of_others {role : Role} (hw : winner? b = some m) (h : (n, role) ∈ others b) :
    n.addr ≠ m.addr := by
  simp only [others, hw] at h
  simpa using (List.mem_filter.mp h).2

theorem mem_of_others {role : Role} (h : (n, role) ∈ others b) : (n, role) ∈ b := by
  unfold others at h
  split at h
  · exact h
  · exact (List.mem_filter.mp h).1

theorem mem_others_of_replicas (h : n ∈ replicas b) : ∃ role, (n, role) ∈ others b := by
  obtain ⟨role, h⟩ := (mem_foldl_addByAddr h).resolve_left List.not_mem_nil
  exact ⟨role, (List.mem_filter.mp h).1⟩

theorem mem_others_of_unreachable (h : n ∈ unreachable b) : ∃ role, (n, role) ∈ others b := by
  obtain ⟨role, h⟩ := (mem_foldl_addByAddr (List.mem_filter.mp h).1).resolve_left List.not_mem_nil
  exact ⟨role, (List.mem_filter.mp h).1⟩

end Election

theorem master_mem_elect (h : (elect set roles).master = some m) : m ∈ set.members := by
  obtain ⟨role, hm⟩ := Election.mem_of_winner? h
  exact (List.of_mem_zip hm).1

/-- All that stand beside the master are members with other addresses. -/
theorem standby_elect (h : n ∈ (elect set roles).replicas ++ (elect set roles).unreachable) :
    n ∈ set.members ∧ ∀ m, (elect set roles).master = some m → n.addr ≠ m.addr := by
  have ho : ∃ role, (n, role) ∈ Election.others (set.members.zip roles) := by
    rcases List.mem_append.mp h with h | h
    · exact Election.mem_others_of_replicas h
    · exact Election.mem_others_of_unreachable h
  obtain ⟨role, ho⟩ := ho
  exact ⟨(List.of_mem_zip (Election.mem_of_others ho)).1, fun m hm => Election.addr_ne_of_others hm ho⟩

/-! ## Rounds -/

/-- The group was elected from one of these sets. -/
def IsElected (sets : List ReplicaSet) (g : ResolvedGroup) : Prop :=
  ∃ set ∈ sets, ∃ roles, g = elect set roles

namespace Round

variable {r : Round} {i j : Nat} {role : Role} {reason : String}

/-- All groups that a round knows of were elected from its replica sets. -/
structure Elects (sets : List ReplicaSet) (r : Round) : Prop where
  verdicts : ∀ g, .elected g ∈ r.verdicts → IsElected sets g
  resolved : ∀ g ∈ r.resolved, IsElected sets g

theorem Elects.close (h : r.Elects sets) (hp : r.polls.map (·.set) = sets) :
    (r.close i).state.Elects sets := by
  unfold Round.close
  split
  · exact h
  · rename_i p hi
    split
    · rename_i roles _ _
      refine { h with verdicts := fun g hg => ?_ }
      rcases List.mem_append.mp hg with hg | hg
      · exact h.verdicts g hg
      · cases List.mem_singleton.mp hg
        have hs : p.set ∈ sets := hp ▸ List.mem_map_of_mem (List.mem_of_getElem? hi)
        exact ⟨p.set, hs, roles, rfl⟩
    · exact h

theorem Elects.closeAll (n : Nat) (h : r.Elects sets) (hs : r.Sane sets) :
    (Round.closeAll n r).state.Elects sets := by
  induction n with
  | zero => exact h
  | succ n ih => exact ih.close (hs.closeAll n).polls

theorem elects_start (sets : List ReplicaSet) : (start sets).state.Elects sets := by
  refine Elects.closeAll _ ⟨by simp, by simp⟩ ⟨?_, by simp, by simp, .nil⟩
  rw [List.map_map]
  exact List.map_id sets

theorem Elects.answer (h : r.Elects sets) (hs : r.Sane sets) :
    (r.answer i j role).state.Elects sets := by
  refine Elects.close ⟨h.verdicts, h.resolved⟩ ?_
  rw [← hs.polls]
  exact map_set_modify (fun p => by split <;> rfl) _

theorem Elects.breakOff (h : r.Elects sets) : (r.breakOff i reason).Elects sets := by
  unfold Round.breakOff
  split
  · exact h
  · split
    · exact h
    · refine { h with verdicts := fun g hg => ?_ }
      rcases List.mem_append.mp hg with hg | hg
      · exact h.verdicts g hg
      · cases List.mem_singleton.mp hg

theorem mem_insert {x : ResolvedGroup} {l : List ResolvedGroup} (h : x ∈ insert g l) :
    x = g ∨ x ∈ l := by
  induction l with
  | nil => exact .inl (List.mem_singleton.mp h)
  | cons y l ih =>
      unfold insert at h
      split at h
      · exact List.mem_cons.mp h
      · split at h
        · exact (List.mem_cons.mp h).imp_right (List.mem_cons_of_mem _)
        · rcases List.mem_cons.mp h with rfl | h
          · exact .inr List.mem_cons_self
          · exact (ih h).imp_right (List.mem_cons_of_mem _)

/-- What holds of all groups that a round knows of holds of those that it counts. -/
theorem forall_mem_count {P : ResolvedGroup → Prop} {verdicts : List Verdict}
    {resolved : List ResolvedGroup} (hv : ∀ g, .elected g ∈ verdicts → P g)
    (hr : ∀ g ∈ resolved, P g) : ∀ g ∈ (count verdicts resolved).1, P g := by
  induction verdicts generalizing resolved with
  | nil => exact hr
  | cons v verdicts ih =>
      cases v with
      | brokenOff reason => exact hr
      | elected g =>
          refine ih (fun g hg => hv g (List.mem_cons_of_mem _ hg)) fun x hx => ?_
          rcases mem_insert hx with rfl | hx
          · exact hv x List.mem_cons_self
          · exact hr x hx

theorem Elects.collect (h : r.Elects sets) : r.collect.1.state.Elects sets :=
  ⟨by simp [Round.collect], forall_mem_count h.verdicts h.resolved⟩

theorem Runs.elects (h : Runs sets r) : r.Elects sets := by
  induction h with
  | start => exact elects_start sets
  | answer i j role h ih => exact ih.answer h.sane
  | breakOff i reason _ ih => exact ih.breakOff
  | collect _ ih => exact ih.collect

theorem Elects.outcome {resolved : List ResolvedGroup} (h : r.Elects sets)
    (ho : r.collect.2 = some (.ok resolved)) : ∀ g ∈ resolved, IsElected sets g := by
  have hc := r.collect_outcome
  rw [ho] at hc
  cases hc
  exact h.collect.resolved

end Round

end Shardway
