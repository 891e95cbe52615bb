import Shardway.Resolution
import Mathlib.Data.List.Perm.Subperm

/-!
# Ascending group ids

Groups stand by ascending id, both when nodes are sorted into them and when they are counted after
their election. Which list of ids that is depends on nothing but which ids there are.
-/

namespace Shardway

/-- Adds an id to ascending ones, unless it is there. -/
def addId (g : GroupId) : List GroupId → List GroupId
  | [] => [g]
  | h :: r => if g < h then g :: h :: r else if g = h then h :: r else h :: addId g r

variable {g : GroupId} {ids ids' : List GroupId}

theorem mem_addId {x : GroupId} : x ∈ addId g ids ↔ x = g ∨ x ∈ ids := by
  induction ids with
  | nil => simp [addId]
  | cons h r ih =>
      unfold addId
      split
      · simp
      · split
        · rename_i heq
          subst heq
          simp
        · rw [List.mem_cons, ih, List.mem_cons]
          exact or_left_comm

theorem pairwise_addId (h : ids.Pairwise (· < ·)) : (addId g ids).Pairwise (· < ·) := by
  induction ids with
  | nil => exact List.pairwise_singleton ..
  | cons x r ih =>
      obtain ⟨hx, hr⟩ := List.pairwise_cons.mp h
      unfold addId
      split
      · rename_i hlt
        refine List.pairwise_cons.mpr ⟨fun y hy => ?_, h⟩
        rcases List.mem_cons.mp hy with rfl | hy
        · exact hlt
        · exact UInt32.lt_trans hlt (hx y hy)
      · rename_i hle
        split
        · exact h
        · rename_i hne
          refine List.pairwise_cons.mpr ⟨fun y hy => ?_, ih hr⟩
          rcases mem_addId.mp hy with rfl | hy
          · exact UInt32.lt_of_le_of_ne (UInt32.not_lt.mp hle) (Ne.symm hne)
          · exact hx y hy

theorem nodup_of_pairwise_lt (h : ids.Pairwise (· < ·)) : ids.Nodup := by
  refine h.imp ?_
  rintro a _ hlt rfl
  exact UInt32.lt_irrefl a hlt

/-- Ascending ids are determined by their number, among given ones. -/
theorem eq_of_subset_of_length (h : ids.Pairwise (· < ·)) (h' : ids'.Pairwise (· < ·))
    (hs : ids ⊆ ids') (hl : ids.length = ids'.length) : ids = ids' := by
  have hp : ids.Perm ids' :=
    (List.Nodup.subperm (nodup_of_pairwise_lt h) hs).perm_of_length_le (Nat.le_of_eq hl.symm)
  refine hp.eq_of_pairwise (fun a b _ _ hab hba => ?_) h h'
  exact absurd (UInt32.lt_trans hab hba) (UInt32.lt_irrefl a)

/-- Ascending ids are determined by which ids they are. -/
theorem eq_of_mem_iff (h : ids.Pairwise (· < ·)) (h' : ids'.Pairwise (· < ·))
    (hm : ∀ g, g ∈ ids ↔ g ∈ ids') : ids = ids' := by
  have hp : ids.Perm ids' :=
    (List.perm_ext_iff_of_nodup (nodup_of_pairwise_lt h) (nodup_of_pairwise_lt h')).mpr hm
  refine hp.eq_of_pairwise (fun a b _ _ hab hba => ?_) h h'
  exact absurd (UInt32.lt_trans hab hba) (UInt32.lt_irrefl a)

/-! ## Groups of nodes -/

namespace ReplicaSet

theorem map_id_place (n : Node) (sets : List ReplicaSet) :
    (place n sets).map (·.id) = addId n.group (sets.map (·.id)) := by
  induction sets with
  | nil => rfl
  | cons s r ih =>
      simp only [place, addId, List.map_cons]
      split
      · rfl
      · split
        · rfl
        · rw [List.map_cons, ih]

theorem map_id_foldl_place (nodes : List Node) (sets : List ReplicaSet)
    (h : (sets.map (·.id)).Pairwise (· < ·)) :
    ((nodes.foldl (fun sets n => place n sets) sets).map (·.id)).Pairwise (· < ·) ∧
      ∀ g, g ∈ (nodes.foldl (fun sets n => place n sets) sets).map (·.id) ↔
        (∃ n ∈ nodes, n.group = g) ∨ g ∈ sets.map (·.id) := by
  induction nodes generalizing sets with
  | nil => simpa using h
  | cons n nodes ih =>
      have hp : ((place n sets).map (·.id)).Pairwise (· < ·) := by
        rw [map_id_place]
        exact pairwise_addId h
      obtain ⟨ha, hm⟩ := ih (place n sets) hp
      refine ⟨ha, fun g => ?_⟩
      rw [List.foldl_cons, hm, map_id_place, mem_addId]
      simp only [List.mem_cons, exists_eq_or_imp, eq_comm (a := g)]
      rw [or_assoc]
      exact or_left_comm

theorem pairwise_ofNodes (nodes : List Node) : ((ofNodes nodes).map (·.id)).Pairwise (· < ·) :=
  (map_id_foldl_place nodes [] .nil).1

theorem mem_map_id_ofNodes {nodes : List Node} :
    g ∈ (ofNodes nodes).map (·.id) ↔ ∃ n ∈ nodes, n.group = g := by
  have := (map_id_foldl_place nodes [] .nil).2 g
  simpa [ofNodes] using this

end ReplicaSet

end Shardway
