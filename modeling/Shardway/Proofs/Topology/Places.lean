import Shardway.Proofs.Topology.Answers
import Mathlib.Data.List.Nodup

/-!
# Places of addresses

In an elected group every address of a member has one place: it is the master's, a replica's or an
unreachable one. In the outcome of a round every address of a node has one place in all groups
together, and that is in the group of the node.
-/

namespace Shardway

def ResolvedGroup.addresses (g : ResolvedGroup) : List Address :=
  (g.master.toList ++ g.replicas ++ g.unreachable).map (·.addr)

variable {nodes : List Node} {n : Node} {a : Address} {set : ReplicaSet} {sets : List ReplicaSet}
  {roles : List Role} {g : ResolvedGroup}

/-! ## Places in a group -/

namespace Election

variable {b entries : Ballot} {e : Node × Role}

theorem hasAddr_iff : hasAddr nodes a ↔ a ∈ nodes.map (·.addr) := by
  simp [hasAddr]

theorem mem_addr_addByAddr :
    a ∈ (addByAddr nodes n).map (·.addr) ↔ a ∈ nodes.map (·.addr) ∨ n.addr = a := by
  unfold addByAddr
  split
  · rename_i h
    refine ⟨.inl, fun ha => ha.elim id ?_⟩
    rintro rfl
    exact hasAddr_iff.mp h
  · simp [eq_comm]

theorem nodup_addByAddr (h : (nodes.map (·.addr)).Nodup) :
    ((addByAddr nodes n).map (·.addr)).Nodup := by
  unfold addByAddr
  split
  · exact h
  · rename_i hn
    rw [hasAddr_iff] at hn
    rw [List.map_append]
    refine List.nodup_append.mpr ⟨h, by simp, ?_⟩
    rintro x hx y hy rfl
    cases List.mem_singleton.mp hy
    exact hn hx

theorem mem_addr_foldl :
    a ∈ (entries.foldl (fun ns e => addByAddr ns e.1) nodes).map (·.addr) ↔
      a ∈ nodes.map (·.addr) ∨ ∃ e ∈ entries, e.1.addr = a := by
  induction entries generalizing nodes with
  | nil => simp
  | cons e entries ih =>
      rw [List.foldl_cons, ih, mem_addr_addByAddr, or_assoc, List.exists_mem_cons_iff]

theorem nodup_foldl (h : (nodes.map (·.addr)).Nodup) :
    ((entries.foldl (fun ns e => addByAddr ns e.1) nodes).map (·.addr)).Nodup := by
  induction entries generalizing nodes with
  | nil => exact h
  | cons e entries ih => exact ih (nodup_addByAddr h)

theorem mem_others_iff : e ∈ others b ↔ e ∈ b ∧ ∀ m, winner? b = some m → e.1.addr ≠ m.addr := by
  unfold others
  split
  · rename_i h
    simp [h]
  · rename_i m h
    simp [h]

theorem mem_addr_replicas :
    a ∈ (replicas b).map (·.addr) ↔ ∃ e ∈ others b, e.2.isReachable ∧ e.1.addr = a := by
  rw [replicas, mem_addr_foldl]
  simp [and_assoc]

theorem mem_addr_unreachable : a ∈ (unreachable b).map (·.addr) ↔
    a ∉ (replicas b).map (·.addr) ∧ ∃ e ∈ others b, e.2.isReachable = false ∧ e.1.addr = a := by
  have hf (l : List Node) : a ∈ (l.filter fun n => !hasAddr (replicas b) n.addr).map (·.addr) ↔
      a ∉ (replicas b).map (·.addr) ∧ a ∈ l.map (·.addr) := by
    have hi : hasAddr (replicas b) a ↔ a ∈ (replicas b).map (·.addr) := hasAddr_iff
    rw [← hi]
    constructor
    · intro h
      obtain ⟨n, hn, rfl⟩ := List.mem_map.mp h
      obtain ⟨hn, hr⟩ := List.mem_filter.mp hn
      exact ⟨by simpa using hr, List.mem_map_of_mem hn⟩
    · rintro ⟨hr, h⟩
      obtain ⟨n, hn, rfl⟩ := List.mem_map.mp h
      exact List.mem_map_of_mem (List.mem_filter.mpr ⟨hn, by simpa using hr⟩)
  rw [unreachable, hf, mem_addr_foldl]
  simp [and_assoc]

end Election

open Election in
theorem nodup_addresses_elect (set : ReplicaSet) (roles : List Role) :
    (elect set roles).addresses.Nodup := by
  have hn : (([] : List Node).map (·.addr)).Nodup := List.nodup_nil
  have hr : ((replicas (set.members.zip roles)).map (·.addr)).Nodup := nodup_foldl hn
  have hu : ((unreachable (set.members.zip roles)).map (·.addr)).Nodup :=
    (nodup_foldl hn).sublist (List.filter_sublist.map _)
  simp only [ResolvedGroup.addresses, elect, List.map_append]
  refine List.nodup_append.mpr ⟨List.nodup_append.mpr ⟨?_, hr, ?_⟩, hu, ?_⟩
  · cases winner? (set.members.zip roles) <;> simp
  · rintro x hx y hy rfl
    obtain ⟨e, he, -, rfl⟩ := mem_addr_replicas.mp hy
    obtain ⟨m, hm, ha⟩ := List.mem_map.mp hx
    exact (mem_others_iff.mp he).2 m (by simpa using hm) ha.symm
  · rintro x hx y hy rfl
    obtain ⟨hn, e, he, -, rfl⟩ := mem_addr_unreachable.mp hy
    rcases List.mem_append.mp hx with hx | hx
    · obtain ⟨m, hm, ha⟩ := List.mem_map.mp hx
      exact (mem_others_iff.mp he).2 m (by simpa using hm) ha.symm
    · exact hn hx

/-- Every member has told a role. -/
theorem mem_members_iff (hl : roles.length = set.members.length) :
    n ∈ set.members ↔ ∃ role, (n, role) ∈ set.members.zip roles := by
  refine ⟨fun hn => ?_, fun ⟨role, h⟩ => (List.of_mem_zip h).1⟩
  rw [← List.map_fst_zip (Nat.le_of_eq hl.symm)] at hn
  obtain ⟨e, he, rfl⟩ := List.mem_map.mp hn
  exact ⟨e.2, he⟩

open Election in
/-- The addresses with a place in an elected group are those of its members. -/
theorem mem_addresses_elect (hl : roles.length = set.members.length) :
    a ∈ (elect set roles).addresses ↔ ∃ n ∈ set.members, n.addr = a := by
  have hz (n : Node) : n ∈ set.members ↔ ∃ role, (n, role) ∈ set.members.zip roles :=
    mem_members_iff hl
  simp only [ResolvedGroup.addresses, elect, List.map_append, List.mem_append]
  constructor
  · rintro ((hm | hr) | hu)
    · obtain ⟨m, hw, rfl⟩ := List.mem_map.mp hm
      exact ⟨m, (hz m).mpr (mem_of_winner? (Option.mem_toList.mp hw)), rfl⟩
    · obtain ⟨e, he, -, rfl⟩ := mem_addr_replicas.mp hr
      exact ⟨e.1, (hz _).mpr ⟨e.2, (mem_others_iff.mp he).1⟩, rfl⟩
    · obtain ⟨-, e, he, -, rfl⟩ := mem_addr_unreachable.mp hu
      exact ⟨e.1, (hz _).mpr ⟨e.2, (mem_others_iff.mp he).1⟩, rfl⟩
  · rintro ⟨n, hn, rfl⟩
    obtain ⟨role, he⟩ := (hz n).mp hn
    by_cases hw : ∀ m, winner? (set.members.zip roles) = some m → n.addr ≠ m.addr
    · have ho : (n, role) ∈ others (set.members.zip roles) := mem_others_iff.mpr ⟨he, hw⟩
      by_cases hr : n.addr ∈ (replicas (set.members.zip roles)).map (·.addr)
      · exact .inl (.inr hr)
      · -- No entry of the address answered, so this one did not.
        refine .inr (mem_addr_unreachable.mpr ⟨hr, _, ho, ?_, rfl⟩)
        exact Bool.eq_false_iff.mpr fun h => hr (mem_addr_replicas.mpr ⟨_, ho, h, rfl⟩)
    · simp only [not_forall, not_not] at hw
      obtain ⟨m, hm, ha⟩ := hw
      exact .inl (.inl (List.mem_map.mpr ⟨m, by simpa using hm, ha.symm⟩))

/-! ## Places in all groups -/

namespace ReplicaSet

theorem members_place (n : Node) (sets : List ReplicaSet) :
    ((place n sets).flatMap (·.members)).Perm (n :: sets.flatMap (·.members)) := by
  induction sets with
  | nil => exact .refl _
  | cons s r ih =>
      unfold place
      split
      · exact .refl _
      · split
        · simp only [List.flatMap_cons, List.append_assoc]
          exact List.perm_middle
        · simp only [List.flatMap_cons]
          exact (ih.append_left _).trans List.perm_middle

theorem members_ofNodes (nodes : List Node) :
    ((ofNodes nodes).flatMap (·.members)).Perm nodes := by
  have h (sets : List ReplicaSet) : ((nodes.foldl (fun sets n => place n sets) sets).flatMap
      (·.members)).Perm (nodes ++ sets.flatMap (·.members)) := by
    induction nodes generalizing sets with
    | nil => exact .refl _
    | cons n nodes ih =>
        refine (ih (place n sets)).trans ?_
        exact ((members_place n sets).append_left nodes).trans List.perm_middle
  simpa [ofNodes] using h []

/-- Every node is a member of the set of its group. -/
theorem exists_mem_ofNodes (hn : n ∈ nodes) :
    ∃ set ∈ ofNodes nodes, set.id = n.group ∧ n ∈ set.members := by
  obtain ⟨set, hset, hm⟩ := List.mem_flatMap.mp ((members_ofNodes nodes).mem_iff.mpr hn)
  exact ⟨set, hset, ((areOf_ofNodes nodes set hset n hm).2).symm, hm⟩

theorem eq_of_id_eq {set' : ReplicaSet} (hs : set ∈ ofNodes nodes) (hs' : set' ∈ ofNodes nodes)
    (hid : set.id = set'.id) : set = set' :=
  List.inj_on_of_nodup_map (nodup_of_pairwise_lt (pairwise_ofNodes nodes)) hs hs' hid

theorem members_ne_nil (hs : set ∈ ofNodes nodes) : set.members ≠ [] := by
  obtain ⟨n, hn, hg⟩ := mem_map_id_ofNodes.mp (List.mem_map_of_mem hs)
  obtain ⟨set', hs', hid, hm⟩ := exists_mem_ofNodes hn
  cases eq_of_id_eq hs hs' (hg.symm.trans hid.symm)
  exact List.ne_nil_of_mem hm

end ReplicaSet

/-- Every address of these nodes has one place in the groups, in that of its node, and no other
address has one. -/
structure Placed (nodes : List Node) (groups : List ResolvedGroup) : Prop where
  nodup : (groups.flatMap (·.addresses)).Nodup
  mem_iff : ∀ a, a ∈ groups.flatMap (·.addresses) ↔ ∃ n ∈ nodes, n.addr = a
  group : ∀ n ∈ nodes, ∀ g ∈ groups, n.addr ∈ g.addresses ↔ g.id = n.group

namespace Round

variable {r : Round} {resolved : List ResolvedGroup}

theorem Runs.informed (h : Runs sets r) : r.Informed sets fun _ _ _ => True := by
  induction h with
  | start => exact informed_start sets _
  | answer i j role _ ih => exact ih.answer trivial
  | breakOff i reason _ ih => exact ih.breakOff
  | collect _ ih => exact ih.collect

/-- What a counted group is made of. -/
theorem Runs.exists_set (h : Runs (ReplicaSet.ofNodes nodes) r)
    (ho : r.collect.2 = some (.ok resolved)) (hg : g ∈ resolved) :
    ∃ set ∈ ReplicaSet.ofNodes nodes, g.id = set.id ∧ g.addresses.Nodup ∧
      ∀ a, a ∈ g.addresses ↔ ∃ n ∈ set.members, n.addr = a := by
  obtain ⟨i, set, roles, hi, rfl, hl, -⟩ := h.informed.outcome ho g hg
  exact ⟨set, List.mem_of_getElem? hi, rfl, nodup_addresses_elect set roles,
    fun a => mem_addresses_elect hl⟩

theorem Runs.placed (h : Runs (ReplicaSet.ofNodes nodes) r)
    (ha : ∀ m ∈ nodes, ∀ n ∈ nodes, m.addr = n.addr → m.group = n.group)
    (ho : r.collect.2 = some (.ok resolved)) : Placed nodes resolved := by
  have hids := h.sane.map_id_outcome (ReplicaSet.pairwise_ofNodes nodes) ho
  have hp : (resolved.map (·.id)).Nodup :=
    nodup_of_pairwise_lt (hids ▸ ReplicaSet.pairwise_ofNodes nodes)
  have hgroup : ∀ n ∈ nodes, ∀ g ∈ resolved, n.addr ∈ g.addresses ↔ g.id = n.group := by
    intro n hn g hg
    obtain ⟨set, hset, hid, -, hm⟩ := h.exists_set ho hg
    rw [hm, hid]
    constructor
    · rintro ⟨m, hmm, hma⟩
      obtain ⟨hmn, hmg⟩ := ReplicaSet.areOf_ofNodes nodes set hset m hmm
      exact hmg.symm.trans (ha m hmn n hn hma)
    · intro he
      obtain ⟨set', hset', hid', hn'⟩ := ReplicaSet.exists_mem_ofNodes hn
      cases ReplicaSet.eq_of_id_eq hset hset' (he.trans hid'.symm)
      exact ⟨n, hn', rfl⟩
  have hnode : ∀ g ∈ resolved, ∀ a ∈ g.addresses, ∃ n ∈ nodes, n.addr = a := by
    intro g hg a haddr
    obtain ⟨set, hset, -, -, hm⟩ := h.exists_set ho hg
    obtain ⟨n, hn, rfl⟩ := (hm a).mp haddr
    exact ⟨n, (ReplicaSet.areOf_ofNodes nodes set hset n hn).1, rfl⟩
  refine ⟨List.nodup_flatMap.mpr ⟨fun g hg => ?_, ?_⟩, fun a => ?_, hgroup⟩
  · obtain ⟨-, -, -, hd, -⟩ := h.exists_set ho hg
    exact hd
  · -- An address in two groups would be that of a node in both.
    refine (List.pairwise_map.mp hp).imp_of_mem ?_
    intro g g' hg hg' hne a hag hag'
    obtain ⟨n, hn, rfl⟩ := hnode _ hg a hag
    exact hne (((hgroup n hn _ hg).mp hag).trans ((hgroup n hn _ hg').mp hag').symm)
  · rw [List.mem_flatMap]
    constructor
    · rintro ⟨g, hg, haddr⟩
      exact hnode g hg a haddr
    · rintro ⟨n, hn, rfl⟩
      have hid : n.group ∈ resolved.map (·.id) :=
        hids ▸ ReplicaSet.mem_map_id_ofNodes.mpr ⟨n, hn, rfl⟩
      obtain ⟨g, hg, he⟩ := List.mem_map.mp hid
      exact ⟨g, hg, (hgroup n hn g hg).mpr he⟩

end Round

end Shardway
