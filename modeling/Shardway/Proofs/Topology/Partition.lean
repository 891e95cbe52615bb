import Shardway.Proofs.Topology.Places
import Mathlib.Data.List.Induction

/-!
# What an election makes of the members

An elected group is a clean partition of the member addresses, also when several members have one
address and told different roles: which address is where, and in what order the lists are.
-/

namespace Shardway

namespace Election

variable {P Q : Node × Role → Prop} [DecidablePred P] [DecidablePred Q] {b : Ballot}
  {e : Node × Role} {a : Address} {i : Nat}

/-! ## First entries -/

/-- `P` holds of the entry in place `i`, and of no earlier one with its address. -/
def IsFirst (P : Node × Role → Prop) (b : Ballot) (e : Node × Role) (i : Nat) : Prop :=
  P e ∧ ∀ x ∈ b.take i, P x → x.1.addr ≠ e.1.addr

instance : Decidable (IsFirst P b e i) := inferInstanceAs (Decidable (_ ∧ _))

/-- Of the entries that `P` holds of, the first one of each address, in their order. -/
def firsts (P : Node × Role → Prop) [DecidablePred P] (b : Ballot) : List Node :=
  (b.zipIdx.filter fun x => IsFirst P b x.1 x.2).map (·.1.1)

theorem firsts_concat :
    firsts P (b ++ [e]) = firsts P b ++ if IsFirst P b e b.length then [e.1] else [] := by
  have hlt (x : (Node × Role) × Nat) (hx : x ∈ b.zipIdx) :
      IsFirst P (b ++ [e]) x.1 x.2 ↔ IsFirst P b x.1 x.2 := by
    have hi : x.2 < 0 + b.length := (List.mem_zipIdx hx).2.1
    rw [IsFirst, List.take_append_of_le_length (by omega)]
    rfl
  have hlast : IsFirst P (b ++ [e]) e b.length ↔ IsFirst P b e b.length := by
    rw [IsFirst, List.take_left, IsFirst, List.take_length]
  unfold firsts
  rw [List.zipIdx_append, List.filter_append, List.map_append,
    List.filter_congr fun x hx => decide_eq_decide.mpr (hlt x hx)]
  congr 1
  by_cases hf : IsFirst P b e b.length <;> simp [hlast, hf]

theorem firsts_congr (h : ∀ e ∈ b, P e ↔ Q e) : firsts P b = firsts Q b := by
  refine congrArg _ (List.filter_congr fun x hx => decide_eq_decide.mpr ?_)
  refine and_congr (h _ (List.fst_mem_of_mem_zipIdx hx)) (forall₂_congr fun y hy => ?_)
  rw [h y (List.mem_of_mem_take hy)]

/-- What depends on the address alone can be asked before or after the first entries are picked. -/
theorem filter_firsts (p : Address → Prop) [DecidablePred p] :
    (firsts P b).filter (fun n => p n.addr) = firsts (fun e => P e ∧ p e.1.addr) b := by
  have h (e : Node × Role) (i : Nat) : p e.1.addr ∧ IsFirst P b e i ↔
      IsFirst (fun e => P e ∧ p e.1.addr) b e i := by
    constructor
    · rintro ⟨hp, he, hf⟩
      exact ⟨⟨he, hp⟩, fun x hx h => hf x hx h.1⟩
    · rintro ⟨⟨he, hp⟩, hf⟩
      refine ⟨hp, he, fun x hx h ha => hf x hx ⟨h, ?_⟩ ha⟩
      exact ha ▸ hp
  unfold firsts
  rw [List.filter_map, List.filter_filter]
  refine congrArg _ (List.filter_congr fun x hx => ?_)
  simp only [Function.comp_apply, ← Bool.decide_and, h]

/-- What `addByAddr` collects from entries are the first ones. -/
theorem foldl_eq_firsts :
    (b.filter (P ·)).foldl (fun ns e => addByAddr ns e.1) [] = firsts P b := by
  induction b using List.reverseRecOn with
  | nil => rfl
  | append_singleton b e ih =>
      have hmem : hasAddr (firsts P b) e.1.addr ↔ ∃ x ∈ b, P x ∧ x.1.addr = e.1.addr := by
        rw [hasAddr_iff, ← ih, mem_addr_foldl]
        simp [and_assoc]
      have hfirst : IsFirst P b e b.length ↔ P e ∧ ¬hasAddr (firsts P b) e.1.addr := by
        rw [hmem, IsFirst, List.take_length]
        simp
      rw [firsts_concat, List.filter_append, List.foldl_append, ih]
      by_cases he : P e
      · by_cases hh : hasAddr (firsts P b) e.1.addr <;> simp [hfirst, he, hh, addByAddr]
      · simp [hfirst, he]

theorem mem_addr_firsts : a ∈ (firsts P b).map (·.addr) ↔ ∃ e ∈ b, P e ∧ e.1.addr = a := by
  rw [← foldl_eq_firsts, mem_addr_foldl]
  simp [and_assoc]

/-! ## The lists of an elected group -/

/-- The entry is not at the master's address. -/
def Beside (b : Ballot) (e : Node × Role) : Prop := (winner? b).map (·.addr) ≠ some e.1.addr

instance : Decidable (Beside b e) := inferInstanceAs (Decidable (_ ≠ _))

theorem others_eq_filter : others b = b.filter (Beside b ·) := by
  unfold others Beside
  split
  · rename_i h
    simp [h]
  · rename_i m h
    simp [h, eq_comm]

theorem replicas_eq_firsts :
    replicas b = firsts (fun e => e.2.isReachable ∧ Beside b e) b := by
  rw [replicas, others_eq_filter, List.filter_filter, ← foldl_eq_firsts]
  simp only [Bool.decide_and, Bool.decide_eq_true]

theorem Beside.of_addr_eq {e' : Node × Role} (h : Beside b e) (ha : e'.1.addr = e.1.addr) :
    Beside b e' := by
  rwa [Beside, ha]

theorem mem_addr_replicas_iff :
    a ∈ (replicas b).map (·.addr) ↔ ∃ e ∈ b, (e.2.isReachable ∧ Beside b e) ∧ e.1.addr = a := by
  rw [replicas_eq_firsts, mem_addr_firsts]

/-- Of the others, those are unreachable of which no entry answered. -/
theorem unreachable_eq_firsts :
    unreachable b = firsts (fun e => Beside b e ∧
      ∀ x ∈ b, x.1.addr = e.1.addr → x.2.isReachable = false) b := by
  have hfold : ((others b).filter (!·.2.isReachable)).foldl (fun ns e => addByAddr ns e.1) [] =
      firsts (fun e => e.2.isReachable = false ∧ Beside b e) b := by
    rw [others_eq_filter, List.filter_filter, ← foldl_eq_firsts]
    simp only [Bool.decide_and, Bool.decide_eq_false]
  have hkeep := filter_firsts (P := fun e => e.2.isReachable = false ∧ Beside b e) (b := b)
    fun a => ¬hasAddr (replicas b) a
  simp only [Bool.not_eq_true, Bool.decide_eq_false] at hkeep
  rw [unreachable, hfold, hkeep]
  refine firsts_congr fun e he => ?_
  have hmem : hasAddr (replicas b) e.1.addr = false ↔ ¬∃ x ∈ b,
      (x.2.isReachable ∧ Beside b x) ∧ x.1.addr = e.1.addr := by
    rw [← mem_addr_replicas_iff, ← hasAddr_iff, Bool.not_eq_true]
  rw [hmem]
  constructor
  · rintro ⟨⟨-, hb⟩, hn⟩
    refine ⟨hb, fun x hx ha => Bool.eq_false_iff.mpr fun hr => hn ?_⟩
    exact ⟨x, hx, ⟨hr, hb.of_addr_eq ha⟩, ha⟩
  · rintro ⟨hb, hall⟩
    refine ⟨⟨hall e he rfl, hb⟩, ?_⟩
    rintro ⟨x, hx, ⟨hr, -⟩, ha⟩
    cases hr.symm.trans (hall x hx ha)

theorem winner?_eq_find? : winner? b = (b.find? (·.2.isMaster)).map (·.1) := by
  rw [winner?, claimants, List.head?_map, List.head?_filter]

end Election

/-! ## The partition -/

variable {set : ReplicaSet} {roles : List Role} {role : Role} {e : Node × Role}

open Election

/-- The group `g` has every address of a member in one place, as these roles have it. -/
structure Partitions (set : ReplicaSet) (roles : List Role) (g : ResolvedGroup) : Prop where
  master : g.master = ((set.members.zip roles).find? (·.2.isMaster)).map (·.1)
  master_eq_none : g.master = none ↔ .master ∉ roles
  nodup : g.addresses.Nodup
  mem_addresses : ∀ a, a ∈ g.addresses ↔ a ∈ set.members.map (·.addr)
  mem_replicas : ∀ n ∈ set.members, g.masterAddr? ≠ some n.addr →
    (n.addr ∈ g.replicas.map (·.addr) ↔
      ∃ e ∈ set.members.zip roles, e.1.addr = n.addr ∧ e.2.isReachable = true)
  mem_unreachable : ∀ n ∈ set.members, g.masterAddr? ≠ some n.addr →
    (n.addr ∈ g.unreachable.map (·.addr) ↔
      ∀ e ∈ set.members.zip roles, e.1.addr = n.addr → e.2.isReachable = false)
  /-- Replicas stand in the order of the first entries that answered. -/
  replicas : g.replicas =
    firsts (fun e => e.2.isReachable = true ∧ g.masterAddr? ≠ some e.1.addr) (set.members.zip roles)
  /-- Unreachable members stand in the order of their first entries. -/
  unreachable : g.unreachable =
    firsts (fun e => g.masterAddr? ≠ some e.1.addr ∧ ∀ x ∈ set.members.zip roles,
      x.1.addr = e.1.addr → x.2.isReachable = false) (set.members.zip roles)
  isReachable : g.isReachable = true ↔ ∃ role ∈ roles, role.isReachable = true

theorem mem_roles_iff (hl : roles.length = set.members.length) :
    role ∈ roles ↔ ∃ n, (n, role) ∈ set.members.zip roles := by
  refine ⟨fun h => ?_, fun ⟨n, h⟩ => (List.of_mem_zip h).2⟩
  rw [← List.map_snd_zip (Nat.le_of_eq hl)] at h
  obtain ⟨e, he, rfl⟩ := List.mem_map.mp h
  exact ⟨e.1, he⟩

theorem isReachable_of_isMaster (h : role.isMaster = true) : role.isReachable = true := by
  cases role with
  | master => rfl
  | _ => cases h

/-- A group is reachable when a member has answered. -/
theorem isReachable_elect (hl : roles.length = set.members.length) :
    (elect set roles).isReachable = true ↔ ∃ role ∈ roles, role.isReachable = true := by
  simp only [ResolvedGroup.isReachable, elect, Bool.or_eq_true]
  constructor
  · rintro (hm | hr)
    · rw [winner?_eq_find?, Option.isSome_map, List.find?_isSome] at hm
      obtain ⟨e, he, hm⟩ := hm
      exact ⟨e.2, (mem_roles_iff hl).mpr ⟨e.1, he⟩, isReachable_of_isMaster hm⟩
    · obtain ⟨n, hn⟩ := List.exists_mem_of_ne_nil _ (by simpa using hr)
      obtain ⟨e, he, ⟨hr, -⟩, -⟩ := mem_addr_replicas_iff.mp (List.mem_map_of_mem hn)
      exact ⟨e.2, (mem_roles_iff hl).mpr ⟨e.1, he⟩, hr⟩
  · rintro ⟨role, hrole, hr⟩
    obtain ⟨n, he⟩ := (mem_roles_iff hl).mp hrole
    refine or_iff_not_imp_left.mpr fun hm => ?_
    have hb : Beside (set.members.zip roles) (n, role) := by
      simp [Beside, Option.not_isSome_iff_eq_none.mp hm]
    have hn := mem_addr_replicas_iff.mpr ⟨_, he, ⟨hr, hb⟩, rfl⟩
    simpa using List.ne_nil_of_mem (List.mem_map.mp hn).choose_spec.1

/-- An election makes a clean partition of the members, whatever duplicates there are. -/
theorem elect_partitions (hl : roles.length = set.members.length) :
    Partitions set roles (elect set roles) where
  master := winner?_eq_find?
  master_eq_none := by
    have hm (role : Role) : role.isMaster = true ↔ role = .master := by
      cases role <;> simp [Role.isMaster]
    change winner? _ = none ↔ _
    rw [winner?_eq_find?, Option.map_eq_none_iff, List.find?_eq_none, mem_roles_iff hl]
    simp only [hm]
    exact ⟨fun h ⟨n, hn⟩ => h _ hn rfl, fun h e he hr => h ⟨e.1, hr ▸ he⟩⟩
  nodup := nodup_addresses_elect set roles
  mem_addresses a := by
    rw [mem_addresses_elect hl, List.mem_map]
  mem_replicas n _ hm := by
    refine mem_addr_replicas_iff.trans ⟨?_, ?_⟩
    · rintro ⟨e, he, ⟨hr, -⟩, ha⟩
      exact ⟨e, he, ha, hr⟩
    · rintro ⟨e, he, ha, hr⟩
      have hb : Beside (set.members.zip roles) (n, e.2) := hm
      exact ⟨e, he, ⟨hr, hb.of_addr_eq ha⟩, ha⟩
  mem_unreachable n hn hm := by
    rw [show (elect set roles).unreachable = _ from unreachable_eq_firsts, mem_addr_firsts]
    constructor
    · rintro ⟨e, -, ⟨-, hall⟩, ha⟩
      exact ha ▸ hall
    · intro hall
      obtain ⟨role, he⟩ := (mem_members_iff hl).mp hn
      exact ⟨_, he, ⟨hm, hall⟩, rfl⟩
  replicas := replicas_eq_firsts
  unreachable := unreachable_eq_firsts
  isReachable := isReachable_elect hl

/-- Seven members at four addresses. -/
def twins : ReplicaSet where
  id := 1
  members := [1, 2, 1, 3, 2, 4, 4].map fun port => { (default : Node) with addr := ⟨"", port⟩ }

/-- Two of the addresses answer once and do not once. -/
def twinRoles : List Role :=
  [.unreachable "", .replica none, .replica none, .master, .unreachable "", .unreachable "",
    .unreachable ""]

theorem elect_partitions_twins :
    Partitions twins twinRoles (elect twins twinRoles) ∧
      (elect twins twinRoles).addresses.map (·.port) = [3, 2, 1, 4] :=
  ⟨elect_partitions rfl, by decide⟩

end Shardway
