import Shardway.Proofs.Ring.Points
import Mathlib.Data.List.Induction

/-!
# Rings without memory

Groups come to a ring and go from it. The ring that is left depends on the groups that are there, not
on what happened before, unless a group that goes shares a point with another one. Where groups only
come they may share points as they like.
-/

namespace Shardway.Ring

inductive Change
  | add (g : GroupId)
  | remove (g : GroupId)
deriving DecidableEq

def Change.group : Change → GroupId
  | add g => g
  | remove g => g

def change (hash : Bytes → UInt64) (r : Ring) : Change → Ring
  | .add g => r.add hash g
  | .remove g => r.remove g

/-- What becomes of an empty ring by changes one after the other. -/
def replay (hash : Bytes → UInt64) (n : Nat) (cs : List Change) : Ring :=
  cs.foldl (change hash) (empty n)

/-- The group was added, and not removed since. -/
def IsMember (g : GroupId) (cs : List Change) : Prop :=
  ∃ before after, cs = before ++ .add g :: after ∧ .remove g ∉ after

/-- No two of the groups that the changes name share a point. -/
def Apart (hash : Bytes → UInt64) (n : Nat) (cs : List Change) : Prop :=
  ∀ c ∈ cs, ∀ d ∈ cs, c.group ≠ d.group →
    ∀ i < n, ∀ j < n, hash (label c.group i) ≠ hash (label d.group j)

instance (hash : Bytes → UInt64) (n : Nat) (cs : List Change) : Decidable (Apart hash n cs) :=
  inferInstanceAs (Decidable (∀ c ∈ cs, ∀ d ∈ cs, c.group ≠ d.group →
    ∀ i < n, ∀ j < n, hash (label c.group i) ≠ hash (label d.group j)))

/-- The group has a point at `p`. -/
def HasPoint (hash : Bytes → UInt64) (n : Nat) (g : GroupId) (p : UInt64) : Prop :=
  ∃ i < n, hash (label g i) = p

/-- The lowest of these groups that have a point at `p`. -/
structure Lowest (hash : Bytes → UInt64) (n : Nat) (S : GroupId → Prop) (p : UInt64)
    (g : GroupId) : Prop where
  mem : S g
  point : HasPoint hash n g p
  le : ∀ o, S o → HasPoint hash n o p → g ≤ o

/-- Every point of the ring is owned by the lowest of these groups that have it. -/
structure Reflects (hash : Bytes → UInt64) (n : Nat) (S : GroupId → Prop) (r : Ring) : Prop where
  virtualNodes : r.virtualNodes = n
  owned : ∀ p g, ownerAt? p r.points = some g → Lowest hash n S p g
  vacant : ∀ p, ownerAt? p r.points = none → ∀ o, S o → ¬HasPoint hash n o p

variable {p : UInt64} {g o : GroupId} {ps : List (UInt64 × GroupId)} {r r' : Ring}
  {hash : Bytes → UInt64} {n : Nat} {ids ids' : List GroupId} {cs cs' : List Change} {c : Change}
  {S T : GroupId → Prop}

/-! ## Members -/

theorem isMember_nil : ¬IsMember g [] := by
  rintro ⟨before, after, h, -⟩
  simp at h

theorem isMember_concat :
    IsMember g (cs ++ [c]) ↔ c = .add g ∨ IsMember g cs ∧ c ≠ .remove g := by
  constructor
  · rintro ⟨before, after, h, hn⟩
    rcases List.eq_nil_or_concat' after with rfl | ⟨after, d, rfl⟩
    · obtain ⟨-, hc⟩ := List.append_inj' h rfl
      exact .inl (List.singleton_inj.mp hc)
    · rw [← List.cons_append, ← List.append_assoc] at h
      obtain ⟨rfl, hc⟩ := List.append_inj' h rfl
      cases hc
      refine .inr ⟨⟨before, after, rfl, fun hm => hn (List.mem_append_left _ hm)⟩, ?_⟩
      rintro rfl
      exact hn (List.mem_append_right _ List.mem_cons_self)
  · rintro (rfl | ⟨⟨before, after, rfl, hn⟩, hc⟩)
    · exact ⟨cs, [], rfl, List.not_mem_nil⟩
    · exact ⟨before, after ++ [c], by simp, by simpa [hn] using hc.symm⟩

theorem IsMember.mem (h : IsMember g cs) : .add g ∈ cs := by
  obtain ⟨before, after, rfl, -⟩ := h
  exact List.mem_append_right _ List.mem_cons_self

theorem isMember_map_add : IsMember g (ids.map .add) ↔ g ∈ ids := by
  constructor
  · intro h
    obtain ⟨o, ho, he⟩ := List.mem_map.mp h.mem
    cases he
    exact ho
  · intro h
    obtain ⟨before, after, rfl⟩ := List.append_of_mem h
    exact ⟨before.map .add, after.map .add, by simp, by simp⟩

/-! ## Points after one change -/

theorem ownerAt?_insertAll (r : Ring) (hg : ∀ x ∈ ps, x.2 = g) :
    ownerAt? p (r.insertAll ps).points =
      if p ∈ ps.map (·.1) then some ((ownerAt? p r.points).elim g (min · g))
      else ownerAt? p r.points := by
  induction ps generalizing r with
  | nil => rfl
  | cons x ps ih =>
      obtain ⟨q, o⟩ := x
      obtain ⟨rfl, hps⟩ := List.forall_mem_cons.mp hg
      have hr : ownerAt? p ((r.insert q o).insertAll ps).points = _ := ih (r.insert q o) hps
      change ownerAt? p ((r.insert q o).insertAll ps).points = _
      rw [hr, insert, ownerAt?_insertPoint r.ascending]
      by_cases hq : q = p
      · subst hq
        -- A second point in the same place changes nothing.
        have hm : min ((ownerAt? q r.points).elim o (min · o)) o =
            (ownerAt? q r.points).elim o (min · o) := by
          cases ownerAt? q r.points with
          | none => exact Std.min_self
          | some a =>
              have : min (min a o) o = min a (min o o) := by ac_rfl
              rw [Option.elim_some, this, Std.min_self]
        simp [hm]
      · have hc : p ∈ ((q, o) :: ps).map (·.1) ↔ p ∈ ps.map (·.1) := by
          simp [Ne.symm hq]
        simp only [hq, hc, if_false]

theorem mem_map_stamps : p ∈ (stamps hash n g).map (·.1) ↔ HasPoint hash n g p := by
  simp [stamps, HasPoint]

theorem ownerAt?_remove :
    ownerAt? p (r.remove g).points = some o ↔ ownerAt? p r.points = some o ∧ o ≠ g := by
  rw [← mem_iff_ownerAt? (r.remove g).ascending, ← mem_iff_ownerAt? r.ascending]
  simp [remove]

namespace Reflects

theorem mono (h : Reflects hash n S r) (hs : ∀ g, S g ↔ T g) : Reflects hash n T r := by
  have : S = T := funext fun g => propext (hs g)
  rwa [← this]

theorem ownerAt?_iff (h : Reflects hash n S r) :
    ownerAt? p r.points = some g ↔ Lowest hash n S p g := by
  constructor
  · exact h.owned p g
  · intro hg
    cases ha : ownerAt? p r.points with
    | none => exact absurd hg.point (h.vacant p ha g hg.mem)
    | some a =>
        have hl := h.owned p a ha
        rw [UInt32.le_antisymm (hl.le g hg.mem hg.point) (hg.le a hl.mem hl.point)]

theorem unique (h : Reflects hash n S r) (h' : Reflects hash n S r') : r = r' := by
  apply eq_of_points
  · rw [h.virtualNodes, h'.virtualNodes]
  · apply eq_of_ownerAt? r.ascending r'.ascending
    intro p
    apply Option.ext
    intro g
    rw [h.ownerAt?_iff, h'.ownerAt?_iff]

theorem empty : Reflects hash n (fun _ => False) (empty n) where
  virtualNodes := rfl
  owned := fun _ _ h => nomatch h
  vacant := fun _ _ _ h => h.elim

/-- A group comes: where it has a point, the point goes to it or stays with a lower one. -/
theorem add (h : Reflects hash n S r) (g : GroupId) :
    Reflects hash n (fun o => S o ∨ o = g) (r.add hash g) := by
  have hg : ∀ x ∈ stamps hash n g, x.2 = g := by
    intro x hx
    obtain ⟨i, -, rfl⟩ := List.mem_map.mp hx
    rfl
  have ho (p : UInt64) := ownerAt?_insertAll (p := p) r hg
  have hv : (r.insertAll (stamps hash n g)).virtualNodes = n := by
    rw [insertAll_virtualNodes, h.virtualNodes]
  rw [add_eq_insertAll, h.virtualNodes]
  refine ⟨hv, ?_, ?_⟩
  · intro p o hp
    rw [ho] at hp
    split at hp
    · rename_i hs
      rw [mem_map_stamps] at hs
      cases ha : ownerAt? p r.points with
      | none =>
          rw [ha] at hp
          cases hp
          refine ⟨.inr rfl, hs, ?_⟩
          rintro o (ho | rfl) hop
          · exact absurd hop (h.vacant p ha o ho)
          · exact UInt32.le_refl o
      | some a =>
          have hl := h.owned p a ha
          rw [ha, Option.elim_some, Option.some.injEq] at hp
          have hle : ∀ b, S b ∨ b = g → HasPoint hash n b p → o ≤ b := by
            rintro b (hb | rfl) hbp
            · rw [← hp]
              exact UInt32.le_trans Std.min_le_left (hl.le b hb hbp)
            · rw [← hp]
              exact Std.min_le_right
          rcases Std.min_eq_or (a := a) (b := g) with hm | hm
          · cases hm.symm.trans hp
            exact ⟨.inl hl.mem, hl.point, hle⟩
          · cases hm.symm.trans hp
            exact ⟨.inr rfl, hs, hle⟩
    · rename_i hs
      rw [mem_map_stamps] at hs
      have hl := h.owned p o hp
      refine ⟨.inl hl.mem, hl.point, ?_⟩
      rintro b (hb | rfl) hbp
      · exact hl.le b hb hbp
      · exact absurd hbp hs
  · intro p hp o hm hop
    rw [ho] at hp
    split at hp
    · cases hp
    · rename_i hs
      rw [mem_map_stamps] at hs
      rcases hm with hm | rfl
      · exact h.vacant p hp o hm hop
      · exact hs hop

/-- A group goes: none of its points was kept from another group. -/
theorem remove (h : Reflects hash n S r)
    (hg : ∀ o p, S o → o ≠ g → HasPoint hash n o p → S g → ¬HasPoint hash n g p) :
    Reflects hash n (fun o => S o ∧ o ≠ g) (r.remove g) := by
  refine ⟨h.virtualNodes, ?_, ?_⟩
  · intro p o hp
    obtain ⟨hp, hne⟩ := ownerAt?_remove.mp hp
    have hl := h.owned p o hp
    exact ⟨⟨hl.mem, hne⟩, hl.point, fun b hb => hl.le b hb.1⟩
  · rintro p hp o ⟨ho, hne⟩ hop
    cases ha : ownerAt? p r.points with
    | none => exact h.vacant p ha o ho hop
    | some a =>
        by_cases hag : a = g
        · have hl := h.owned p a ha
          rw [hag] at hl
          exact hg o p ho hne hop hl.mem hl.point
        · have := ownerAt?_remove.mpr ⟨ha, hag⟩
          rw [hp] at this
          cases this

end Reflects

/-! ## Points after any changes -/

theorem reflects_foldl_add (h : Reflects hash n S r) :
    Reflects hash n (fun g => S g ∨ g ∈ ids) (ids.foldl (add hash) r) := by
  induction ids generalizing S r with
  | nil =>
      apply h.mono
      simp
  | cons g ids ih =>
      apply (ih (h.add g)).mono
      simp [or_assoc]

theorem reflects_ofGroups (hash : Bytes → UInt64) (n : Nat) (ids : List GroupId) :
    Reflects hash n (· ∈ ids) (ofGroups hash n ids) := by
  apply (reflects_foldl_add Reflects.empty).mono
  simp

theorem Apart.of_append (h : Apart hash n (cs ++ cs')) : Apart hash n cs := by
  intro c hc d hd
  exact h c (List.mem_append_left _ hc) d (List.mem_append_left _ hd)

theorem reflects_replay (h : Apart hash n cs) :
    Reflects hash n (IsMember · cs) (replay hash n cs) := by
  induction cs using List.reverseRecOn with
  | nil =>
      apply Reflects.empty.mono
      intro g
      simp [isMember_nil]
  | append_singleton cs c ih =>
      have hr := ih h.of_append
      rw [replay, List.foldl_append]
      cases c with
      | add g =>
          apply (hr.add g).mono
          intro o
          simp [isMember_concat, or_comm, eq_comm]
      | remove g =>
          have hshare : ∀ o p, IsMember o cs → o ≠ g → HasPoint hash n o p → IsMember g cs →
              ¬HasPoint hash n g p := by
            rintro o p ho hne ⟨i, hi, hp⟩ hg ⟨j, hj, hp'⟩
            have hoc : .add o ∈ cs ++ [.remove g] := List.mem_append_left _ ho.mem
            have hgc : .add g ∈ cs ++ [.remove g] := List.mem_append_left _ hg.mem
            exact h (.add o) hoc (.add g) hgc hne i hi j hj (hp.trans hp'.symm)
          apply (hr.remove hshare).mono
          intro o
          simp [isMember_concat, eq_comm]

theorem replay_map_add (hash : Bytes → UInt64) (n : Nat) (ids : List GroupId) :
    replay hash n (ids.map .add) = ofGroups hash n ids := by
  rw [replay, List.foldl_map]
  rfl

theorem ofGroups_eq_of_mem_iff (hash : Bytes → UInt64) (n : Nat) (h : ∀ g, g ∈ ids ↔ g ∈ ids') :
    ofGroups hash n ids = ofGroups hash n ids' :=
  ((reflects_ofGroups hash n ids).mono h).unique (reflects_ofGroups hash n ids')

theorem Apart.return (h : Apart hash n cs) (hg : IsMember g cs) :
    Apart hash n (cs ++ [.remove g, .add g]) := by
  have hgroup : ∀ c ∈ cs ++ [.remove g, .add g], ∃ d ∈ cs, d.group = c.group := by
    intro c hc
    rcases List.mem_append.mp hc with hc | hc
    · exact ⟨c, hc, rfl⟩
    · refine ⟨.add g, hg.mem, ?_⟩
      rcases List.mem_cons.mp hc with rfl | hc
      · rfl
      · rw [List.mem_singleton.mp hc]
  intro c hc d hd hne
  obtain ⟨c', hc', hcg⟩ := hgroup c hc
  obtain ⟨d', hd', hdg⟩ := hgroup d hd
  rw [← hcg, ← hdg] at hne ⊢
  exact h c' hc' d' hd' hne

/-- Where no two groups share a point, a ring is what the groups that are left make it, in whatever
order they are taken, so keys belong to the same groups whatever happened before, and a group that
goes and comes back leaves no trace. Where groups only come they may share points, and each point
belongs to the lowest group that has it. -/
theorem replay_forgets (hash : Bytes → UInt64) (n : Nat) (cs : List Change) :
    (Apart hash n cs →
      (∀ ids, (∀ g, g ∈ ids ↔ IsMember g cs) → replay hash n cs = ofGroups hash n ids) ∧
      (∀ cs', Apart hash n cs' → (∀ g, IsMember g cs' ↔ IsMember g cs) →
        ∀ key, (replay hash n cs').owner? hash key = (replay hash n cs).owner? hash key) ∧
      ∀ g, IsMember g cs → replay hash n (cs ++ [.remove g, .add g]) = replay hash n cs) ∧
    ∀ ids : List GroupId, cs = ids.map .add →
      (∀ ids', (∀ g, g ∈ ids' ↔ IsMember g cs) → replay hash n cs = ofGroups hash n ids' ∧
        ∀ key, (replay hash n (ids'.map .add)).owner? hash key =
          (replay hash n cs).owner? hash key) ∧
      ∀ p g, (p, g) ∈ (replay hash n cs).points ↔ Lowest hash n (IsMember · cs) p g := by
  constructor
  · intro ha
    have hr := reflects_replay ha
    refine ⟨?_, ?_, ?_⟩
    · intro ids hids
      exact hr.unique ((reflects_ofGroups hash n ids).mono hids)
    · intro cs' ha' hm key
      rw [((reflects_replay ha').mono hm).unique hr]
    · intro g hg
      apply ((reflects_replay (ha.return hg)).mono _).unique hr
      intro o
      have hcs : cs ++ [.remove g, .add g] = cs ++ [.remove g] ++ [.add g] := by simp
      rw [hcs, isMember_concat, isMember_concat]
      by_cases ho : g = o
      · simp [← ho, hg]
      · simp [ho]
  · rintro ids rfl
    rw [replay_map_add]
    refine ⟨?_, ?_⟩
    · intro ids' hm
      have he : ofGroups hash n ids = ofGroups hash n ids' :=
        ofGroups_eq_of_mem_iff hash n fun g => (isMember_map_add.symm.trans (hm g).symm)
      refine ⟨he, fun key => ?_⟩
      rw [replay_map_add, he]
    · intro p g
      rw [mem_iff_ownerAt? (Ring.ascending _)]
      exact ((reflects_ofGroups hash n ids).mono fun g => isMember_map_add.symm).ownerAt?_iff

/-- The last eight bytes as a number, which tells the labels of groups below ten apart. -/
def lastBytes (b : Bytes) : UInt64 := b.foldl (fun n x => n * 256 + x.toUInt64) 0

/-- Three groups come; the first one goes and returns, and the last one goes. -/
def wander : List Change :=
  [1, 2, 3].map .add ++ [.remove 1] ++ [.add 1] ++ [.remove 3]

theorem isMember_wander : IsMember g wander ↔ g = 2 ∨ g = 1 := by
  simp only [wander, isMember_concat, isMember_map_add]
  grind

theorem replay_forgets_wander :
    Apart lastBytes 2 wander ∧ replay lastBytes 2 wander = ofGroups lastBytes 2 [2, 1] ∧
      (replay lastBytes 2 [.add 2, .add 1]).owner? lastBytes [107] =
        (replay lastBytes 2 wander).owner? lastBytes [107] ∧
      replay lastBytes 2 (wander ++ [.remove 2, .add 2]) = replay lastBytes 2 wander ∧
      Lowest (fun _ => 0) 2 (IsMember · [.add 3, .add 1, .add 2]) 0 1 := by
  have ha : Apart lastBytes 2 wander := by decide +kernel
  obtain ⟨hids, hcs, hback⟩ := (replay_forgets lastBytes 2 wander).1 ha
  refine ⟨ha, ?_, ?_, ?_, ?_⟩
  · apply hids
    intro g
    simp [isMember_wander]
  · apply hcs
    · decide +kernel
    · intro g
      have hg : IsMember g ([2, 1].map .add) ↔ g ∈ [2, 1] := isMember_map_add
      rw [isMember_wander]
      simpa using hg
  · apply hback
    simp [isMember_wander]
  · obtain ⟨-, hlow⟩ := (replay_forgets (fun _ => 0) 2 [.add 3, .add 1, .add 2]).2 [3, 1, 2] rfl
    exact (hlow 0 1).mp (by decide)

end Shardway.Ring
