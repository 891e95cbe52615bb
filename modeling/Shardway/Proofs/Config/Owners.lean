import Shardway.Config.Validity

/-!
# One group for each address

A configuration that passes the check lists no address in two groups.
-/

namespace Shardway.Config

/-- Entries with the same address are in the same group. -/
def Agree (entries : List NodeEntry) : Prop :=
  ∀ a ∈ entries, ∀ b ∈ entries, a.addr = b.addr → a.group = b.group

theorem Agree.cons {e : NodeEntry} {r : List NodeEntry} (hr : Agree r)
    (he : ∀ x ∈ r, e.addr = x.addr → e.group = x.group) : Agree (e :: r) := by
  intro a ha b hb hab
  rcases List.mem_cons.mp ha with rfl | har
  · rcases List.mem_cons.mp hb with rfl | hbr
    · rfl
    · exact he b hbr hab
  · rcases List.mem_cons.mp hb with rfl | hbr
    · exact (he a har hab.symm).symm
    · exact hr a har b hbr hab

theorem agree_of_ownerFlaw? {owners : List (Address × GroupId)} {entries : List NodeEntry}
    (h : ownerFlaw? owners entries = none) :
    (∀ e ∈ entries, ∀ o, owners.find? (·.1 = e.addr) = some o → o.2 = e.group) ∧
      Agree entries := by
  induction entries generalizing owners with
  | nil => simp [Agree]
  | cons e r ih =>
      unfold ownerFlaw? at h
      split at h
      · rename_i hn
        obtain ⟨ho, hr⟩ := ih h
        -- Behind it, the entry is the first one to list its address.
        have he : ∀ x ∈ r, e.addr = x.addr → e.group = x.group := fun x hx ha =>
          ho x hx (e.addr, e.group) (by simp [ha])
        have hx : ∀ x ∈ r, ∀ o, owners.find? (·.1 = x.addr) = some o → o.2 = x.group := by
          intro x hx o hf
          refine ho x hx o ?_
          have ha : e.addr ≠ x.addr := by
            intro ha
            rw [ha] at hn
            cases hn.symm.trans hf
          simpa [ha] using hf
        refine ⟨fun x hm o hf => ?_, hr.cons he⟩
        rcases List.mem_cons.mp hm with rfl | hm
        · cases hn.symm.trans hf
        · exact hx x hm o hf
      · rename_i a owner hf
        split at h
        · rename_i hg
          obtain ⟨ho, hr⟩ := ih h
          have he : ∀ x ∈ r, e.addr = x.addr → e.group = x.group := fun x hx ha => by
            rw [← hg]
            exact ho x hx (a, owner) (ha ▸ hf)
          refine ⟨fun x hm o hf' => ?_, hr.cons he⟩
          rcases List.mem_cons.mp hm with rfl | hm
          · cases hf.symm.trans hf'
            exact hg
          · exact ho x hm o hf'
        · cases h

variable {config : Cluster}

theorem ownerFlaw?_of_check (h : config.check = .ok ()) : ownerFlaw? [] config.nodes = none := by
  unfold Cluster.check at h
  split at h
  · cases h
  · rename_i hf
    unfold Cluster.flaw? at hf
    split at hf
    · cases hf
    · simp only [Option.or_eq_none_iff] at hf
      exact hf.2.1

/-- Two nodes of a checked configuration with the same address are in the same group. -/
theorem group_eq_of_addr_eq {m n : Node} (h : config.check = .ok ()) (hm : m ∈ config.nodeList)
    (hn : n ∈ config.nodeList) (ha : m.addr = n.addr) : m.group = n.group := by
  obtain ⟨a, hma, rfl⟩ := List.mem_map.mp hm
  obtain ⟨b, hnb, rfl⟩ := List.mem_map.mp hn
  exact (agree_of_ownerFlaw? (ownerFlaw?_of_check h)).2 a hma b hnb ha

end Shardway.Config
