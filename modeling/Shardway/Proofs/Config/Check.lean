import Shardway.Proofs.Config.Owners

/-!
# Usable configurations

The check accepts just the configurations that are valid. Of the others it finds fault with the
topology if there are no nodes, or if all nodes are usable by themselves and an address stands in
two groups; with a setting otherwise.
-/

namespace Shardway.Config

/-- Two entries give the same address to different groups. -/
def Contested (entries : List NodeEntry) : Prop :=
  ∃ a ∈ entries, ∃ b ∈ entries, a.addr = b.addr ∧ a.group ≠ b.group

theorem not_contested {entries : List NodeEntry} : ¬Contested entries ↔ Agree entries := by
  simp [Contested, Agree]

/-! ## One check at a time -/

/-- A flaw that is no fault of the topology. -/
def Flaw.OfSetting (f : Flaw) : Prop := f.fault = .invalidConfig f.message

theorem NodeEntry.flaw?_eq_none {e : NodeEntry} : e.flaw? = none ↔ e.Valid := by
  unfold NodeEntry.flaw?
  constructor
  · intro h
    split at h
    · cases h
    split at h
    · cases h
    split at h
    · cases h
    · rename_i hh hp ht
      exact ⟨hh, hp, by omega, by omega⟩
  · rintro ⟨hh, hp, hlo, hhi⟩
    have ht : ¬(e.timeoutMs = 0 ∨ e.timeoutMs > longestTimeoutMs) := by omega
    rw [if_neg hh, if_neg hp, if_neg ht]

theorem NodeEntry.ofSetting_of_flaw? {e : NodeEntry} {f : Flaw} (h : e.flaw? = some f) :
    f.OfSetting := by
  unfold NodeEntry.flaw? at h
  split at h
  · cases h
    rfl
  split at h
  · cases h
    rfl
  split at h
  · cases h
    rfl
  · cases h

theorem Routing.flaw?_eq_none {r : Routing} : r.flaw? = none ↔ r.Valid := by
  unfold Routing.flaw? Routing.Valid
  simp [Nat.pos_iff_ne_zero]

theorem Routing.ofSetting_of_flaw? {r : Routing} {f : Flaw} (h : r.flaw? = some f) :
    f.OfSetting := by
  unfold Routing.flaw? at h
  split at h
  · cases h
    rfl
  · cases h

theorem PoolTuning.flaw?_eq_none {p : PoolTuning} : p.flaw? = none ↔ p.Valid := by
  unfold PoolTuning.flaw?
  constructor
  · intro h
    split at h
    · cases h
    split at h
    · cases h
    split at h
    · cases h
    · exact ⟨by omega, by omega, by omega⟩
  · rintro ⟨ht, hlo, hhi⟩
    rw [if_neg (by omega), if_neg (by omega), if_neg (by omega)]

theorem PoolTuning.ofSetting_of_flaw? {p : PoolTuning} {f : Flaw} (h : p.flaw? = some f) :
    f.OfSetting := by
  unfold PoolTuning.flaw? at h
  split at h
  · cases h
    rfl
  split at h
  · cases h
    rfl
  split at h
  · cases h
    rfl
  · cases h

/-! ## Owners of addresses -/

/-- What the search through the owners finds is an entry whose address was given to another group:
by one of the owners, or by an earlier entry. -/
theorem exists_of_ownerFlaw? {owners : List (Address × GroupId)} {entries : List NodeEntry}
    {f : Flaw} (h : ownerFlaw? owners entries = some f) :
    ∃ e ∈ entries, ∃ g, f = .twoGroups e.host e.port g e.group ∧ g ≠ e.group ∧
      ((e.addr, g) ∈ owners ∨ ∃ a ∈ entries, a.addr = e.addr ∧ a.group = g) := by
  induction entries generalizing owners with
  | nil => cases h
  | cons x r ih =>
      unfold ownerFlaw? at h
      split at h
      · obtain ⟨e, he, g, hf, hg, ho | ⟨a, ha, hag⟩⟩ := ih h
        · refine ⟨e, List.mem_cons_of_mem _ he, g, hf, hg, ?_⟩
          rcases List.mem_cons.mp ho with ho | ho
          · -- The owner is the entry that the search has just passed.
            obtain ⟨ha, rfl⟩ := Prod.mk.inj ho
            exact .inr ⟨x, List.mem_cons_self, ha.symm, rfl⟩
          · exact .inl ho
        · exact ⟨e, List.mem_cons_of_mem _ he, g, hf, hg,
            .inr ⟨a, List.mem_cons_of_mem _ ha, hag⟩⟩
      · rename_i b g hb
        split at h
        · obtain ⟨e, he, g, hf, hg, ho | ⟨a, ha, hag⟩⟩ := ih h
          · exact ⟨e, List.mem_cons_of_mem _ he, g, hf, hg, .inl ho⟩
          · exact ⟨e, List.mem_cons_of_mem _ he, g, hf, hg,
              .inr ⟨a, List.mem_cons_of_mem _ ha, hag⟩⟩
        · rename_i hg
          cases h
          have ha : b = x.addr := by simpa using List.find?_some hb
          exact ⟨x, List.mem_cons_self, g, rfl, hg, .inl (ha ▸ List.mem_of_find?_eq_some hb)⟩

theorem contested_of_ownerFlaw? {entries : List NodeEntry} {f : Flaw}
    (h : ownerFlaw? [] entries = some f) : Contested entries := by
  obtain ⟨e, he, g, -, hg, ho | ⟨a, ham, haddr, rfl⟩⟩ := exists_of_ownerFlaw? h
  · cases ho
  · exact ⟨a, ham, e, he, haddr, hg⟩

/-- Wherever in the list two groups are given one address, the search finds it out. -/
theorem ownerFlaw?_eq_none {entries : List NodeEntry} :
    ownerFlaw? [] entries = none ↔ Agree entries := by
  constructor
  · exact fun h => (agree_of_ownerFlaw? h).2
  · intro ha
    cases hf : ownerFlaw? [] entries with
    | none => rfl
    | some f => exact absurd (contested_of_ownerFlaw? hf) (not_contested.mpr ha)

theorem fault_of_ownerFlaw? {owners : List (Address × GroupId)} {entries : List NodeEntry}
    {f : Flaw} (h : ownerFlaw? owners entries = some f) : f.fault = .invalidTopology f.message := by
  obtain ⟨e, -, g, rfl, -⟩ := exists_of_ownerFlaw? h
  rfl

/-! ## All checks -/

namespace Cluster

/-- There are no nodes, or nothing is wrong with them but that two groups have the same address. -/
def BadTopology (c : Cluster) : Prop :=
  c.nodes = [] ∨ (∀ e ∈ c.nodes, e.Valid) ∧ Contested c.nodes

variable {c : Cluster} {f : Flaw}

theorem flaw?_eq_none : c.flaw? = none ↔ c.Valid := by
  have he : c.nodes.findSome? NodeEntry.flaw? = none ↔ ∀ e ∈ c.nodes, e.Valid := by
    simp only [List.findSome?_eq_none_iff, NodeEntry.flaw?_eq_none]
  unfold flaw?
  constructor
  · intro h
    split at h
    · cases h
    · rename_i hn
      simp only [Option.or_eq_none_iff, he, ownerFlaw?_eq_none, Routing.flaw?_eq_none,
        PoolTuning.flaw?_eq_none] at h
      obtain ⟨hv, ha, hr, hp⟩ := h
      exact ⟨hn, hv, ha, hr, hp⟩
  · rintro ⟨hn, hv, ha, hr, hp⟩
    rw [if_neg hn, he.mpr hv, ownerFlaw?_eq_none.mpr ha, Routing.flaw?_eq_none.mpr hr,
      PoolTuning.flaw?_eq_none.mpr hp]
    rfl

/-- The flaw that is found lies in the topology just if the topology is bad. -/
theorem fault_of_flaw? (h : c.flaw? = some f) :
    c.BadTopology ∧ f.fault = .invalidTopology f.message ∨ ¬c.BadTopology ∧ f.OfSetting := by
  unfold flaw? at h
  split at h
  · rename_i hn
    cases h
    exact .inl ⟨.inl hn, rfl⟩
  rename_i hn
  rcases Option.or_eq_some_iff.mp h with he | ⟨he, h⟩
  · -- An entry is not usable by itself.
    obtain ⟨e, hm, hf⟩ := List.exists_of_findSome?_eq_some he
    refine .inr ⟨?_, NodeEntry.ofSetting_of_flaw? hf⟩
    rintro (hn' | ⟨hv, -⟩)
    · exact hn hn'
    · rw [NodeEntry.flaw?_eq_none.mpr (hv e hm)] at hf
      cases hf
  have hv : ∀ e ∈ c.nodes, e.Valid := fun e hm =>
    NodeEntry.flaw?_eq_none.mp (List.findSome?_eq_none_iff.mp he e hm)
  rcases Option.or_eq_some_iff.mp h with ho | ⟨ho, h⟩
  · exact .inl ⟨.inr ⟨hv, contested_of_ownerFlaw? ho⟩, fault_of_ownerFlaw? ho⟩
  · have hb : ¬c.BadTopology := by
      rintro (hn' | ⟨-, hc⟩)
      · exact hn hn'
      · exact not_contested.mpr (ownerFlaw?_eq_none.mp ho) hc
    rcases Option.or_eq_some_iff.mp h with hr | ⟨-, hp⟩
    · exact .inr ⟨hb, Routing.ofSetting_of_flaw? hr⟩
    · exact .inr ⟨hb, PoolTuning.ofSetting_of_flaw? hp⟩

/-- A bad topology is never valid. -/
theorem BadTopology.not_valid (h : c.BadTopology) : ¬c.Valid := by
  rintro ⟨hn, -, ha, -⟩
  rcases h with hn' | ⟨-, hc⟩
  · exact hn hn'
  · exact not_contested.mpr ha hc

/-- The check accepts a configuration just if it is valid: there are nodes; each has a host that is
not blank, a port other than 0 and a timeout of at most an hour; no address is in two groups; a ring
has points; and the bounds of the pools are in order. Otherwise the topology is at fault just if
there are no nodes, or each node is usable by itself and an address is in two groups; in all other
cases a setting is. -/
theorem check_iff_valid (c : Cluster) :
    (c.check = .ok () ↔ c.Valid) ∧
      ((∃ text, c.check = .error (.invalidTopology text)) ↔
        c.nodes = [] ∨ (∀ e ∈ c.nodes, e.Valid) ∧
          ∃ a ∈ c.nodes, ∃ b ∈ c.nodes, a.addr = b.addr ∧ a.group ≠ b.group) ∧
      ((∃ text, c.check = .error (.invalidConfig text)) ↔
        ¬c.Valid ∧ ¬(c.nodes = [] ∨ (∀ e ∈ c.nodes, e.Valid) ∧
          ∃ a ∈ c.nodes, ∃ b ∈ c.nodes, a.addr = b.addr ∧ a.group ≠ b.group)) := by
  change _ ∧ (_ ↔ c.BadTopology) ∧ (_ ↔ _ ∧ ¬c.BadTopology)
  unfold check
  cases hf : c.flaw? with
  | none =>
      have hv : c.Valid := flaw?_eq_none.mp hf
      have hb : ¬c.BadTopology := fun hb => hb.not_valid hv
      simp [hv, hb]
  | some f =>
      have hv : ¬c.Valid := fun hv => by
        cases hf.symm.trans (flaw?_eq_none.mpr hv)
      rcases fault_of_flaw? hf with ⟨hb, ht⟩ | ⟨hb, hs⟩
      · simp [hv, hb, ht]
      · have hs : f.fault = .invalidConfig f.message := hs
        simp [hv, hb, hs]

end Cluster

end Shardway.Config
