import Shardway.Proofs.Router.Registry
import Shardway.Proofs.Topology.Places

/-!
# The nodes of a snapshot

The groups of a router's current index are the outcome of one round of probes of its nodes. Hence
every configured address has one place in them, whatever the probes found.
-/

namespace Shardway.Router

variable {config : Config.Cluster} {r r' : Router} {resolved : List ResolvedGroup}

/-- The groups of the current index have come out of a round. -/
def FromRound (config : Config.Cluster) (r : Router) : Prop :=
  ∃ round, Round.Runs (ReplicaSet.ofNodes config.nodeList) round ∧
    round.collect.2 = some (.ok r.current.groups)

theorem groups_of_seat {f : Fleet} {slots : List Slot} {opened : Fleet.Reaction}
    {routing : Config.Routing} {generation : Nat} {x : Index}
    (hid : resolved.map (·.id) = groupIds config) (hs : seat resolved f = (.ok slots, opened))
    (hx : Index.build keyHash routing generation slots = .ok x) : x.groups = resolved := by
  have ha : (Index.ids slots).Pairwise (· < ·) :=
    ids_of_seat hid hs ▸ ReplicaSet.pairwise_ofNodes _
  rw [Index.groups, Index.slots_of_build ha hx, map_group_seat hs]

theorem groups_ofResolved {background : Bool} {started : Router} {told : List Effect}
    (hid : resolved.map (·.id) = groupIds config)
    (h : ofResolved config background resolved = (.ok started, told)) :
    started.current.groups = resolved := by
  obtain ⟨slots, opened, x, hs, hx, rfl, -⟩ := ofResolved_eq_ok h
  exact groups_of_seat hid hs hx

theorem groups_install (r : Router) (hid : resolved.map (·.id) = groupIds config) :
    (r.install resolved).2.state.current = r.current ∨
      (r.install resolved).2.state.current.groups = resolved := by
  have hi := installs resolved r
  generalize r.install resolved = x at hi ⊢
  cases hi with
  | closed | fails => exact .inl rfl
  | puts hs hx => exact .inr (groups_of_seat hid hs hx)

theorem FromRound.update (h : r.FromRound config) (hs : r.Steady config) (hu : Update r r') :
    r'.FromRound config := by
  cases hu with
  | refreshes _ => exact h
  | @install round resolved hr ho =>
      rw [hs.sets] at hr
      have hid : resolved.map (·.id) = groupIds config :=
        hr.sane.map_id_outcome (ReplicaSet.pairwise_ofNodes _) ho
      rcases r.groups_install hid with he | he
      · obtain ⟨round', hr', ho'⟩ := h
        exact ⟨round', hr', by rw [he, ho']⟩
      · exact ⟨round, hr, by rw [he, ho]⟩

theorem FromRound.updates (h : r.FromRound config) (hs : r.Steady config) (hu : Updates r r') :
    r'.FromRound config := by
  have : r'.FromRound config ∧ r'.Steady config := by
    induction hu with
    | refl => exact ⟨h, hs⟩
    | tail _ hu ih => exact ⟨ih.1.update ih.2 hu, ih.2.update hu⟩
  exact this.1

theorem Reachable.fromRound (h : Reachable config r) : r.FromRound config := by
  induction h with
  | launch hp hr ho hs =>
      obtain ⟨-, rfl⟩ := plan_eq_ok hp
      have hid := hr.sane.map_id_outcome (ReplicaSet.pairwise_ofNodes _) ho
      exact ⟨_, hr, groups_ofResolved hid hs ▸ ho⟩
  | @step r now m hr ih =>
      rcases hr.running.step now m with hu | rfl | ⟨i, m, rfl⟩
      · exact ih.updates hr.steady hu
      · unfold Router.step Router.shutdown
        dsimp only
        split <;> exact ih
      · exact ih

/-- Of every router and whatever happened to it: each configured address has one place in the
groups of the current index, as a master, a replica or unreachable, and that is in the group that
it is configured for. No other address has a place, and no address is the master of two groups. -/
theorem nodes_placed_once (h : Reachable config r) :
    (r.groups.flatMap (·.addresses)).Nodup ∧
      (∀ a, a ∈ r.groups.flatMap (·.addresses) ↔ ∃ e ∈ config.nodes, e.addr = a) ∧
      (∀ e ∈ config.nodes, ∀ g ∈ r.groups, e.addr ∈ g.addresses ↔ g.id = e.group) ∧
      ∀ g ∈ r.groups, ∀ g' ∈ r.groups, ∀ a, g.masterAddr? = some a → g'.masterAddr? = some a →
        g = g' := by
  obtain ⟨round, hr, ho⟩ := h.fromRound
  obtain ⟨hd, hm, hg⟩ :=
    hr.placed (fun m hm n hn => Config.group_eq_of_addr_eq h.check hm hn) ho
  have he (e : Config.NodeEntry) (he : e ∈ config.nodes) : e.node ∈ config.nodeList :=
    List.mem_map_of_mem he
  refine ⟨hd, fun a => ?_, fun e hmem g hgr => hg e.node (he e hmem) g hgr, ?_⟩
  · rw [Router.groups, hm]
    simp [Config.Cluster.nodeList, Config.NodeEntry.node]
  · intro g hgr g' hgr' a ha ha'
    have hin (x : ResolvedGroup) (hx : x.masterAddr? = some a) : a ∈ x.addresses := by
      obtain ⟨m, hm, rfl⟩ := Option.map_eq_some_iff.mp hx
      simp [ResolvedGroup.addresses, hm]
    have hids : (r.groups.map (·.id)).Nodup := by
      have hs : r.groups.map (·.id) = groupIds config := by
        rw [← h.steady.current.slots, Router.groups, Index.groups, List.map_map]
        rfl
      exact nodup_of_pairwise_lt (hs ▸ ReplicaSet.pairwise_ofNodes _)
    obtain ⟨n, hn, rfl⟩ := (hm a).mp (List.mem_flatMap.mpr ⟨g, hgr, hin g ha⟩)
    refine List.inj_on_of_nodup_map hids hgr hgr' ?_
    exact ((hg n hn g hgr).mp (hin g ha)).trans ((hg n hn g' hgr').mp (hin g' ha')).symm

/-- A group with two nodes at one address, of which only the second one answers. -/
def repeated : Config.Cluster :=
  { nodes := [⟨"b", 7000, 2, 2000⟩, ⟨"a", 7000, 1, 2000⟩, ⟨"c", 7000, 2, 500⟩,
      ⟨"b", 7000, 2, 100⟩] }

theorem nodes_placed_once_repeated :
    ∃ r, Reachable repeated r ∧
      r.groups.map (·.addresses) = [[⟨"a", 7000⟩], [⟨"c", 7000⟩, ⟨"b", 7000⟩]] ∧
      (r.groups.flatMap (·.addresses)).Nodup ∧
      ∀ e ∈ repeated.nodes, ∀ g ∈ r.groups, e.addr ∈ g.addresses ↔ g.id = e.group := by
  have hr : Round.Runs (ReplicaSet.ofNodes repeated.nodeList) _ :=
    (((Round.Runs.start.answer 1 2 (.replica none)).answer 0 0 .master).answer 1 1 .master).answer
      1 0 (.unreachable "refused")
  obtain ⟨started, told, hs⟩ := exists_ofResolved repeated false [
    ⟨1, some ⟨⟨"a", 7000⟩, 1, .ofMillis 2000⟩, [], []⟩,
    ⟨2, some ⟨⟨"c", 7000⟩, 2, .ofMillis 500⟩, [⟨⟨"b", 7000⟩, 2, .ofMillis 100⟩], []⟩]
    (by decide) (by decide) (by decide)
  have h : Reachable repeated started := .launch rfl hr rfl hs
  have hg := groups_ofResolved (by decide) hs
  obtain ⟨hd, -, he, -⟩ := nodes_placed_once h
  exact ⟨_, h, by rw [Router.groups, hg]; rfl, hd, he⟩

end Shardway.Router
