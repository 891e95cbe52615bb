import Shardway.Client.Basic
import Shardway.Proofs.Router.Closing
import Mathlib

/-!
# Runs of a client

Whatever a client does, its router makes one move at most. So the index and the registry of a client
agree until something is shut down.
-/

namespace Shardway.Client

variable {c : Client} {t : Ticket} {now : Nat}

/-! ## The router of a client -/

theorem settle_router {call : Call} {outcome : Except Fault Reply} :
    (c.settle t call outcome).state.router = c.router := by
  unfold settle
  split
  · rfl
  · split <;> rfl

theorem hear_router {i : PoolId} {e : Pool.Effect} : (c.hear i e).state.router = c.router := by
  unfold hear
  split
  · split <;> rfl
  · split
    · exact settle_router
    · rfl
  · split
    · split
      · exact settle_router
      · rfl
    · rfl
  · rfl

theorem hearAll_router (es : List Effect) : (hearAll es c).state.router = c.router := by
  induction es generalizing c with
  | nil => rfl
  | cons e es ih =>
      simp only [hearAll, Reaction.andThen_state]
      rw [ih]
      split
      · exact hear_router
      · rfl

theorem onRouter_router (f : Router → Router.Reaction) :
    (c.onRouter f).state.router = (f c.router).state := hearAll_router _

/-- A move that does not shut anything down. -/
def Move.Serves : Move → Prop
  | .shutdown => False
  | .pool _ .shutdown => False
  | _ => True

/-- An attempt asks at most one pool for a connection. -/
theorem attempt_router {call : Call} :
    (c.attempt now t call).state.router = c.router ∨
      ∃ i, (c.attempt now t call).state.router = (c.router.step now (.pool i (.borrow t))).state := by
  unfold attempt
  split
  · exact .inl settle_router
  · exact .inr ⟨_, onRouter_router _⟩

/-- With each move of a client its router makes one move, or none. -/
theorem step_router (c : Client) (now : Nat) (m : Move) :
    (c.step now m).state.router = c.router ∨
      ∃ m' : Router.Move, (m.Serves → m'.Serves) ∧
        (c.step now m).state.router = (c.router.step now m').state := by
  have ha (t : Ticket) (call : Call) :
      (c.attempt now t call).state.router = c.router ∨
        ∃ m' : Router.Move, (m.Serves → m'.Serves) ∧
          (c.attempt now t call).state.router = (c.router.step now m').state :=
    attempt_router.imp_right fun ⟨i, hi⟩ => ⟨.pool i (.borrow t), fun _ => trivial, hi⟩
  cases m with
  | call t key request attempts => exact ha t _
  | woken t =>
      simp only [step, woken]
      split
      · split
        · exact ha t _
        · exact .inl rfl
      · exact .inl rfl
  | replied t outcome =>
      simp only [step, replied]
      split
      · split
        · rename_i i link _
          exact .inr ⟨.pool i (.giveBack t link (isHealthy outcome)), fun _ => trivial,
            onRouter_router _⟩
        · exact .inl rfl
      · exact .inl rfl
  | pool i m =>
      refine .inr ⟨.pool i m, fun hs => ?_, onRouter_router _⟩
      cases m <;> exact hs
  | refresh t => exact .inr ⟨.refresh t, fun _ => trivial, onRouter_router _⟩
  | resume t => exact .inr ⟨.resume t, fun _ => trivial, onRouter_router _⟩
  | probed t i j role => exact .inr ⟨.probed t i j role, fun _ => trivial, onRouter_router _⟩
  | brokeOff t i reason => exact .inr ⟨.brokeOff t i reason, fun _ => trivial, onRouter_router _⟩
  | abandonRefresh t => exact .inr ⟨.abandon t, fun _ => trivial, onRouter_router _⟩
  | shutdown => exact .inr ⟨.shutdown, fun hs => hs, onRouter_router _⟩

theorem reachable_step {config : Config.Cluster} (h : Router.Reachable config c.router) (now : Nat)
    (m : Move) : Router.Reachable config (c.step now m).state.router := by
  rcases c.step_router now m with hr | ⟨m', -, hr⟩
  · exact hr ▸ h
  · exact hr ▸ h.step now m'

/-! ## Serving -/

/-- The clients that a configuration can lead to while nothing is shut down. -/
inductive Serving (config : Config.Cluster) : Client → Prop
  | launch {sets : List ReplicaSet} {round : Round} {background : Bool}
      {resolved : List ResolvedGroup} {started : Router} {told : List Effect} :
      Router.plan config = .ok sets → Round.Runs sets round →
      round.collect.2 = some (.ok resolved) →
      Router.ofResolved config background resolved = (.ok started, told) →
      Serving config ⟨started, []⟩
  | step {c : Client} {m : Move} (now : Nat) :
      Serving config c → m.Serves → Serving config (c.step now m).state

variable {config : Config.Cluster}

theorem Serving.router (h : Serving config c) : Router.Serving config c.router := by
  induction h with
  | launch hp hr ho hs => exact .launch hp hr ho hs
  | @step c m now _ hm ih =>
      rcases c.step_router now m with hr | ⟨m', hm', hr⟩
      · exact hr ▸ ih
      · exact hr ▸ ih.step now (hm' hm)

/-- The client after these moves, each at its time. -/
def play (moves : List (Nat × Move)) (c : Client) : Client :=
  moves.foldl (fun c (now, m) => (c.step now m).state) c

theorem Serving.play (h : Serving config c) (moves : List (Nat × Move))
    (hm : ∀ x ∈ moves, x.2.Serves) : Serving config (c.play moves) := by
  induction moves generalizing c with
  | nil => exact h
  | cons m moves ih =>
      exact ih (h.step m.1 (hm m List.mem_cons_self)) fun x hx => hm x (List.mem_cons_of_mem _ hx)

/-- While a client serves, its index and its registry agree. The slots are the configured groups by
ascending id. A slot has a pool just when its group has a master; this is the pool that is
registered for the master's address, open and of a node of that address and group, and no other slot
has it. Nothing else is registered than the masters' addresses. -/
theorem registry_agrees (h : Serving config c) :
    (Index.ids c.router.current.slots).Pairwise (· < ·) ∧
      (∀ g, g ∈ Index.ids c.router.current.slots ↔ ∃ e ∈ config.nodes, e.group = g) ∧
      (∀ slot ∈ c.router.current.slots, slot.pool.isSome = slot.group.hasMaster) ∧
      (∀ slot ∈ c.router.current.slots, ∀ m, slot.group.master = some m →
        ∃ i p, slot.pool = some i ∧ c.router.fleet.get? m.addr = some i ∧
          c.router.fleet.pools[i]? = some p ∧ p.closed = false ∧ p.addr = m.addr ∧
          p.node.group = slot.group.id) ∧
      (c.router.current.slots.filterMap (·.pool)).Nodup ∧
      ∀ a, a ∈ c.router.fleet.addresses ↔ a ∈ c.router.current.masterAddresses := by
  obtain ⟨ho, hp⟩ := h.router.allOpen
  have ha := h.router.reachable.aligned ho
  have hs := h.router.reachable.steady
  have hc := h.router.reachable.check
  have hi : Index.ids c.router.current.slots = Router.groupIds config := hs.current.slots
  refine ⟨hi ▸ ReplicaSet.pairwise_ofNodes _, fun g => hi ▸ Router.mem_groupIds,
    fun slot hm => ha.isSome_pool hm, fun slot hm m hg => ?_, ha.nodup_pools hs hc,
    fun a => ha.mem_addresses⟩
  obtain ⟨i, p, hi, hr, hq, ha, hn⟩ := ha.pool_of_master hs hc hm hg
  exact ⟨i, p, hi, hr, hq, hp p (List.mem_of_getElem? hq), ha, hn⟩

/-- A refresh that breaks off, and another one that finds the first group without a master and the
second one with a new one. -/
def failover : List (Nat × Move) :=
  [(0, .refresh 0), (1, .refresh 1), (2, .brokeOff 0 1 "task 9 panicked"), (2, .resume 0),
    (3, .resume 1), (4, .probed 1 1 1 .master), (5, .probed 1 0 0 (.unreachable "refused")),
    (6, .probed 1 1 0 (.replica none)), (6, .resume 1)]

theorem registry_agrees_failover :
    ∃ c, Serving Router.trio c ∧ c.router.current.masterAddresses = [⟨"c", 7000⟩] ∧
      (∀ a, a ∈ c.router.fleet.addresses ↔ a ∈ [⟨"c", 7000⟩]) ∧
      (∀ slot ∈ c.router.current.slots, slot.pool.isSome = slot.group.hasMaster) ∧
      (c.router.current.slots.filterMap (·.pool)).Nodup := by
  obtain ⟨_, _, started, _, hp, hn, ho, hs⟩ := Router.exists_launch_trio
  have h := Serving.launch hp hn ho hs
  have h' := h.play failover (by simp [failover, Move.Serves])
  have hm : (play failover ⟨started, []⟩).router.current.masterAddresses = [⟨"c", 7000⟩] := by
    have hr : (Router.ofResolved Router.trio false Router.trioGroups).1.toOption.map
        (fun r => (play failover ⟨r, []⟩).router.current.masterAddresses) =
          some [⟨"c", 7000⟩] := by cbv
    rw [hs] at hr
    exact Option.some.inj hr
  obtain ⟨-, -, hp, -, hn, ha⟩ := registry_agrees h'
  exact ⟨_, h', hm, hm ▸ ha, hp, hn⟩

end Shardway.Client
