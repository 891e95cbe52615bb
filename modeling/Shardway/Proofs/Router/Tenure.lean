import Shardway.Proofs.Pool.Closing
import Shardway.Proofs.Router.Closing

/-!
# Tenure of registered pools

The registry over whole runs: for each address, a pool is registered from the request that opens it
up to the first one that does not keep its address. Meanwhile the pools move as their holders
please.
-/

namespace Shardway.Fleet

/-- What is asked of the registry, and what is done to the pools meanwhile. -/
inductive Request
  | getOrOpen (n : Node)
  | retainOnly (keep : List Address)
  | shutdownAll
  | pool (i : PoolId) (m : Pool.Move)

/-- What the registry has been asked for, with its answers. -/
inductive Event
  | got (n : Node) (result : Except Fault PoolId)
  | retained (keep : List Address) (removed : List (Address × PoolId))
  | shutDown

/-- With the event an address loses its pool, if it has one. -/
def Event.Removes (a : Address) : Event → Prop
  | .got .. => False
  | .retained keep _ => a ∉ keep
  | .shutDown => True

/-- The pools, with all that the registry has been asked for. -/
structure Story where
  fleet : Fleet
  past : List Event := []

namespace Story

def next (s : Story) (now : Nat) : Request → Story
  | .getOrOpen n =>
    match s.fleet.getOrOpen n with
    | .ok (i, r) => ⟨r.state, s.past ++ [.got n (.ok i)]⟩
    | .error f => ⟨s.fleet, s.past ++ [.got n (.error f)]⟩
  | .retainOnly keep => ⟨s.fleet.retainOnly keep, s.past ++ [.retained keep (s.fleet.stale keep)]⟩
  | .shutdownAll => ⟨(s.fleet.shutdownAll now).state, s.past ++ [.shutDown]⟩
  | .pool i m => ⟨(s.fleet.step now i m).state, s.past⟩

/-- The requests come one after the other, each at its time. -/
def play (requests : List (Nat × Request)) (s : Story) : Story :=
  requests.foldl (fun s q => s.next q.1 q.2) s

end Story

variable {f : Fleet} {n m : Node} {a : Address} {i j : PoolId} {now : Nat} {s : Story}
  {past before after : List Event}

/-! ## Look-ups after changes -/

theorem get?_openPool_self (h : f.get? n.addr = none) :
    (f.openPool n).state.get? n.addr = some f.pools.length := by
  have hf : f.registered.find? (·.1 = n.addr) = none := Option.map_eq_none_iff.mp h
  simp [get?, openPool, List.find?_append, hf]

theorem get?_retainOnly (keep : List Address) (a : Address) :
    (f.retainOnly keep).get? a = if a ∈ keep then f.get? a else none := by
  unfold get? retainOnly
  rw [List.find?_filter]
  split
  · rename_i ha
    congr 2
    funext e
    by_cases he : e.1 = a
    · simp [he, ha]
    · simp [he]
  · rename_i ha
    rw [Option.map_eq_none_iff, List.find?_eq_none]
    intro e _ he
    simp only [decide_eq_true_eq] at he
    exact ha (he.2 ▸ he.1)

theorem get?_of_registered {g : Fleet} (h : g.registered = f.registered) (a : Address) :
    g.get? a = f.get? a := by
  rw [get?, get?, h]

theorem mem_stale {keep : List Address} (h : (f.registered.map (·.1)).Nodup) :
    (a, i) ∈ f.stale keep ↔ f.get? a = some i ∧ a ∉ keep := by
  simp only [stale, List.mem_filter, decide_eq_true_eq]
  exact and_congr_left fun _ => ⟨get?_of_mem h, mem_of_get?⟩

theorem nodup_stale {keep : List Address} (h : (f.registered.map (·.1)).Nodup) :
    ((f.stale keep).map (·.1)).Nodup :=
  (List.filter_sublist.map _).nodup h

/-! ## Pools that are shut down -/

theorem pool_step {p : Pool} (now : Nat) (j : PoolId) (m : Pool.Move) (h : f.pools[i]? = some p) :
    (f.step now j m).state.pools[i]? = some (if i = j then (p.step now m).state else p) := by
  unfold Fleet.step
  split
  · rename_i hj
    have hij : i ≠ j := by
      rintro rfl
      cases h.symm.trans hj
    rw [if_neg hij, h]
  · rename_i q hj
    split
    · rename_i hij
      subst hij
      cases h.symm.trans hj
      exact List.getElem?_set_self (List.getElem?_eq_some_iff.mp h).1
    · rename_i hij
      exact (List.getElem?_set_ne (Ne.symm hij)).trans h

/-- Just the pools of these numbers are shut down. -/
theorem pool_shutdownEach {p : Pool} {ids : List PoolId} (h : f.pools[i]? = some p) :
    (f.shutdownEach now ids).state.pools[i]? =
      some (if i ∈ ids then p.shutdown.state else p) := by
  induction ids generalizing f p with
  | nil => simpa [shutdownEach] using h
  | cons j ids ih =>
      have hs := ih (pool_step now j .shutdown h)
      rw [shutdownEach, Reaction.andThen_state, hs]
      by_cases hij : i = j
      · subst hij
        -- To shut down a pool once more changes nothing.
        simp [Pool.step, Pool.shutdown_shutdown]
      · simp [hij]

theorem mem_map_snd (h : (f.registered.map (·.1)).Nodup) :
    i ∈ f.registered.map (·.2) ↔ ∃ a, f.get? a = some i := by
  constructor
  · intro hm
    obtain ⟨⟨a, j⟩, he, rfl⟩ := List.mem_map.mp hm
    exact ⟨a, get?_of_mem h he⟩
  · rintro ⟨a, ha⟩
    exact List.mem_map_of_mem (mem_of_get? ha)

theorem pool_shutdownAll {p : Pool} (h : f.pools[i]? = some p) :
    (f.shutdownAll now).state.pools[i]? =
      some (if i ∈ f.registered.map (·.2) then p.shutdown.state else p) :=
  pool_shutdownEach (f := { f with registered := [], closed := true }) h

theorem pool_shutdownAll_of_get? {p : Pool} (hn : (f.registered.map (·.1)).Nodup)
    (h : f.pools[i]? = some p) (ha : f.get? a = some i) :
    (f.shutdownAll now).state.pools[i]? = some p.shutdown.state := by
  rw [pool_shutdownAll h, if_pos ((mem_map_snd hn).mpr ⟨a, ha⟩)]

theorem pool_shutdownAll_of_get?_ne {p : Pool} (hn : (f.registered.map (·.1)).Nodup)
    (h : f.pools[i]? = some p) (ha : ∀ a, f.get? a ≠ some i) :
    (f.shutdownAll now).state.pools[i]? = some p := by
  rw [pool_shutdownAll h, if_neg]
  intro hm
  obtain ⟨a, hi⟩ := (mem_map_snd hn).mp hm
  exact ha a hi

theorem registered_shutdownAll : (f.shutdownAll now).state.registered = [] :=
  (f.rests_shutdownAll now).registered

theorem closed_shutdownAll : (f.shutdownAll now).state.closed = true :=
  (f.rests_shutdownAll now).closed

/-! ## One request -/

theorem getOrOpen_of_closed (h : f.closed = true) : f.getOrOpen n = .error .shutdown := by
  rw [getOrOpen, if_pos h]

theorem getOrOpen_of_get? (h : f.closed = false) (hg : f.get? n.addr = some i) :
    f.getOrOpen n = .ok (i, ⟨f, []⟩) := by
  simp [getOrOpen, h, hg]

theorem getOrOpen_of_not_registered (h : f.closed = false) (hg : f.get? n.addr = none) :
    f.getOrOpen n = .ok (f.pools.length, f.openPool n) := by
  simp [getOrOpen, h, hg]

/-- The answer that is due to a request for the pool of `m` after these events. -/
structure Due (before : List Event) (m : Node) (r : Except Fault PoolId) : Prop where
  refused : .shutDown ∈ before → r = .error .shutdown
  /-- It is the pool of an earlier answer just if that was for the same address, and no request has
  removed it since. -/
  served : .shutDown ∉ before → ∃ j, r = .ok j ∧ ∀ earlier since n i,
    before = earlier ++ .got n (.ok i) :: since →
      (j = i ↔ n.addr = m.addr ∧ ∀ e ∈ since, ¬e.Removes m.addr)

namespace Story

/-- What holds of the registry all along. -/
structure Kept (s : Story) : Prop where
  nodup : (s.fleet.registered.map (·.1)).Nodup
  shut : .shutDown ∈ s.past ↔ s.fleet.closed = true
  empty : s.fleet.closed = true → s.fleet.registered = []
  /-- A registered pool is one of its address, so no two addresses have the same. -/
  pool : ∀ a i, s.fleet.get? a = some i → ∃ p, s.fleet.pools[i]? = some p ∧ p.addr = a
  /-- A pool is registered from the answer that told it up to its removal. -/
  held : ∀ before after n i, s.past = before ++ .got n (.ok i) :: after →
    i < s.fleet.pools.length ∧
      ∀ a, s.fleet.get? a = some i ↔ a = n.addr ∧ ∀ e ∈ after, ¬e.Removes a
  due : ∀ before after n r, s.past = before ++ .got n r :: after → Due before n r

theorem Kept.lt_length (h : s.Kept) (ha : s.fleet.get? a = some i) : i < s.fleet.pools.length := by
  obtain ⟨p, hp, -⟩ := h.pool a i ha
  exact (List.getElem?_eq_some_iff.mp hp).1

theorem Kept.addr_eq {b : Address} (h : s.Kept) (ha : s.fleet.get? a = some i)
    (hb : s.fleet.get? b = some i) : a = b := by
  obtain ⟨p, hp, rfl⟩ := h.pool a i ha
  obtain ⟨q, hq, rfl⟩ := h.pool b i hb
  cases hp.symm.trans hq
  rfl

theorem Kept.due_closed (h : s.Kept) (hc : s.fleet.closed = true) :
    Due s.past n (.error .shutdown) :=
  ⟨fun _ => rfl, fun hs => absurd (h.shut.mpr hc) hs⟩

theorem Kept.due_found (h : s.Kept) (hc : s.fleet.closed = false)
    (hg : s.fleet.get? n.addr = some i) : Due s.past n (.ok i) where
  refused := fun hs => by cases hc.symm.trans (h.shut.mp hs)
  served := fun _ => by
    refine ⟨i, rfl, fun earlier since m j hp => ?_⟩
    obtain ⟨-, hj⟩ := h.held earlier since m j hp
    constructor
    · rintro rfl
      obtain ⟨ha, he⟩ := (hj n.addr).mp hg
      exact ⟨ha.symm, he⟩
    · rintro ⟨ha, he⟩
      exact Option.some.inj (hg.symm.trans ((hj n.addr).mpr ⟨ha.symm, he⟩))

theorem Kept.due_opened (h : s.Kept) (hc : s.fleet.closed = false)
    (hg : s.fleet.get? n.addr = none) : Due s.past n (.ok s.fleet.pools.length) where
  refused := fun hs => by cases hc.symm.trans (h.shut.mp hs)
  served := fun _ => by
    refine ⟨_, rfl, fun earlier since m j hp => ?_⟩
    obtain ⟨hl, hj⟩ := h.held earlier since m j hp
    constructor
    · rintro rfl
      exact absurd hl (Nat.lt_irrefl _)
    · rintro ⟨ha, he⟩
      cases hg.symm.trans ((hj n.addr).mpr ⟨ha.symm, he⟩)

/-- The registry has answered, and what is registered has changed just as the answer says. -/
theorem Kept.extend {e : Event} {g : Fleet} (h : s.Kept) (hn : (g.registered.map (·.1)).Nodup)
    (hs : g.closed = true ↔ s.fleet.closed = true ∨ e = .shutDown)
    (he : g.closed = true → g.registered = [])
    (hp : ∀ a i, g.get? a = some i → ∃ p, g.pools[i]? = some p ∧ p.addr = a)
    (hl : s.fleet.pools.length ≤ g.pools.length)
    (hold : ∀ a i, i < s.fleet.pools.length →
      (g.get? a = some i ↔ s.fleet.get? a = some i ∧ ¬e.Removes a))
    (hnew : ∀ n i, e = .got n (.ok i) →
      i < g.pools.length ∧ ∀ a, g.get? a = some i ↔ a = n.addr)
    (hdue : ∀ n r, e = .got n r → Due s.past n r) : Kept ⟨g, s.past ++ [e]⟩ where
  nodup := hn
  shut := by
    rw [hs, List.mem_append, h.shut, List.mem_singleton, eq_comm (a := e)]
  empty := he
  pool := hp
  held := fun before after n i hpast => by
    rcases Pool.split_of_concat hpast with ⟨after', rfl, hq⟩ | ⟨rfl, hx, rfl⟩
    · obtain ⟨hi, ha⟩ := h.held before after' n i hq
      refine ⟨Nat.lt_of_lt_of_le hi hl, fun a => ?_⟩
      rw [hold a i hi, ha a]
      simp only [List.forall_mem_append, List.forall_mem_singleton, and_assoc]
    · obtain ⟨hi, ha⟩ := hnew n i hx.symm
      refine ⟨hi, fun a => (ha a).trans ?_⟩
      simp
  due := fun before after n r hpast => by
    rcases Pool.split_of_concat hpast with ⟨after', -, hq⟩ | ⟨rfl, hx, -⟩
    · exact h.due before after' n r hq
    · exact hdue n r hx.symm

theorem Kept.pool_openPool (h : s.Kept) (hg : s.fleet.get? n.addr = none)
    (ha : (s.fleet.openPool n).state.get? a = some i) :
    ∃ p, (s.fleet.openPool n).state.pools[i]? = some p ∧ p.addr = a := by
  by_cases hn : a = n.addr
  · subst hn
    cases (get?_openPool_self hg).symm.trans ha
    exact ⟨.ofNode n s.fleet.tuning, by simp [openPool], rfl⟩
  · rw [get?_openPool_of_ne hn] at ha
    obtain ⟨p, hp, hq⟩ := h.pool a i ha
    exact ⟨p, (List.getElem?_append_left (h.lt_length ha)).trans hp, hq⟩

theorem Kept.getOrOpen (h : s.Kept) : (s.next now (.getOrOpen n)).Kept := by
  unfold next
  cases hc : s.fleet.closed with
  | true =>
      simp only [getOrOpen_of_closed hc]
      refine h.extend h.nodup (by simp) h.empty h.pool (Nat.le_refl _) ?_ (by simp) ?_
      · simp [Event.Removes]
      · intro m r he
        cases he
        exact h.due_closed hc
  | false =>
      cases hg : s.fleet.get? n.addr with
      | some i =>
          simp only [getOrOpen_of_get? hc hg]
          refine h.extend h.nodup (by simp) h.empty h.pool (Nat.le_refl _) ?_ ?_ ?_
          · simp [Event.Removes]
          · intro m j he
            cases he
            refine ⟨h.lt_length hg, fun a => ⟨fun ha => h.addr_eq ha hg, ?_⟩⟩
            rintro rfl
            exact hg
          · intro m r he
            cases he
            exact h.due_found hc hg
      | none =>
          simp only [getOrOpen_of_not_registered hc hg]
          refine h.extend (nodup_openPool h.nodup hg) ?_ ?_ ?_ ?_ ?_ ?_ ?_
          · simp [openPool]
          · intro hc'
            cases hc.symm.trans hc'
          · exact fun a i => h.pool_openPool hg
          · simp [openPool]
          · intro a i hi
            simp only [Event.Removes, not_false_eq_true, and_true]
            by_cases ha : a = n.addr
            · subst ha
              rw [get?_openPool_self hg, hg]
              simp [Nat.ne_of_gt hi]
            · rw [get?_openPool_of_ne ha]
          · intro m i he
            cases he
            refine ⟨by simp [openPool], fun a => ?_⟩
            constructor
            · intro ha
              by_contra hne
              rw [get?_openPool_of_ne hne] at ha
              exact absurd (h.lt_length ha) (Nat.lt_irrefl _)
            · rintro rfl
              exact get?_openPool_self hg
          · intro m r he
            cases he
            exact h.due_opened hc hg

theorem Kept.retainOnly (h : s.Kept) (keep : List Address) :
    (s.next now (.retainOnly keep)).Kept := by
  have hget {a : Address} {i : PoolId} : (s.fleet.retainOnly keep).get? a = some i ↔
      s.fleet.get? a = some i ∧ a ∈ keep := by
    rw [get?_retainOnly]
    split
    · simp [*]
    · simp [*]
  apply h.extend (nodup_retainOnly h.nodup keep) (by simp [Fleet.retainOnly])
  · intro hc
    simp [Fleet.retainOnly, h.empty hc]
  · exact fun a i ha => h.pool a i (hget.mp ha).1
  · exact Nat.le_refl _
  · intro a i _
    rw [hget]
    simp [Event.Removes]
  · simp
  · simp

theorem Kept.shutdownAll (h : s.Kept) : (s.next now .shutdownAll).Kept := by
  have hr : (s.fleet.shutdownAll now).state.registered = [] := registered_shutdownAll
  have hget (a : Address) : (s.fleet.shutdownAll now).state.get? a = none := by
    rw [get?, hr]
    rfl
  apply h.extend
  · simp [hr]
  · simp [closed_shutdownAll]
  · exact fun _ => hr
  · intro a i ha
    cases (hget a).symm.trans ha
  · have hn := congrArg List.length (s.fleet.rests_shutdownAll now).nodes
    simp only [List.length_map] at hn
    exact Nat.le_of_eq hn.symm
  · intro a i _
    simp [hget, Event.Removes]
  · simp
  · simp

/-- The moves of pools do not concern the registry. -/
theorem Kept.pool_move (h : s.Kept) (j : PoolId) (m : Pool.Move) :
    (s.next now (.pool j m)).Kept := by
  have hr : (s.fleet.step now j m).state.registered = s.fleet.registered := step_registered ..
  have hc : (s.fleet.step now j m).state.closed = s.fleet.closed := step_closed ..
  have hl : (s.fleet.step now j m).state.pools.length = s.fleet.pools.length := by
    have hn := congrArg List.length (s.fleet.rests_step now j m).nodes
    simpa only [List.length_map] using hn
  constructor
  · exact hr ▸ h.nodup
  · exact h.shut.trans (by rw [next, hc])
  · exact fun h' => hr.trans (h.empty (hc.symm.trans h'))
  · intro a i ha
    obtain ⟨p, hp, hq⟩ := h.pool a i (get?_of_registered hr a ▸ ha)
    obtain ⟨q, hq', hn⟩ := exists_pool_step now j m hp
    exact ⟨q, hq', by rw [Pool.addr, hn]; exact hq⟩
  · intro before after n i hp
    obtain ⟨hi, ha⟩ := h.held before after n i hp
    refine ⟨hl.symm ▸ hi, fun a => ?_⟩
    rw [← ha a]
    exact iff_of_eq (congrArg (· = _) (get?_of_registered hr a))
  · exact h.due

theorem Kept.next (h : s.Kept) (now : Nat) (q : Request) : (s.next now q).Kept := by
  cases q with
  | getOrOpen n => exact h.getOrOpen
  | retainOnly keep => exact h.retainOnly keep
  | shutdownAll => exact h.shutdownAll
  | pool j m => exact h.pool_move j m

theorem kept_start (tuning : Config.PoolTuning) (background : Bool) :
    Kept { fleet := { tuning, background } } := by
  constructor <;> simp [get?]

theorem Kept.play (h : s.Kept) (requests : List (Nat × Request)) : (s.play requests).Kept := by
  induction requests generalizing s with
  | nil => exact h
  | cons q requests ih => exact ih (h.next q.1 q.2)

/-- A registry that was shut down stays empty. -/
theorem empty_next (hc : s.fleet.closed = true) (hr : s.fleet.registered = []) (now : Nat)
    (q : Request) :
    (s.next now q).fleet.closed = true ∧ (s.next now q).fleet.registered = [] := by
  cases q with
  | getOrOpen n => simp [Story.next, getOrOpen_of_closed hc, hc, hr]
  | retainOnly keep => simp [Story.next, Fleet.retainOnly, hc, hr]
  | shutdownAll => exact ⟨closed_shutdownAll, registered_shutdownAll⟩
  | pool j m => exact ⟨(step_closed ..).trans hc, (step_registered ..).trans hr⟩

theorem empty_play (hc : s.fleet.closed = true) (hr : s.fleet.registered = [])
    (requests : List (Nat × Request)) :
    (s.play requests).fleet.closed = true ∧ (s.play requests).fleet.registered = [] := by
  induction requests generalizing s with
  | nil => exact ⟨hc, hr⟩
  | cons q requests ih =>
      obtain ⟨hc, hr⟩ := empty_next hc hr q.1 q.2
      exact ih hc hr

/-- All along the requests to a registry, whatever its pools do meanwhile: no address has two pools.
A request for the pool of a node gets one unless the registry was shut down before, and it gets the
pool of an earlier answer just if that was for the same address and no request has removed it since.
To retain the pools of some addresses tells just the pools of the others, unregisters just these,
and leaves all pools as they are. To shut down closes just the pools that are registered then, and
no pool is registered or to be had ever after. -/
theorem tenure (tuning : Config.PoolTuning) (background : Bool) (requests : List (Nat × Request))
    (hs : s = ({ fleet := { tuning, background } } : Story).play requests) :
    (s.fleet.registered.map (·.1)).Nodup ∧
      (∀ before after m r, s.past = before ++ .got m r :: after →
        (.shutDown ∈ before → r = .error .shutdown) ∧
        (.shutDown ∉ before → ∃ j, r = .ok j ∧ ∀ earlier since n i,
          before = earlier ++ .got n (.ok i) :: since →
            (j = i ↔ n.addr = m.addr ∧ ∀ e ∈ since, ¬e.Removes m.addr))) ∧
      (∀ keep, ((s.fleet.stale keep).map (·.1)).Nodup ∧
        (∀ a i, (a, i) ∈ s.fleet.stale keep ↔ s.fleet.get? a = some i ∧ a ∉ keep) ∧
        (∀ a, (s.fleet.retainOnly keep).get? a = if a ∈ keep then s.fleet.get? a else none) ∧
        (s.fleet.retainOnly keep).pools = s.fleet.pools) ∧
      ∀ now, (∀ i p, s.fleet.pools[i]? = some p →
          ((∃ a, s.fleet.get? a = some i) →
            (s.fleet.shutdownAll now).state.pools[i]? = some p.shutdown.state ∧
              p.shutdown.state.closed = true) ∧
          ((∀ a, s.fleet.get? a ≠ some i) →
            (s.fleet.shutdownAll now).state.pools[i]? = some p)) ∧
        ∀ later, ((s.next now .shutdownAll).play later).fleet.registered = [] ∧
          ∀ n, ((s.next now .shutdownAll).play later).fleet.getOrOpen n = .error .shutdown := by
  have h : s.Kept := hs ▸ (kept_start tuning background).play requests
  refine ⟨h.nodup, fun before after m r hp => ?_, fun keep => ?_, fun now => ⟨fun i p hp => ?_, ?_⟩⟩
  · obtain ⟨hr, ho⟩ := h.due before after m r hp
    exact ⟨hr, ho⟩
  · exact ⟨nodup_stale h.nodup, fun a i => mem_stale h.nodup, get?_retainOnly keep, rfl⟩
  · refine ⟨fun ⟨a, ha⟩ => ⟨pool_shutdownAll_of_get? h.nodup hp ha, Pool.closed_shutdown⟩, ?_⟩
    exact pool_shutdownAll_of_get?_ne h.nodup hp
  · intro later
    obtain ⟨hc, hr⟩ := empty_play (s := s.next now .shutdownAll) closed_shutdownAll
      registered_shutdownAll later
    exact ⟨hr, fun n => getOrOpen_of_closed hc⟩

/-- The pool of a node is opened, asked for again while it is in use, removed and opened anew,
before all is shut down. -/
def comeback : List (Nat × Request) :=
  [(0, .getOrOpen ⟨⟨"a", 7000⟩, 1, .ofMillis 500⟩), (1, .pool 0 (.borrow 5)),
    (2, .getOrOpen ⟨⟨"a", 7000⟩, 1, .ofMillis 500⟩), (3, .retainOnly [⟨"b", 7000⟩]),
    (4, .getOrOpen ⟨⟨"a", 7000⟩, 1, .ofMillis 500⟩), (5, .shutdownAll),
    (6, .getOrOpen ⟨⟨"a", 7000⟩, 1, .ofMillis 500⟩)]

/-- What has happened then. -/
def comebackPast : List Event :=
  [.got ⟨⟨"a", 7000⟩, 1, .ofMillis 500⟩ (.ok 0), .got ⟨⟨"a", 7000⟩, 1, .ofMillis 500⟩ (.ok 0),
    .retained [⟨"b", 7000⟩] [(⟨"a", 7000⟩, 0)], .got ⟨⟨"a", 7000⟩, 1, .ofMillis 500⟩ (.ok 1),
    .shutDown, .got ⟨⟨"a", 7000⟩, 1, .ofMillis 500⟩ (.error .shutdown)]

theorem tenure_comeback :
    ∃ s : Story, s = ({ fleet := { tuning := {} } } : Story).play comeback ∧
      s.past = comebackPast ∧ (s.fleet.registered.map (·.1)).Nodup ∧
      ((1 : PoolId) = 0 ↔ ∀ e ∈ [Event.retained [⟨"b", 7000⟩] [(⟨"a", 7000⟩, 0)]],
        ¬e.Removes ⟨"a", 7000⟩) ∧
      s.fleet.pools.map (·.closed) = [false, true] := by
  have hp : (({ fleet := { tuning := {} } } : Story).play comeback).past = comebackPast := by
    rfl
  obtain ⟨hn, hd, -, -⟩ := tenure {} true comeback rfl
  obtain ⟨-, ho⟩ := hd (comebackPast.take 3) (comebackPast.drop 4)
    ⟨⟨"a", 7000⟩, 1, .ofMillis 500⟩ (.ok 1) hp
  obtain ⟨j, hj, hi⟩ := ho (by simp [comebackPast])
  cases hj
  refine ⟨_, rfl, hp, hn, ?_, by rfl⟩
  have h := hi [.got ⟨⟨"a", 7000⟩, 1, .ofMillis 500⟩ (.ok 0)]
    [.retained [⟨"b", 7000⟩] [(⟨"a", 7000⟩, 0)]] ⟨⟨"a", 7000⟩, 1, .ofMillis 500⟩ 0 rfl
  rwa [eq_self, true_and] at h

end Story

end Shardway.Fleet
