import Shardway.Proofs.Client.Story

/-!
# Where connections come from

Each pool of a client has a past of its own, and every connection that ever came to it was opened to
the address of its node.
-/

namespace Shardway.Client

variable {pools : List Pool} {p : Pool} {i : PoolId} {now now' : Nat} {past es : List Event}
  {m : Pool.Move}

theorem poolPast_append : poolPast i (past ++ es) = poolPast i past ++ poolPast i es :=
  List.filterMap_append ..

/-- The events concern no pool. -/
def Mute (es : List Event) : Prop := ∀ e ∈ es, ∀ i, e.ofPool? i = none

theorem Mute.poolPast (h : Mute es) (i : PoolId) : poolPast i es = [] :=
  List.filterMap_eq_nil_iff.mpr fun e he => h e he i

theorem OpenedTo.append {link : Link} {a : Address} (h : OpenedTo past i link a)
    (es : List Event) : OpenedTo (past ++ es) i link a := by
  obtain ⟨t, before, after, rfl, hd⟩ := h
  exact ⟨t, before, after ++ es, by simp, hd⟩

/-- What a move of a pool tells, among other things that concern no pool. -/
structure Tells (i : PoolId) (p : Pool) (effects : List Pool.Effect) (told : List Event) : Prop where
  own : poolPast i told = Pool.tell effects
  others : ∀ j, j ≠ i → poolPast j told = []
  came : ∀ j m e, .came j m e ∉ told
  dialed : ∀ j t a, .dialed j t a ∈ told → j = i ∧ a = some p.addr
  dials : ∀ t, .connect t ∈ effects → .dialed i t (some p.addr) ∈ told

theorem Tells.append {effects effects' : List Pool.Effect} {told told' : List Event}
    (h : Tells i p effects told) (h' : Tells i p effects' told') :
    Tells i p (effects ++ effects') (told ++ told') where
  own := by rw [poolPast_append, h.own, h'.own, Pool.tell_append]
  others := fun j hj => by rw [poolPast_append, h.others j hj, h'.others j hj, List.append_nil]
  came := fun j m e hm => (List.mem_append.mp hm).elim (h.came j m e) (h'.came j m e)
  dialed := fun j t a hm => (List.mem_append.mp hm).elim (h.dialed j t a) (h'.dialed j t a)
  dials := fun t ht => by
    rcases List.mem_append.mp ht with ht | ht
    · exact List.mem_append_left _ (h.dials t ht)
    · exact List.mem_append_right _ (h'.dials t ht)

theorem Mute.tells {told : List Event} (h : Mute told) : Tells i p [] told where
  own := h.poolPast i
  others := fun j _ => h.poolPast j
  came := fun j m e hm => by
    have := h _ hm j
    simp [Event.ofPool?] at this
  dialed := fun j t a hm => by
    have := h _ hm j
    simp [Event.ofPool?] at this
  dials := by simp

theorem tells_ofEffect {f : Fleet} (hp : (f.pools[i]?).map Pool.addr = some p.addr)
    (e : Pool.Effect) :
    Tells i p [e] [Event.ofEffect f (.pool i e)] := by
  cases e with
  | connect t =>
      refine ⟨?_, fun j hj => ?_, by simp [Event.ofEffect], ?_, by simp [Event.ofEffect, hp]⟩
      · simp [poolPast, Event.ofEffect, Event.ofPool?]
      · simp [poolPast, Event.ofEffect, Event.ofPool?, Ne.symm hj]
      · simp +contextual [Event.ofEffect, hp]
  | _ =>
      refine ⟨?_, fun j hj => ?_, by simp [Event.ofEffect], by simp [Event.ofEffect], by simp⟩
      · simp [poolPast, Event.ofEffect, Event.ofPool?]
      · simp [poolPast, Event.ofEffect, Event.ofPool?, Ne.symm hj]

/-- The past is one that the pool may have had by now. -/
def Lived (now : Nat) (p : Pool) (past : List Pool.Event) : Prop :=
  ∃ node tuning k, k ≤ now ∧ Pool.Story.Leads (.start node tuning) ⟨p, k, past⟩

theorem Lived.later {past : List Pool.Event} (h : Lived now p past) (hn : now ≤ now') :
    Lived now' p past := by
  obtain ⟨node, tuning, k, hk, hl⟩ := h
  exact ⟨node, tuning, k, hk.trans hn, hl⟩

theorem Lived.next {past : List Pool.Event} (h : Lived now p past) (hn : now ≤ now')
    (ha : Pool.Story.Admits ⟨p, now, past⟩ m) :
    Lived now' (p.step now' m).state
      (past ++ (p.inputs m ++ Pool.tell (p.step now' m).effects)) := by
  obtain ⟨node, tuning, k, hk, hl⟩ := h
  exact ⟨node, tuning, now', Nat.le_refl now', hl.next (hk.trans hn) ⟨ha.accepts, ha.fresh⟩⟩

/-- The pools of a client, with all that has happened so far. -/
structure Sound (pools : List Pool) (now : Nat) (past : List Event) : Prop where
  lived : ∀ i p, pools[i]? = some p → Lived now p (poolPast i past)
  unborn : ∀ i, pools[i]? = none → poolPast i past = []
  dialed : ∀ i t a, .dialed i t a ∈ past → ∃ p, pools[i]? = some p ∧ a = some p.addr
  dialing : ∀ i p t, pools[i]? = some p → p.IsDialing t → .dialed i t (some p.addr) ∈ past
  opened : ∀ i m link, .came i m (.opened link) ∈ past →
    ∃ p, pools[i]? = some p ∧ OpenedTo past i link p.addr

theorem Sound.kept (h : Sound pools now past) (hp : pools[i]? = some p) :
    Pool.Story.Kept ⟨p, now, poolPast i past⟩ := by
  obtain ⟨node, tuning, k, hk, hl⟩ := h.lived i p hp
  have hs := hl.kept Pool.Story.kept_start
  exact { hs with coherent := hs.coherent.later hk }

theorem isDialing_of_hand? {t : Ticket} (h : p.hand? t = some .dialing) : p.IsDialing t := by
  unfold Pool.hand? at h
  split at h
  · obtain ⟨s, hs, hd⟩ := Option.bind_eq_some_iff.mp h
    cases s with
    | connecting => exact .inl hs
    | _ => cases hd
  · obtain ⟨link, -, hd⟩ := Option.map_eq_some_iff.mp h
    cases hd
  · obtain ⟨s, hs, hd⟩ := Option.map_eq_some_iff.mp h
    cases s with
    | connecting n => exact .inr ⟨n, hs⟩
    | pinging => cases hd
  · cases h

/-- A connection that comes to a pool comes to an operation that waits for one. -/
theorem isDialing_of_opened {link : Link} (h : .opened link ∈ p.inputs m) :
    ∃ t, m = .connected t (.ok link) ∧ p.IsDialing t := by
  unfold Pool.inputs at h
  split at h
  · split at h
    · split at h <;> simp at h
    · simp at h
  · split at h
    · cases List.mem_singleton.mp h
      exact ⟨_, rfl, isDialing_of_hand? ‹_›⟩
    · simp at h
  · split at h <;> simp at h
  · simp at h
  · simp at h
  · simp at h

theorem poolPast_came (j : PoolId) (l : List Pool.Event) :
    poolPast j (l.map (.came i m)) = if i = j then l else [] := by
  by_cases h : i = j <;> induction l <;> simp_all [poolPast, Event.ofPool?]

/-- No pool but the one that moves is concerned. -/
theorem poolPast_move_of_ne {told : List Event} {j : PoolId} (hj : j ≠ i)
    (ht : Tells i p (p.step now' m).effects told) :
    poolPast j (past ++ (p.inputs m).map (.came i m) ++ told) = poolPast j past := by
  rw [poolPast_append, poolPast_append, poolPast_came, if_neg (Ne.symm hj), ht.others j hj]
  simp

theorem poolPast_move {told : List Event} (ht : Tells i p (p.step now' m).effects told) :
    poolPast i (past ++ (p.inputs m).map (.came i m) ++ told) =
      poolPast i past ++ (p.inputs m ++ Pool.tell (p.step now' m).effects) := by
  rw [poolPast_append, poolPast_append, poolPast_came, if_pos rfl, ht.own, List.append_assoc]

theorem pool_of_set {p' q : Pool} {j : PoolId} (hj : (pools.set i p')[j]? = some q) :
    i = j ∧ q = p' ∨ i ≠ j ∧ pools[j]? = some q := by
  by_cases hij : i = j
  · rw [hij, List.getElem?_set_self'] at hj
    obtain ⟨_, -, rfl⟩ := Option.map_eq_some_iff.mp hj
    exact .inl ⟨hij, rfl⟩
  · exact .inr ⟨hij, (List.getElem?_set_ne hij).symm.trans hj⟩

/-- A pool that moves keeps its place, and so do the others. -/
theorem exists_pool_of_set {p' q : Pool} {j : PoolId} (hp : pools[i]? = some p)
    (ha : p'.addr = p.addr) (hj : pools[j]? = some q) :
    ∃ q', (pools.set i p')[j]? = some q' ∧ q'.addr = q.addr := by
  by_cases hij : i = j
  · subst hij
    cases hp.symm.trans hj
    exact ⟨p', List.getElem?_set_self (List.getElem?_eq_some_iff.mp hp).1, ha⟩
  · exact ⟨q, (List.getElem?_set_ne hij).trans hj, rfl⟩

theorem Sound.move {told : List Event} (h : Sound pools now past) (hp : pools[i]? = some p)
    (hn : now ≤ now') (ha : Pool.Story.Admits ⟨p, now, poolPast i past⟩ m)
    (ht : Tells i p (p.step now' m).effects told) :
    Sound (pools.set i (p.step now' m).state) now'
      (past ++ (p.inputs m).map (.came i m) ++ told) := by
  have hs : (pools.set i (p.step now' m).state)[i]? = some (p.step now' m).state :=
    List.getElem?_set_self (List.getElem?_eq_some_iff.mp hp).1
  have hc : Pool.Course m p (p.step now' m) := ha.accepts.course now'
  have haddr : (p.step now' m).state.addr = p.addr := congrArg Node.addr hc.node
  refine ⟨fun j q hj => ?_, fun j hj => ?_, fun j t a hd => ?_, fun j q t hj hd => ?_,
    fun j m' link hm => ?_⟩
  · rcases pool_of_set hj with ⟨rfl, rfl⟩ | ⟨hij, hj⟩
    · rw [poolPast_move ht]
      exact (h.lived i p hp).next hn ha
    · rw [poolPast_move_of_ne (Ne.symm hij) ht]
      exact (h.lived j q hj).later hn
  · have hij : i ≠ j := by
      rintro rfl
      cases hs.symm.trans hj
    rw [poolPast_move_of_ne (Ne.symm hij) ht]
    exact h.unborn j ((List.getElem?_set_ne hij).symm.trans hj)
  · rcases List.mem_append.mp hd with hd | hd
    · have hd : .dialed j t a ∈ past := by simpa using hd
      obtain ⟨q, hj, rfl⟩ := h.dialed j t a hd
      obtain ⟨q', hj', ha⟩ := exists_pool_of_set hp haddr hj
      exact ⟨q', hj', by rw [ha]⟩
    · obtain ⟨rfl, rfl⟩ := ht.dialed j t a hd
      exact ⟨_, hs, by rw [haddr]⟩
  · rcases pool_of_set hj with ⟨rfl, rfl⟩ | ⟨-, hj⟩
    · rw [haddr]
      rcases hc.dialing t hd with hd | hd
      · simp [h.dialing i p t hp hd]
      · simp [ht.dials t hd]
    · simp [h.dialing j q t hj hd]
  · rcases List.mem_append.mp hm with hm | hm
    · rcases List.mem_append.mp hm with hm | hm
      · obtain ⟨q, hj, ho⟩ := h.opened j m' link hm
        obtain ⟨q', hj', ha⟩ := exists_pool_of_set hp haddr hj
        exact ⟨q', hj', ha ▸ (ho.append _).append _⟩
      · -- It comes now, to an operation for which the pool has dialed.
        obtain ⟨e, he, hce⟩ := List.mem_map.mp hm
        cases hce
        obtain ⟨t, rfl, hd⟩ := isDialing_of_opened he
        obtain ⟨l₁, l₂, hl⟩ := List.append_of_mem hm
        refine ⟨_, hs, t, past ++ l₁, l₂ ++ told, by rw [hl]; simp, ?_⟩
        rw [haddr]
        exact List.mem_append_left _ (h.dialing i p t hp hd)
    · exact absurd hm (ht.came j m' _)

/-- New pools come, and nothing happens to the others. -/
theorem Sound.grow (h : Sound pools now past) (hn : now ≤ now') (nodes : List Node)
    (tuning : Config.PoolTuning) (hm : Mute es) :
    Sound (pools ++ nodes.map (Pool.ofNode · tuning)) now' (past ++ es) := by
  have hq {j : PoolId} {q : Pool} (hj : pools[j]? = some q) :
      (pools ++ nodes.map (Pool.ofNode · tuning))[j]? = some q :=
    (List.getElem?_append_left (List.getElem?_eq_some_iff.mp hj).1).trans hj
  have hp (j : PoolId) : poolPast j (past ++ es) = poolPast j past := by
    rw [poolPast_append, hm.poolPast, List.append_nil]
  -- A pool is an old one, or a new one of which nothing is told yet.
  have hc {j : PoolId} {q : Pool} (hj : (pools ++ nodes.map (Pool.ofNode · tuning))[j]? = some q) :
      pools[j]? = some q ∨ poolPast j past = [] ∧ ∃ n, q = Pool.ofNode n tuning := by
    cases hl : pools[j]? with
    | some q' => exact .inl ((hq hl).symm.trans hj)
    | none =>
        rw [List.getElem?_append_right (List.getElem?_eq_none_iff.mp hl)] at hj
        obtain ⟨n, -, rfl⟩ := List.mem_map.mp (List.mem_of_getElem? hj)
        exact .inr ⟨h.unborn j hl, n, rfl⟩
  refine ⟨fun j q hj => ?_, fun j hj => ?_, fun j t a hd => ?_, fun j q t hj hd => ?_,
    fun j m' link hd => ?_⟩
  · rw [hp]
    rcases hc hj with hj | ⟨he, n, rfl⟩
    · exact (h.lived j q hj).later hn
    · rw [he]
      exact ⟨n, tuning, 0, Nat.zero_le now', .refl⟩
  · rw [hp]
    refine h.unborn j (List.getElem?_eq_none_iff.mpr ?_)
    have := List.getElem?_eq_none_iff.mp hj
    rw [List.length_append] at this
    omega
  · rcases List.mem_append.mp hd with hd | hd
    · obtain ⟨q, hj, rfl⟩ := h.dialed j t a hd
      exact ⟨q, hq hj, rfl⟩
    · have := hm _ hd j
      simp [Event.ofPool?] at this
  · rcases hc hj with hj | ⟨-, n, rfl⟩
    · exact List.mem_append_left _ (h.dialing j q t hj hd)
    · simp [Pool.IsDialing, Pool.ofNode, Pool.find?] at hd
  · rcases List.mem_append.mp hd with hd | hd
    · obtain ⟨q, hj, ho⟩ := h.opened j m' link hd
      exact ⟨q, hq hj, ho.append _⟩
    · have := hm _ hd j
      simp [Event.ofPool?] at this

/-- Time passes, and nothing happens to any pool. -/
theorem Sound.pass (h : Sound pools now past) (hn : now ≤ now') (hm : Mute es) :
    Sound pools now' (past ++ es) := by
  simpa using h.grow hn [] {} hm

/-- Every connection that a pool holds was opened to the address of its node. -/
theorem Sound.openedTo {link : Link} (h : Sound pools now past) (hp : pools[i]? = some p)
    (hl : link ∈ p.links) : OpenedTo past i link p.addr := by
  have hk := h.kept hp
  have ho : .opened link ∈ poolPast i past := ((Pool.mem_links hk.sound hk.fresh).mp hl).1
  obtain ⟨e, he, hei⟩ := List.mem_filterMap.mp ho
  have hm : ∃ m, e = .came i m (.opened link) := by
    unfold Event.ofPool? at hei
    split at hei
    all_goals first
      | (split at hei <;> simp_all)
      | cases hei
  obtain ⟨m, rfl⟩ := hm
  obtain ⟨q, hq, hoq⟩ := h.opened i m link he
  cases hp.symm.trans hq
  exact hoq

theorem sound_ofResolved {config : Config.Cluster} {background : Bool}
    {resolved : List ResolvedGroup} {started : Router} {told : List Effect}
    (hs : Router.ofResolved config background resolved = (.ok started, told)) :
    Sound started.fleet.pools 0 [] := by
  obtain ⟨slots, opened, x, hseat, -, rfl, -⟩ := Router.ofResolved_eq_ok hs
  obtain ⟨nodes, hn⟩ := (Router.gains_seat hseat).pools
  have h0 : Sound [] 0 [] := ⟨by simp, by simp [poolPast], by simp, by simp, by simp⟩
  have hm : Mute [] := fun e he => absurd he List.not_mem_nil
  exact hn ▸ h0.grow (Nat.le_refl 0) nodes config.pool hm

end Shardway.Client
