import Shardway.Proofs.Client.Hearing
import Shardway.Proofs.Router.Routing

/-!
# Attempts of calls

In each attempt a call sends one request at most, over a connection that was opened to the elected
master of the group that owned its key when the attempt began.
-/

namespace Shardway

/-- What the operation of a call on a pool waits for at this stage. -/
def CallStage.awaits? : CallStage → Option (PoolId × Pool.Waiting)
  | .borrowing i => some (i, .borrow)
  | .returning i _ => some (i, .giveBack)
  | _ => none

namespace Client

open Router (Chosen)

/-- The calls of a client, with all that has happened so far. -/
structure Orderly (config : Config.Cluster) (pools : List Pool) (c : Client) (past : List Event) :
    Prop where
  /-- A call waits on no pool but for what its stage says. -/
  waits : ∀ t call, c.find? t = some call → ∀ (i : PoolId) p w, pools[i]? = some p →
    p.Waits t w → call.stage.awaits? = some (i, w)
  /-- A call that waits for a connection has sent nothing in its attempt. -/
  routed : ∀ t call i, c.find? t = some call → call.stage = .borrowing i →
    ∃ index m, lastAttempt? t past = some ⟨call.key, call.request, index, 0⟩ ∧
      Chosen config pools index call.key i m
  sent : ∀ before after t i link request, past = before ++ .told (.send t i link request) :: after →
    ∃ key index m, lastAttempt? t before = some ⟨key, request, index, 0⟩ ∧
      Chosen config pools index key i m ∧ OpenedTo before i link m.addr

variable {config : Config.Cluster} {pools pools' : List Pool} {p : Pool} {i : PoolId} {c c' : Client}
  {past es es' : List Event} {t u : Ticket} {link : Link} {request : Request} {now now' : Nat}
  {f : Fleet}

/-! ## Events of attempts -/

/-- The events leave the last attempt of a call as it is. -/
def Silent (t : Ticket) (es : List Event) : Prop := ∀ e ∈ es, ∀ a, Attempt.note t a e = a

theorem Silent.append (h : Silent t es) (h' : Silent t es') : Silent t (es ++ es') :=
  fun e he => (List.mem_append.mp he).elim (h e) (h' e)

theorem Silent.lastAttempt? (h : Silent t es) (past : List Event) :
    lastAttempt? t (past ++ es) = lastAttempt? t past := by
  induction es generalizing past with
  | nil => rw [List.append_nil]
  | cons e es ih =>
      have hs : Client.lastAttempt? t (past ++ [e]) = Client.lastAttempt? t past := by
        rw [Client.lastAttempt?, List.foldl_append]
        exact h e List.mem_cons_self _
      rw [List.append_cons, ih (fun x hx => h x (List.mem_cons_of_mem _ hx)), hs]

theorem Silent.send_notMem (h : Silent t es) : .told (.send t i link request) ∉ es := by
  intro hm
  have := h _ hm (some ⟨[], request, ⟨0, [], none⟩, 0⟩)
  simp [Attempt.note] at this

theorem silent_begun {key : Bytes} {index : Index} (h : u ≠ t) :
    Silent u [.begun t key request index] := by
  intro e he a
  cases List.mem_singleton.mp he
  simp [Attempt.note, h.symm]

theorem lastAttempt?_begun {key : Bytes} {index : Index} :
    lastAttempt? t (past ++ [.begun t key request index]) = some ⟨key, request, index, 0⟩ := by
  simp [lastAttempt?, Attempt.note]

theorem silent_came (i : PoolId) (m : Pool.Move) (l : List Pool.Event) :
    Silent t (l.map (.came i m)) := by
  intro e he a
  obtain ⟨x, -, rfl⟩ := List.mem_map.mp he
  rfl

theorem silent_ofEffect {es : List Effect} (h : ∀ i link request, .send t i link request ∉ es) :
    Silent t (es.map (Event.ofEffect f)) := by
  intro e he a
  obtain ⟨x, hx, rfl⟩ := List.mem_map.mp he
  unfold Event.ofEffect
  split
  · rfl
  · cases x with
    | send u i link request =>
        have hu : u ≠ t := fun hu => h i link request (hu ▸ hx)
        simp [Attempt.note, hu]
    | _ => rfl

theorem silent_pool {es : List Pool.Effect} :
    Silent t ((es.map (.pool i)).map (Event.ofEffect f)) :=
  silent_ofEffect fun j link request hm => by simp at hm

theorem Settles.silent {r : Reaction} (h : Settles u c r) :
    Silent t (r.effects.map (Event.ofEffect f)) := by
  refine silent_ofEffect fun j link request hm => ?_
  rcases h.effects _ hm with ⟨n, hn⟩ | ⟨s, hs⟩ | ⟨o, ho⟩
  · cases hn
  · cases hs
  · cases ho

/-! ## Pasts that grow -/

theorem OpenedTo.of_append {a : Address} (h : OpenedTo (past ++ es) i link a)
    (he : ∀ j m e, .came j m e ∉ es) : OpenedTo past i link a := by
  obtain ⟨t, before, after, hp, hd⟩ := h
  rcases Pool.split_of_append hp with ⟨after', hp⟩ | ⟨before', -, hes⟩
  · exact ⟨t, before, after', hp, hd⟩
  · exact absurd (by simp [hes]) (he i (.connected t (.ok link)) (.opened link))

/-! ## Changes that keep order -/

/-- Pools change, and no call does. -/
theorem Orderly.quiet (h : Orderly config pools c past) (hc : ∀ t, c'.find? t = c.find? t)
    (hw : ∀ t call, c.find? t = some call → ∀ (i : PoolId) p w, pools'[i]? = some p →
      p.Waits t w → call.stage.awaits? = some (i, w))
    (hp : ∀ (i : PoolId) (p : Pool), pools[i]? = some p →
      ∃ q, pools'[i]? = some q ∧ q.addr = p.addr)
    (hs : ∀ t, Silent t es) : Orderly config pools' c' (past ++ es) where
  waits := fun t call ht => hw t call (hc t ▸ ht)
  routed := fun t call i ht hi => by
    obtain ⟨index, m, hl, hm⟩ := h.routed t call i (hc t ▸ ht) hi
    exact ⟨index, m, ((hs t).lastAttempt? past).trans hl, hm.mono hp⟩
  sent := fun before after t i link request hpast => by
    rcases Pool.split_of_append hpast with ⟨after', hpast⟩ | ⟨before', -, hes⟩
    · obtain ⟨key, index, m, hl, hm, ho⟩ := h.sent before after' t i link request hpast
      exact ⟨key, index, m, hl, hm.mono hp, ho⟩
    · have hm : .told (.send t i link request) ∈ es := by simp [hes]
      exact absurd hm (hs t).send_notMem

theorem Orderly.silent (h : Orderly config pools c past) (hs : ∀ t, Silent t es) :
    Orderly config pools c (past ++ es) :=
  h.quiet (fun _ => rfl) h.waits (fun _ p hi => ⟨p, hi, rfl⟩) hs

/-- One call changes, which waits on no pool. -/
theorem Orderly.update (h : Orderly config pools c past)
    (ho : ∀ u, u ≠ t → c'.find? u = c.find? u)
    (hn : ∀ (i : PoolId) p w, pools[i]? = some p → ¬p.Waits t w)
    (hr : ∀ call i, c'.find? t = some call → call.stage = .borrowing i →
      ∃ index m, lastAttempt? t (past ++ es) = some ⟨call.key, call.request, index, 0⟩ ∧
        Chosen config pools index call.key i m)
    (he : ∀ u, u ≠ t → Silent u es)
    (hs : ∀ before after i link request, es = before ++ .told (.send t i link request) :: after →
      ∃ key index m, lastAttempt? t (past ++ before) = some ⟨key, request, index, 0⟩ ∧
        Chosen config pools index key i m ∧ OpenedTo (past ++ before) i link m.addr) :
    Orderly config pools c' (past ++ es) where
  waits := fun u call hu i p w hp hw => by
    by_cases hut : u = t
    · subst hut
      exact absurd hw (hn i p w hp)
    · exact h.waits u call (ho u hut ▸ hu) i p w hp hw
  routed := fun u call i hu hi => by
    by_cases hut : u = t
    · subst hut
      exact hr call i hu hi
    · rw [(he u hut).lastAttempt?]
      exact h.routed u call i (ho u hut ▸ hu) hi
  sent := fun before after u i link request hpast => by
    rcases Pool.split_of_append hpast with ⟨after', hpast⟩ | ⟨before', rfl, hes⟩
    · exact h.sent before after' u i link request hpast
    · by_cases hut : u = t
      · subst hut
        exact hs before' after i link request hes
      · have hm : .told (.send u i link request) ∈ es := by simp [hes]
        exact absurd hm (he u hut).send_notMem

theorem Orderly.change (h : Orderly config pools c past)
    (ho : ∀ u, u ≠ t → c'.find? u = c.find? u)
    (hn : ∀ (i : PoolId) p w, pools[i]? = some p → ¬p.Waits t w)
    (hr : ∀ call i, c'.find? t = some call → call.stage ≠ .borrowing i) :
    Orderly config pools c' past := by
  have hc : Orderly config pools c' (past ++ []) :=
    h.update ho hn (fun call i ht hi => absurd hi (hr call i ht)) (by simp [Silent]) (by simp)
  rwa [List.append_nil] at hc

theorem Settles.not_borrowing {r : Reaction} {call : Call} (h : Settles t c r)
    (hc : r.state.find? t = some call) : call.stage ≠ .borrowing i := by
  rcases h.own with hn | ⟨call', hf, hs⟩
  · cases hn.symm.trans hc
  · cases hf.symm.trans hc
    simp [hs]

theorem Orderly.begin {key : Bytes} {index : Index} (h : Orderly config pools c past)
    (ho : ∀ u, u ≠ t → c'.find? u = c.find? u)
    (hn : ∀ (i : PoolId) p w, pools[i]? = some p → ¬p.Waits t w)
    (hr : ∀ call i, c'.find? t = some call → call.stage = .borrowing i →
      call.key = key ∧ call.request = request ∧ ∃ m, Chosen config pools index key i m) :
    Orderly config pools c' (past ++ [.begun t key request index]) := by
  refine h.update ho hn (fun call i ht hi => ?_) (fun u hu => silent_begun hu) ?_
  · obtain ⟨rfl, rfl, m, hm⟩ := hr call i ht hi
    exact ⟨index, m, lastAttempt?_begun, hm⟩
  · intro before after i link request hb
    have hm : .told (.send t i link request) ∈ before ++ .told (.send t i link request) :: after :=
      List.mem_append_right _ List.mem_cons_self
    rw [← hb] at hm
    simp at hm

/-! ## Moves of pools -/

theorem eq_borrowing_of_awaits? {s : CallStage} (h : s.awaits? = some (i, .borrow)) :
    s = .borrowing i := by
  cases s <;> cases h
  rfl

theorem Orderly.sends {call : Call} {pre post : List Event} (h : Orderly config pools c past)
    (hc : c.find? t = some call) (hi : call.stage = .borrowing i)
    (hn : ∀ (i : PoolId) p w, pools[i]? = some p → ¬p.Waits t w)
    (hp : pools[i]? = some p) (ho : OpenedTo past i link p.addr)
    (hpre : ∀ t, Silent t pre) (hpost : ∀ t, Silent t post) :
    Orderly config pools (c.put t { call with stage := .running i link })
      (past ++ (pre ++ .told (.send t i link call.request) :: post)) := by
  refine h.update (fun u hu => find?_put_of_ne hu) hn (fun call' j ht hj => ?_) (fun u hu => ?_) ?_
  · cases find?_put.symm.trans ht
    cases hj
  · refine (hpre u).append fun e he a => ?_
    rcases List.mem_cons.mp he with rfl | he
    · simp [Attempt.note, hu.symm]
    · exact hpost u e he a
  · intro before after j link' request hb
    obtain ⟨rfl, hs, -⟩ := (List.append_cons_inj_of_notMem
      (hpre t).send_notMem (hpost t).send_notMem).mp hb
    cases hs
    obtain ⟨index, m, hl, hm⟩ := h.routed t call i hc hi
    obtain ⟨q, hq, ha⟩ := hm.pool
    cases hp.symm.trans hq
    exact ⟨call.key, index, m, ((hpre t).lastAttempt? past).trans hl, hm, ha ▸ ho.append pre⟩

/-- The end of an operation is heard by the call that waited for it, which waits on no pool now. -/
theorem Orderly.hears {e : Pool.Effect} {w : Pool.Waiting} {x : Reaction} {pre post : List Event}
    (h : Orderly config pools c past) (hx : Hears i t c e x) (he : e.ended? = some (t, w))
    (hw : ∀ call, c.find? t = some call → call.stage.awaits? = some (i, w))
    (hp : pools[i]? = some p) (hn : ¬p.Waits t w)
    (ho : ∀ link, e = .lent t link → OpenedTo past i link p.addr)
    (hpre : ∀ t, Silent t pre) (hpost : ∀ t, Silent t post) :
    Orderly config pools x.state (past ++ (pre ++ (x.effects.map (Event.ofEffect f) ++ post))) := by
  -- All that the call may wait for is what has ended.
  have hno (call : Call) (hc : c.find? t = some call) (j : PoolId) (q : Pool) (v : Pool.Waiting)
      (hq : pools[j]? = some q) : ¬q.Waits t v := fun hv => by
    cases (hw call hc).symm.trans (h.waits t call hc j q v hq hv)
    cases hp.symm.trans hq
    exact hn hv
  cases hx with
  | ignores => exact h.silent fun u => (hpre u).append (hpost u)
  | @sends link call hc =>
      cases he
      exact h.sends hc (eq_borrowing_of_awaits? (hw call hc)) (hno call hc) hp (ho link rfl) hpre hpost
  | @settles _ call _ hc hs =>
      have hd : Orderly config pools x.state past :=
        h.change hs.others (hno call hc) fun call' j hf => hs.not_borrowing hf
      exact hd.silent fun u => (hpre u).append (hs.silent.append (hpost u))

theorem Orderly.arrive {m : Pool.Move} {r : Pool.Reaction} (h : Orderly config pools c past)
    (hp : pools[i]? = some p) (hr : Pool.Course m p r)
    (hw : ∀ t w, m.begun? = some (t, w) ∨ p.Waits t w → ∀ call, c.find? t = some call →
      call.stage.awaits? = some (i, w)) :
    Orderly config (pools.set i r.state) c (past ++ (p.inputs m).map (.came i m)) := by
  refine h.quiet (fun _ => rfl) (fun t call hc j q w hq hv => ?_)
    (fun j q hq => exists_pool_of_set hp (congrArg Node.addr hr.node) hq) fun t => silent_came i m _
  rcases pool_of_set hq with ⟨rfl, rfl⟩ | ⟨-, hq⟩
  · exact hw t w (hr.waits t w hv) call hc
  · exact h.waits t call hc j q w hq hv

/-- A pool moves, and the calls hear what it tells. -/
theorem Orderly.move {m : Pool.Move} {r : Pool.Reaction} {told : List Event}
    (h : Orderly config pools c past) (hp : pools[i]? = some p) (hr : Pool.Course m p r)
    (hb : ∀ t w, m.begun? = some (t, w) → ∀ call, c.find? t = some call →
      call.stage.awaits? = some (i, w))
    (ht : told = (hearAll (r.effects.map (.pool i)) c).effects.map (Event.ofEffect f))
    (hcame : ∀ j m e, .came j m e ∉ told)
    (hs : Sound (pools.set i r.state) now (past ++ (p.inputs m).map (.came i m) ++ told)) :
    Orderly config (pools.set i r.state) (hearAll (r.effects.map (.pool i)) c).state
      (past ++ (p.inputs m).map (.came i m) ++ told) := by
  have hw (t : Ticket) (w : Pool.Waiting) (htw : m.begun? = some (t, w) ∨ p.Waits t w) (call : Call)
      (hc : c.find? t = some call) : call.stage.awaits? = some (i, w) :=
    htw.elim (fun hm => hb t w hm call hc) fun hw => h.waits t call hc i p w hp hw
  have hi : (pools.set i r.state)[i]? = some r.state :=
    List.getElem?_set_self (List.getElem?_eq_some_iff.mp hp).1
  have ha := h.arrive hp hr hw
  rcases hr.endings with he | ⟨e, t, w, he, hew, hnw, hbw⟩
  · rw [hearAll_of_endings_nil he] at ht ⊢
    exact ht ▸ ha.silent fun t => silent_pool
  obtain ⟨pre, post, hes, heard⟩ := hearAll_of_endings_singleton (i := i) (c := c) he
  rw [heard] at ht ⊢
  have ht : told = ((pre ++ [e]).map (.pool i)).map (Event.ofEffect f) ++
      ((c.hear i e).effects.map (Event.ofEffect f) ++
        (post.map (.pool i)).map (Event.ofEffect f)) := by
    rw [ht]
    simp
  have ho (link : Link) (hl : e = .lent t link) :
      OpenedTo (past ++ (p.inputs m).map (.came i m)) i link r.state.addr := by
    have hm : link ∈ r.state.links := by simp [Pool.links, hr.lent t link (by simp [hes, hl])]
    exact (hs.openedTo hi hm).of_append hcame
  exact ht ▸ ha.hears (hears_hear hew) hew (hw t w hbw) hi hnw ho (fun u => silent_pool)
    fun u => silent_pool

end Client

end Shardway
