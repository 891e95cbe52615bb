import Shardway.Proofs.Pool.Moves

/-!
# Who acts in a move of a pool

Each move of a pool belongs to at most one operation. Only that operation may end by it, and when it
ends it waits no more; all others wait on as they did, and none begins to wait without asking for
what it waits for.
-/

namespace Shardway.Pool

/-- The operation waits for something. -/
def Waits (p : Pool) (t : Ticket) : Waiting → Prop
  | .borrow => (find? t p.borrows).isSome
  | .giveBack => (find? t p.returns).isSome
  | .sweep => (find? t p.sweeps).isSome

/-- The operation that ends when this is told. -/
def Effect.ended? : Effect → Option (Ticket × Waiting)
  | .lent t _ | .failed t _ => some (t, .borrow)
  | .returned t => some (t, .giveBack)
  | .swept t _ => some (t, .sweep)
  | _ => none

/-- The ends of operations among these effects. -/
def endings (es : List Effect) : List Effect := es.filter (·.ended?.isSome)

/-- The operation that a move begins. -/
def Move.begun? : Move → Option (Ticket × Waiting)
  | .borrow t => some (t, .borrow)
  | .giveBack t _ _ => some (t, .giveBack)
  | .sweep t => some (t, .sweep)
  | _ => none

/-- The operation waits for a connection that is being opened. -/
def IsDialing (p : Pool) (t : Ticket) : Prop :=
  find? t p.borrows = some .connecting ∨ ∃ n, find? t p.sweeps = some (.connecting n)

/-- What every part of a move but the closing of the pool leaves alone. A borrower has a connection
tested only if the tuning says so. -/
structure Keeps (p : Pool) (r : Reaction) : Prop where
  node : r.state.node = p.node
  tuning : r.state.tuning = p.tuning
  closed : r.state.closed = p.closed
  dialing : ∀ t, r.state.IsDialing t → p.IsDialing t ∨ .connect t ∈ r.effects
  pinging : ∀ t link, find? t r.state.borrows = some (.pinging link) →
    find? t p.borrows = some (.pinging link) ∨ p.tuning.testOnBorrow = true

/-- A part of a move by which no operation begins to wait, ends or has its connection. -/
structure Quiet (p : Pool) (r : Reaction) : Prop extends Keeps p r where
  waits : ∀ t w, r.state.Waits t w → p.Waits t w
  endings : endings r.effects = []

/-- A part of a move of one operation. -/
structure Acts (t : Ticket) (w : Waiting) (p : Pool) (r : Reaction) : Prop extends Keeps p r where
  waits : ∀ u v, r.state.Waits u v → u = t ∧ v = w ∨ p.Waits u v
  endings : endings r.effects = [] ∨
    ∃ e, endings r.effects = [e] ∧ e.ended? = some (t, w) ∧ ¬r.state.Waits t w
  lent : ∀ u link, .lent u link ∈ r.effects → link ∈ r.state.lent

variable {p q : Pool} {t : Ticket} {w : Waiting} {link : Link} {now : Nat} {r : Reaction}
  {f : Pool → Reaction}

@[simp] theorem endings_nil : endings [] = [] := rfl

@[simp] theorem endings_append (es es' : List Effect) :
    endings (es ++ es') = endings es ++ endings es' := List.filter_append ..

@[simp] theorem endings_cons (e : Effect) (es : List Effect) :
    endings (e :: es) = if e.ended?.isSome then e :: endings es else endings es := List.filter_cons

/-! ## Parts of moves -/

theorem Keeps.refl : Keeps p ⟨p, []⟩ := ⟨rfl, rfl, rfl, fun _ h => .inl h, fun _ _ h => .inl h⟩

theorem Keeps.andThen (h : Keeps p r) (hf : Keeps r.state (f r.state)) : Keeps p (r.andThen f) where
  node := hf.node.trans h.node
  tuning := hf.tuning.trans h.tuning
  closed := hf.closed.trans h.closed
  dialing := fun t ht => by
    rcases hf.dialing t ht with ht | ht
    · exact (h.dialing t ht).imp id (List.mem_append_left _)
    · exact .inr (List.mem_append_right _ ht)
  pinging := fun t link ht => by
    rcases hf.pinging t link ht with ht | ht
    · exact h.pinging t link ht
    · exact .inr (h.tuning ▸ ht)

theorem Quiet.refl : Quiet p ⟨p, []⟩ := ⟨.refl, fun _ _ h => h, rfl⟩

theorem Quiet.andThen (h : Quiet p r) (hf : Quiet r.state (f r.state)) : Quiet p (r.andThen f) where
  toKeeps := h.toKeeps.andThen hf.toKeeps
  waits := fun t w ht => h.waits t w (hf.waits t w ht)
  endings := by simp [h.endings, hf.endings]

theorem notMem_of_endings_eq_nil {es : List Effect} {e : Effect} (h : endings es = [])
    (he : e.ended?.isSome) : e ∉ es := fun hm => by
  have hf : e ∈ endings es := List.mem_filter.mpr ⟨hm, he⟩
  simp [h] at hf

theorem ended?_eq_none {es : List Effect} {e : Effect} (h : endings es = []) (he : e ∈ es) :
    e.ended? = none := by
  simpa using List.filter_eq_nil_iff.mp h e he

theorem Quiet.acts (h : Quiet p r) : Acts t w p r where
  toKeeps := h.toKeeps
  waits := fun u v hu => .inr (h.waits u v hu)
  endings := .inl h.endings
  lent := fun _ _ hl => absurd hl (notMem_of_endings_eq_nil h.endings rfl)

theorem Quiet.thenActs (h : Quiet p r) (hf : Acts t w r.state (f r.state)) :
    Acts t w p (r.andThen f) where
  toKeeps := h.toKeeps.andThen hf.toKeeps
  waits := fun u v hu => (hf.waits u v hu).imp id (h.waits u v)
  endings := by simpa [h.endings] using hf.endings
  lent := fun u link hl => by
    rcases List.mem_append.mp hl with hl | hl
    · exact absurd hl (notMem_of_endings_eq_nil h.endings rfl)
    · exact hf.lent u link hl

/-- The connections and permits change hands, and no operation is concerned. -/
theorem quiet_of_eq {es : List Effect} (hn : q.node = p.node) (ht : q.tuning = p.tuning)
    (hc : q.closed = p.closed) (hb : q.borrows = p.borrows) (hr : q.returns = p.returns)
    (hs : q.sweeps = p.sweeps) (he : endings es = []) : Quiet p ⟨q, es⟩ where
  node := hn
  tuning := ht
  closed := hc
  dialing := fun t h => .inl (by simpa [IsDialing, hb, hs] using h)
  pinging := fun t link h => .inl (hb ▸ h)
  waits := fun t w h => by cases w <;> simpa [Waits, hb, hr, hs] using h
  endings := he

/-! ## Parts of any operation -/

theorem find?_grant? {l l' : List (Ticket × BorrowStage)} {u : Ticket} {s : BorrowStage}
    (h : grant? l = some (t, l')) (hs : find? u l' = some s) :
    (s = .granted ∨ find? u l = some s) ∧ (find? u l).isSome := by
  obtain ⟨l₁, l₂, rfl, rfl⟩ := grant?_eq_some h
  rw [find?_append_cons] at hs ⊢
  cases h₁ : find? u l₁ with
  | some s' =>
      rw [h₁] at hs
      exact ⟨.inr hs, rfl⟩
  | none =>
      by_cases hu : t = u
      · simp_all
      · simp_all

theorem quiet_release : Quiet p p.release := by
  unfold release
  split
  · rename_i t' borrows hg
    have hg : grant? p.borrows = some (t', borrows) := by
      split at hg
      · cases hg
      · exact hg
    refine ⟨⟨rfl, rfl, rfl, fun t h => .inl ?_, fun t link h => .inl ?_⟩, fun t w h => ?_, rfl⟩
    · exact h.imp_left fun h => (find?_grant? hg h).1.resolve_left (by simp)
    · exact (find?_grant? hg h).1.resolve_left (by simp)
    · cases w with
      | borrow =>
          obtain ⟨s, hs⟩ := Option.isSome_iff_exists.mp h
          exact (find?_grant? hg hs).2
      | giveBack => exact h
      | sweep => exact h
  · exact quiet_of_eq rfl rfl rfl rfl rfl rfl rfl

theorem quiet_discard : Quiet p (p.discard link) := quiet_of_eq rfl rfl rfl rfl rfl rfl rfl

theorem quiet_park : Quiet p (p.park now link) := by
  unfold park
  split
  · exact quiet_discard
  · exact quiet_of_eq rfl rfl rfl rfl rfl rfl rfl

theorem quiet_reject : Quiet p (p.reject link) := quiet_of_eq rfl rfl rfl rfl rfl rfl rfl

theorem quiet_settle {e : Parked} {keep : Bool} {pass : Pass} :
    Quiet p (p.settle e keep pass).1 := by
  unfold settle
  split
  · rename_i q hq
    split at hq
    · unfold repark? at hq
      split at hq
      · cases hq
      · cases hq
        exact quiet_of_eq rfl rfl rfl rfl rfl rfl rfl
    · cases hq
  · exact quiet_discard

theorem isSome_of_without {α : Type} {u : Ticket} {l : List (Ticket × α)}
    (h : (find? u (without t l)).isSome) : u ≠ t ∧ (find? u l).isSome := by
  by_cases hu : u = t
  · subst hu
    simp at h
  · exact ⟨hu, find?_without_of_ne hu ▸ h⟩

theorem isSome_of_putAt {α : Type} {u : Ticket} {a : α} {l : List (Ticket × α)}
    (h : (find? u (putAt t a l)).isSome) : u = t ∨ (find? u l).isSome := by
  by_cases hu : u = t
  · exact .inl hu
  · exact .inr (find?_putAt_of_ne hu ▸ h)

theorem eq_some_of_without {α : Type} {u : Ticket} {a : α} {l : List (Ticket × α)}
    (h : find? u (without t l) = some a) : find? u l = some a := by
  have hu : u ≠ t := by
    rintro rfl
    simp at h
  exact find?_without_of_ne hu ▸ h

/-- The operation is told that it has ended, when it waits no more. -/
theorem acts_end {e : Effect} (he : e.ended? = some (t, w)) (hw : ¬p.Waits t w)
    (hl : ∀ u link, e = .lent u link → link ∈ p.lent) : Acts t w p ⟨p, [e]⟩ where
  toKeeps := { Keeps.refl with dialing := fun _ h => .inl h }
  waits := fun _ _ h => .inr h
  endings := .inr ⟨e, by simp [he], he, hw⟩
  lent := fun u link h => hl u link (List.mem_singleton.mp h).symm

theorem Acts.release (h : Acts t w p r) (hl : ∀ u link, .lent u link ∉ r.effects) :
    Acts t w p (r.andThen release) where
  toKeeps := h.toKeeps.andThen quiet_release.toKeeps
  waits := fun u v hu => h.waits u v (quiet_release.waits u v hu)
  endings := by
    rw [Reaction.andThen_effects, endings_append, quiet_release.endings, List.append_nil]
    refine h.endings.imp id ?_
    rintro ⟨e, he, ht, hw⟩
    exact ⟨e, he, ht, fun hr => hw (quiet_release.waits t w hr)⟩
  lent := fun u link hu => by
    rcases List.mem_append.mp hu with hu | hu
    · exact absurd hu (hl u link)
    · exact absurd hu (notMem_of_endings_eq_nil quiet_release.endings rfl)

/-! ## Parts of a borrower -/

theorem quiet_leave : Quiet p ⟨p.leave t, []⟩ where
  node := rfl
  tuning := rfl
  closed := rfl
  dialing := fun _ h => .inl (h.imp_left eq_some_of_without)
  pinging := fun _ _ h => .inl (eq_some_of_without h)
  waits := fun u w h => by
    cases w with
    | borrow => exact (isSome_of_without h).2
    | giveBack => exact h
    | sweep => exact h
  endings := rfl

theorem not_waits_leave : ¬(p.leave t).Waits t .borrow := by simp [Waits, leave]

/-- A borrower waits, and the effect asks for what it waits for. -/
theorem acts_await {s : BorrowStage} {e : Effect} (he : e.ended? = none)
    (hc : s = .connecting → e = .connect t)
    (hp : ∀ link, s = .pinging link → p.tuning.testOnBorrow = true) :
    Acts t .borrow p ⟨p.await t s, [e]⟩ where
  node := rfl
  tuning := rfl
  closed := rfl
  dialing := fun u h => by
    by_cases hu : u = t
    · subst hu
      refine h.elim (fun h => .inr ?_) fun h => .inl (.inr h)
      have hs : s = .connecting := Option.some.inj (find?_putAt.symm.trans h)
      exact List.mem_singleton.mpr (hc hs).symm
    · exact .inl (h.imp_left fun h => find?_putAt_of_ne hu ▸ h)
  pinging := fun u link h => by
    by_cases hu : u = t
    · subst hu
      exact .inr (hp link (Option.some.inj (find?_putAt.symm.trans h)))
    · exact .inl (find?_putAt_of_ne hu ▸ h)
  waits := fun u v h => by
    cases v with
    | borrow => exact (isSome_of_putAt h).imp_left fun hu => ⟨hu, rfl⟩
    | giveBack => exact .inr h
    | sweep => exact .inr h
  endings := .inl (by simp [he])
  lent := fun u link h => by
    cases List.mem_singleton.mp h
    cases he

theorem acts_checkout : Acts t .borrow p (p.checkout t link) := by
  have hq : Quiet p ⟨(p.checkout t link).state, []⟩ :=
    quiet_leave.andThen (f := fun _ => ⟨(p.checkout t link).state, []⟩)
      (quiet_of_eq rfl rfl rfl rfl rfl rfl rfl)
  refine hq.thenActs (f := fun q => ⟨q, [.lent t link]⟩) (acts_end rfl ?_ ?_)
  · exact not_waits_leave (p := p)
  · intro u k hk
    cases hk
    exact List.mem_cons_self

theorem acts_turnAway {f : Fault} : Acts t .borrow p (p.turnAway t f) := by
  have hq : Quiet p ⟨(p.leave t).countBorrowFailure, []⟩ :=
    quiet_leave.andThen (f := fun q => ⟨q.countBorrowFailure, []⟩)
      (quiet_of_eq rfl rfl rfl rfl rfl rfl rfl)
  exact hq.thenActs (f := fun q => ⟨q, [.failed t f]⟩)
    (acts_end rfl (not_waits_leave (p := p)) (by simp))

/-- A borrower fails without being counted. -/
theorem acts_refuse {f : Fault} : Acts t .borrow p ⟨p.leave t, [.failed t f]⟩ :=
  quiet_leave.thenActs (f := fun q => ⟨q, [.failed t f]⟩) (acts_end rfl not_waits_leave (by simp))

theorem quiet_takeIdle? {e : Parked} (h : p.takeIdle? = some (e, q)) : Quiet p ⟨q, []⟩ := by
  unfold takeIdle? at h
  split at h
  all_goals
    obtain ⟨e', -, he⟩ := Option.map_eq_some_iff.mp h
    cases he
    exact quiet_of_eq rfl rfl rfl rfl rfl rfl rfl

theorem acts_lend : Acts t .borrow p (p.lend t) := by
  unfold lend
  split
  · rename_i e q hq
    have hq := quiet_takeIdle? hq
    split
    · rename_i ht
      exact hq.thenActs (f := fun q => ⟨q.await t (.pinging e.link), [.ping t e.link]⟩)
        (acts_await rfl (by simp) fun _ _ => ht)
    · exact hq.thenActs (f := checkout t e.link) acts_checkout
  · exact acts_await rfl (fun _ => rfl) (by simp)

theorem acts_borrow_of_open (ho : p.closed = false) : Acts t .borrow p (p.borrow t) := by
  unfold borrow
  split
  · rename_i hc
    exact absurd (ho.symm.trans hc) Bool.false_ne_true
  · split
    · have hq : Quiet p ⟨p.acquire, []⟩ := quiet_of_eq rfl rfl rfl rfl rfl rfl rfl
      exact hq.thenActs (f := lend t) acts_lend
    · split
      · exact acts_turnAway
      · exact acts_await rfl (by simp) (by simp)

theorem borrow_of_closed (hc : p.closed = true) : p.borrow t = ⟨p, [.failed t p.closedFault]⟩ := by
  simp [borrow, hc]

theorem acts_borrow (hn : ¬p.Waits t .borrow) : Acts t .borrow p (p.borrow t) := by
  cases hc : p.closed with
  | false => exact acts_borrow_of_open hc
  | true =>
      rw [borrow_of_closed hc]
      exact acts_end rfl hn (by simp)

theorem acts_takeUp : Acts t .borrow p (p.takeUp t) := by
  unfold takeUp
  split
  · split
    · exact acts_refuse
    · exact Quiet.refl.acts
  · split
    · have hq : Quiet p ⟨(p.leave t).release.state, (p.leave t).release.effects⟩ :=
        quiet_leave.andThen (f := release) quiet_release
      refine hq.thenActs (f := fun q => ⟨q, [.failed t _]⟩) (acts_end rfl ?_ (by simp))
      exact fun hw => not_waits_leave (p := p) (quiet_release.waits _ _ hw)
    · exact acts_lend
  · exact Quiet.refl.acts

theorem acts_expire : Acts t .borrow p (p.expire t) := by
  unfold expire
  split
  · split
    · exact acts_refuse
    · exact acts_turnAway
  · exact Quiet.refl.acts

theorem acts_borrowPinged {alive : Bool} : Acts t .borrow p (p.borrowPinged t alive) := by
  unfold borrowPinged
  split
  · split
    · exact acts_checkout
    · exact quiet_reject.thenActs acts_lend
  · exact Quiet.refl.acts

theorem acts_borrowConnected {result : Except Fault Link} :
    Acts t .borrow p (p.borrowConnected t result) := by
  unfold borrowConnected
  split
  · split
    · have hq : Quiet p ⟨p.countCreated, []⟩ := quiet_of_eq rfl rfl rfl rfl rfl rfl rfl
      exact hq.thenActs (f := checkout t _) acts_checkout
    · rename_i f
      have hq : Quiet p ⟨p, [.notice (.connectFailed p.addr f)]⟩ :=
        quiet_of_eq rfl rfl rfl rfl rfl rfl rfl
      exact (hq.thenActs (f := turnAway t f) acts_turnAway).release (by simp [turnAway])
  · exact Quiet.refl.acts

theorem quiet_abandon : Quiet p (p.abandon t) := by
  unfold abandon
  split
  · exact quiet_leave
  · rename_i link _
    have hq : Quiet p ⟨p.leave t, [.close link]⟩ :=
      quiet_leave.andThen (f := fun q => ⟨q, [.close link]⟩) (quiet_of_eq rfl rfl rfl rfl rfl rfl rfl)
    exact hq.andThen quiet_release
  · exact quiet_leave.andThen (f := release) quiet_release
  · exact .refl

/-! ## Parts of a return -/

theorem quiet_takeBack : Quiet p ⟨p.takeBack link, []⟩ := quiet_of_eq rfl rfl rfl rfl rfl rfl rfl

theorem acts_endReturn : Acts t .giveBack p (p.endReturn t) := by
  have hd : Quiet p ⟨p.dropReturn t, []⟩ := {
    Keeps.refl with
    node := rfl
    tuning := rfl
    closed := rfl
    waits := fun u w h => by
      cases w with
      | borrow => exact h
      | giveBack => exact (isSome_of_without h).2
      | sweep => exact h
    endings := rfl }
  have hq : Quiet p (p.dropReturn t).release := hd.andThen (f := release) quiet_release
  refine hq.thenActs (f := fun q => ⟨q, [.returned t]⟩) (acts_end rfl ?_ (by simp))
  intro hw
  have hw : (p.dropReturn t).Waits t .giveBack := quiet_release.waits t .giveBack hw
  simp [Waits, dropReturn] at hw

theorem acts_test : Acts t .giveBack p ⟨{ p with returns := putAt t link p.returns }, [.ping t link]⟩ where
  node := rfl
  tuning := rfl
  closed := rfl
  dialing := fun _ h => .inl h
  pinging := fun _ _ h => .inl h
  waits := fun u v h => by
    cases v with
    | borrow => exact .inr h
    | giveBack => exact (isSome_of_putAt h).imp_left fun hu => ⟨hu, rfl⟩
    | sweep => exact .inr h
  endings := .inl rfl
  lent := by simp

theorem acts_giveBack {healthy : Bool} : Acts t .giveBack p (p.giveBack now t link healthy) := by
  have hq : Quiet p ⟨p.takeBack link, []⟩ := quiet_takeBack
  unfold giveBack
  dsimp only
  split
  · exact (hq.andThen (f := discard link) quiet_discard).thenActs (f := endReturn t) acts_endReturn
  · split
    · exact hq.thenActs
        (f := fun q => ⟨{ q with returns := putAt t link q.returns }, [.ping t link]⟩) acts_test
    · exact (hq.andThen (f := park now link) quiet_park).thenActs (f := endReturn t) acts_endReturn

theorem acts_returnPinged {alive : Bool} :
    Acts t .giveBack p (p.returnPinged now t alive) := by
  unfold returnPinged
  split
  · split
    · exact quiet_park.thenActs acts_endReturn
    · exact quiet_reject.thenActs acts_endReturn
  · exact Quiet.refl.acts

theorem quiet_letGo : Quiet p (p.letGo link) :=
  (quiet_takeBack.andThen (f := discard link) quiet_discard).andThen (f := release) quiet_release

/-! ## Parts of an eviction pass -/

theorem quiet_dropSweep : Quiet p ⟨p.dropSweep t, []⟩ where
  node := rfl
  tuning := rfl
  closed := rfl
  dialing := fun _ h => .inl (h.imp_right fun ⟨n, h⟩ => ⟨n, eq_some_of_without h⟩)
  pinging := fun _ _ h => .inl h
  waits := fun u w h => by
    cases w with
    | borrow => exact h
    | giveBack => exact h
    | sweep => exact (isSome_of_without h).2
  endings := rfl

theorem acts_pause {s : SweepStage} {e : Effect} (he : e.ended? = none)
    (hc : ∀ n, s = .connecting n → e = .connect t) : Acts t .sweep p ⟨p.pause t s, [e]⟩ where
  node := rfl
  tuning := rfl
  closed := rfl
  dialing := fun u h => by
    by_cases hu : u = t
    · subst hu
      refine h.elim (fun h => .inl (.inl h)) fun ⟨n, h⟩ => .inr ?_
      exact List.mem_singleton.mpr (hc n (Option.some.inj (find?_putAt.symm.trans h))).symm
    · exact .inl (h.imp_right fun ⟨n, h⟩ => ⟨n, find?_putAt_of_ne hu ▸ h⟩)
  pinging := fun _ _ h => .inl h
  waits := fun u v h => by
    cases v with
    | borrow => exact .inr h
    | giveBack => exact .inr h
    | sweep => exact (isSome_of_putAt h).imp_left fun hu => ⟨hu, rfl⟩
  endings := .inl (by simp [he])
  lent := fun u link h => by
    cases List.mem_singleton.mp h
    cases he

theorem acts_endSweep {n : Nat} : Acts t .sweep p (p.endSweep t n) :=
  quiet_dropSweep.thenActs (f := fun q => ⟨q, [.swept t n]⟩)
    (acts_end rfl (by simp [Waits, dropSweep]) (by simp))

theorem acts_topUp {n : Nat} : Acts t .sweep p (p.topUp t n) := by
  unfold topUp
  split
  · have hq : Quiet p ⟨p.acquire, []⟩ := quiet_of_eq rfl rfl rfl rfl rfl rfl rfl
    exact hq.thenActs (f := fun q => ⟨q.pause t (.connecting n), [.connect t]⟩)
      (acts_pause rfl fun _ _ => rfl)
  · exact acts_endSweep

theorem acts_endExamination {pass : Pass} : Acts t .sweep p (p.endExamination t pass) := by
  have hq : Quiet p ⟨{ p with metrics := { p.metrics with
      evictions := p.metrics.evictions.add pass.closed.toUInt64 } }, []⟩ :=
    quiet_of_eq rfl rfl rfl rfl rfl rfl rfl
  exact hq.thenActs (f := topUp t pass.closed) acts_topUp

theorem acts_examine {left : Nat} {pass : Pass} : Acts t .sweep p (p.examine now t left pass) := by
  induction left generalizing p pass with
  | zero => exact acts_endExamination
  | succ left ih =>
      unfold examine
      split
      · exact acts_endExamination
      · split
        · exact acts_endExamination
        · rename_i e _
          have hq : Quiet p ⟨(p.setIdle (p.idle.eraseIdx pass.kept)).acquire, []⟩ :=
            quiet_of_eq rfl rfl rfl rfl rfl rfl rfl
          dsimp only
          split
          · exact hq.thenActs (f := fun q => ⟨q.pause t (.pinging e left pass), [.ping t e.link]⟩)
              (acts_pause rfl (by simp))
          · have hs := (hq.andThen (f := fun q => (q.settle e (!p.isStale now p.idle.length e) pass).1)
              quiet_settle).andThen (f := release) quiet_release
            exact hs.thenActs ih

theorem acts_sweep : Acts t .sweep p (p.sweep now t) := by
  unfold sweep
  split
  · exact acts_endSweep
  · exact acts_examine

theorem acts_sweepPinged {alive : Bool} : Acts t .sweep p (p.sweepPinged now t alive) := by
  unfold sweepPinged
  split
  · rename_i e left pass _
    have hq : Quiet p ⟨if alive then p.dropSweep t else (p.dropSweep t).countValidationFailure, []⟩ := by
      refine quiet_dropSweep.andThen (f := fun q => ⟨if alive then q else q.countValidationFailure, []⟩) ?_
      cases alive <;> exact quiet_of_eq rfl rfl rfl rfl rfl rfl rfl
    have hs := (hq.andThen (f := fun q => (q.settle e alive pass).1) quiet_settle).andThen
      (f := release) quiet_release
    exact hs.thenActs acts_examine
  · exact Quiet.refl.acts

theorem acts_sweepConnected {result : Except Fault Link} :
    Acts t .sweep p (p.sweepConnected now t result) := by
  unfold sweepConnected
  split
  · split
    · have hq : Quiet p ⟨p.countCreated, []⟩ := quiet_of_eq rfl rfl rfl rfl rfl rfl rfl
      exact ((hq.andThen (f := park now _) quiet_park).andThen quiet_release).thenActs acts_topUp
    · rename_i f
      have hq : Quiet p ⟨p, [.notice (.refillFailed p.addr f)]⟩ :=
        quiet_of_eq rfl rfl rfl rfl rfl rfl rfl
      exact (hq.andThen quiet_release).thenActs acts_endSweep
  · exact Quiet.refl.acts

/-! ## Moves as a whole -/

/-- What a move does to the operations of a pool. -/
structure Course (m : Move) (p : Pool) (r : Reaction) : Prop where
  node : r.state.node = p.node
  tuning : r.state.tuning = p.tuning
  closed : m ≠ .shutdown → r.state.closed = p.closed
  dialing : ∀ t, r.state.IsDialing t → p.IsDialing t ∨ .connect t ∈ r.effects
  pinging : ∀ t link, find? t r.state.borrows = some (.pinging link) →
    find? t p.borrows = some (.pinging link) ∨ p.tuning.testOnBorrow = true
  waits : ∀ t w, r.state.Waits t w → m.begun? = some (t, w) ∨ p.Waits t w
  endings : endings r.effects = [] ∨ ∃ e t w, endings r.effects = [e] ∧ e.ended? = some (t, w) ∧
    ¬r.state.Waits t w ∧ (m.begun? = some (t, w) ∨ p.Waits t w)
  lent : ∀ t link, .lent t link ∈ r.effects → link ∈ r.state.lent

variable {m : Move}

theorem Acts.course (h : Acts t w p r) (hw : m.begun? = some (t, w) ∨ p.Waits t w) :
    Course m p r where
  node := h.node
  tuning := h.tuning
  closed := fun _ => h.closed
  dialing := h.dialing
  pinging := h.pinging
  waits := fun u v hu => (h.waits u v hu).elim (fun ⟨ht, hv⟩ => ht ▸ hv ▸ hw) .inr
  endings := h.endings.imp id fun ⟨e, he, ht, hn⟩ => ⟨e, t, w, he, ht, hn, hw⟩
  lent := h.lent

theorem Quiet.course (h : Quiet p r) : Course m p r where
  node := h.node
  tuning := h.tuning
  closed := fun _ => h.closed
  dialing := h.dialing
  pinging := h.pinging
  waits := fun u v hu => .inr (h.waits u v hu)
  endings := .inl h.endings
  lent := fun _ _ hl => absurd hl (notMem_of_endings_eq_nil h.endings rfl)

theorem waiting?_of_borrows {s : BorrowStage} (h : find? t p.borrows = some s) :
    p.waiting? t = some .borrow := by
  simp [waiting?, h]

theorem waits_of_waiting? (h : p.waiting? t = some w) : p.Waits t w := by
  have := find?_of_waiting? h
  cases w <;> exact Option.isSome_iff_exists.mpr this

theorem not_waits_of_waiting? (h : p.waiting? t = none) (w : Waiting) : ¬p.Waits t w := by
  obtain ⟨hb, hr, hs⟩ := waiting?_eq_none.mp h
  cases w <;> simp [Waits, hb, hr, hs]

theorem waiting?_eq_none_of_not_waits (h : ∀ w, ¬p.Waits t w) : p.waiting? t = none := by
  cases hw : p.waiting? t with
  | none => rfl
  | some w => exact absurd (waits_of_waiting? hw) (h w)

theorem endings_shutdown : endings p.shutdown.effects = [] := by
  unfold shutdown
  split <;> simp [Pool.endings, Effect.ended?]

theorem course_shutdown : Course .shutdown p p.shutdown := by
  unfold shutdown
  split
  · exact Quiet.refl.course
  · exact ⟨rfl, rfl, fun h => absurd rfl h, fun _ h => .inl h, fun _ _ h => .inl h, fun _ _ h => .inr h,
      .inl (by simp [Pool.endings, Effect.ended?]), by simp⟩

/-- A borrower that is not in the list is not concerned. -/
theorem course_of_borrower {x : Reaction} (h : find? t p.borrows = none → x = ⟨p, []⟩)
    (ha : Acts t .borrow p x) : Course m p x := by
  cases hb : find? t p.borrows with
  | none => exact h hb ▸ Quiet.refl.course
  | some s => exact ha.course (.inr (Option.isSome_iff_exists.mpr ⟨s, hb⟩))

theorem step_course (p : Pool) (now : Nat) (hb : ∀ t, m = .borrow t → p.waiting? t = none) :
    Course m p (p.step now m) := by
  cases m with
  | borrow t => exact (acts_borrow (not_waits_of_waiting? (hb t rfl) _)).course (.inl rfl)
  | takeUp t => exact course_of_borrower (fun h => by simp [step, Pool.takeUp, h]) acts_takeUp
  | expire t => exact course_of_borrower (fun h => by simp [step, Pool.expire, h]) acts_expire
  | abandon t => exact quiet_abandon.course
  | giveBack t link healthy => exact acts_giveBack.course (.inl rfl)
  | letGo link => exact quiet_letGo.course
  | sweep t => exact acts_sweep.course (.inl rfl)
  | pinged t alive =>
      simp only [step]
      split
      · exact acts_borrowPinged.course (.inr (waits_of_waiting? ‹_›))
      · exact acts_returnPinged.course (.inr (waits_of_waiting? ‹_›))
      · exact acts_sweepPinged.course (.inr (waits_of_waiting? ‹_›))
      · exact Quiet.refl.course
  | connected t result =>
      simp only [step]
      split
      · exact acts_borrowConnected.course (.inr (waits_of_waiting? ‹_›))
      · exact acts_sweepConnected.course (.inr (waits_of_waiting? ‹_›))
      · exact Quiet.refl.course
  | shutdown => exact course_shutdown

theorem Accepts.course (ha : p.Accepts m) (now : Nat) : Course m p (p.step now m) :=
  p.step_course now fun t ht => by
    cases ht
    exact ha

/-- No move changes the node of a pool or its tuning, and only a shutdown closes it. -/
theorem step_frame (p : Pool) (now : Nat) (m : Move) :
    (p.step now m).state.node = p.node ∧ (p.step now m).state.tuning = p.tuning ∧
      (m ≠ .shutdown → (p.step now m).state.closed = p.closed) := by
  by_cases hb : ∃ t, m = .borrow t
  · obtain ⟨t, rfl⟩ := hb
    cases hc : p.closed with
    | false =>
        have h := acts_borrow_of_open (t := t) hc
        exact ⟨h.node, h.tuning, fun _ => h.closed.trans hc⟩
    | true =>
        rw [step, borrow_of_closed hc]
        exact ⟨rfl, rfl, fun _ => hc⟩
  · have h : Course m p (p.step now m) := p.step_course now fun t ht => absurd ⟨t, ht⟩ hb
    exact ⟨h.node, h.tuning, h.closed⟩

end Shardway.Pool
