import Shardway.Pool.Move
import Mathlib.Data.Multiset.Count
import Mathlib.Data.Multiset.Filter
import Mathlib.Algebra.Order.Group.Multiset
import Mathlib.Tactic.Abel
import Mathlib.Tactic.Simps.Basic

/-!
# The ledger of a pool

A pool seen as an account. Every permit that is not free is in a hand, and every open connection is
idle or in a hand. A `Step` passes one permit or one connection on; whatever operations do to a pool
is a sequence of such steps (`Proofs/Pool/Refinement.lean`). `Sound` states how the account balances
against the events of the past, and every step keeps it.
-/

namespace Shardway.Pool

/-! ## Events -/

/-- What happens to a pool, seen from outside. -/
inductive Event
  /-- A new connection is there. -/
  | opened (link : Link)
  /-- A connection was not to be had. -/
  | missed (t : Ticket) (fault : Fault)
  /-- A ping got no answer. -/
  | silent (t : Ticket)
  /-- A borrower returned a connection or let go of it. -/
  | back (link : Link)
  | told (e : Effect)
deriving DecidableEq, Repr

def Event.opened? : Event → Option Link
  | .opened link => some link
  | _ => none

def Event.closed? : Event → Option Link
  | .told (.close link) => some link
  | _ => none

def Event.isLoan : Event → Bool
  | .told (.lent ..) => true
  | _ => false

def Event.isBack : Event → Bool
  | .back _ => true
  | _ => false

/-- The connections that were opened. -/
def openings (past : List Event) : List Link := past.filterMap Event.opened?

/-- The connections that were closed. -/
def closings (past : List Event) : List Link := past.filterMap Event.closed?

/-- How many times a connection was lent. -/
def loans (past : List Event) : Nat := past.countP Event.isLoan

/-- How many times a connection came back. -/
def backs (past : List Event) : Nat := past.countP Event.isBack

/-- What a move tells, as events. -/
def tell (es : List Effect) : List Event := es.map .told

@[simp] theorem tell_nil : tell [] = [] := rfl

@[simp] theorem tell_cons (e : Effect) (es : List Effect) :
    tell (e :: es) = .told e :: tell es := rfl

@[simp] theorem tell_append (es es' : List Effect) : tell (es ++ es') = tell es ++ tell es' :=
  List.map_append ..

@[simp] theorem openings_nil : openings [] = [] := rfl

@[simp] theorem openings_cons (e : Event) (past : List Event) :
    openings (e :: past) = e.opened?.toList ++ openings past := by
  cases h : e.opened? <;> simp [openings, h]

@[simp] theorem openings_append (p q : List Event) : openings (p ++ q) = openings p ++ openings q :=
  List.filterMap_append ..

@[simp] theorem closings_nil : closings [] = [] := rfl

@[simp] theorem closings_cons (e : Event) (past : List Event) :
    closings (e :: past) = e.closed?.toList ++ closings past := by
  cases h : e.closed? <;> simp [closings, h]

@[simp] theorem closings_append (p q : List Event) : closings (p ++ q) = closings p ++ closings q :=
  List.filterMap_append ..

@[simp] theorem loans_nil : loans [] = 0 := rfl

@[simp] theorem loans_cons (e : Event) (past : List Event) :
    loans (e :: past) = loans past + if e.isLoan then 1 else 0 := List.countP_cons ..

@[simp] theorem loans_append (p q : List Event) : loans (p ++ q) = loans p + loans q :=
  List.countP_append ..

@[simp] theorem backs_nil : backs [] = 0 := rfl

@[simp] theorem backs_cons (e : Event) (past : List Event) :
    backs (e :: past) = backs past + if e.isBack then 1 else 0 := List.countP_cons ..

@[simp] theorem backs_append (p q : List Event) : backs (p ++ q) = backs p + backs q :=
  List.countP_append ..

/-- Closing the idle connections opens, lends and takes back none. -/
theorem events_closeAll (idle : List Parked) :
    openings (tell (idle.map (.close ·.link))) = [] ∧
      closings (tell (idle.map (.close ·.link))) = idle.map (·.link) ∧
      loans (tell (idle.map (.close ·.link))) = 0 ∧
      backs (tell (idle.map (.close ·.link))) = 0 := by
  induction idle with
  | nil => simp
  | cons e idle ih =>
      simpa [Event.opened?, Event.closed?, Event.isLoan, Event.isBack] using ih

theorem mem_openings {past : List Event} {link : Link} :
    link ∈ openings past ↔ .opened link ∈ past := by
  simp only [openings, List.mem_filterMap]
  constructor
  · rintro ⟨e, he, h⟩
    cases e <;> simp_all [Event.opened?]
  · intro h
    exact ⟨_, h, rfl⟩

theorem mem_closings {past : List Event} {link : Link} :
    link ∈ closings past ↔ .told (.close link) ∈ past := by
  simp only [closings, List.mem_filterMap]
  constructor
  · rintro ⟨e, he, h⟩
    rcases e with _ | _ | _ | _ | e
    all_goals try simp [Event.closed?] at h
    cases e <;> simp_all
  · intro h
    exact ⟨_, h, rfl⟩

/-- Where something stands in a past that has grown. -/
theorem split_of_append {α : Type} {past es before after : List α} {e : α}
    (h : past ++ es = before ++ e :: after) :
    (∃ after', past = before ++ e :: after') ∨
      ∃ before', before = past ++ before' ∧ es = before' ++ e :: after := by
  rcases List.append_eq_append_iff.mp h with ⟨l, rfl, hl⟩ | ⟨l, rfl, hl⟩
  · exact .inr ⟨l, rfl, hl⟩
  · cases l with
    | nil => exact .inr ⟨[], by simp, by simpa using hl.symm⟩
    | cons x l =>
        obtain ⟨rfl, -⟩ := List.cons.inj hl
        exact .inl ⟨l, rfl⟩

/-- Where something stands in a past to which one thing was added. -/
theorem split_of_concat {α : Type} {past before after : List α} {x e : α}
    (h : past ++ [x] = before ++ e :: after) :
    (∃ after', after = after' ++ [x] ∧ past = before ++ e :: after') ∨
      before = past ∧ e = x ∧ after = [] := by
  rcases List.eq_nil_or_concat' after with rfl | ⟨after', y, rfl⟩
  · obtain ⟨rfl, he⟩ := List.append_inj' h rfl
    cases he
    exact .inr ⟨rfl, rfl, rfl⟩
  · rw [← List.cons_append, ← List.append_assoc] at h
    obtain ⟨hp, hy⟩ := List.append_inj' h rfl
    cases hy
    exact .inl ⟨after', rfl, hp⟩

/-! ## Hands -/

/-- What comes with a permit that is not free. -/
inductive Hand
  /-- Nothing yet. -/
  | empty
  /-- A connection that is being opened. -/
  | dialing
  /-- A connection in the hand of an operation. -/
  | holds (link : Link)
  /-- A connection that a borrower has. -/
  | lent (link : Link)
deriving DecidableEq, Repr

namespace Hand

def link? : Hand → Option Link
  | holds link | lent link => some link
  | _ => none

/-- There is a connection, or will be one. -/
def isBusy : Hand → Bool
  | empty => false
  | _ => true

def isLent : Hand → Bool
  | lent _ => true
  | _ => false

@[simp] theorem link?_empty : empty.link? = none := rfl

@[simp] theorem link?_dialing : dialing.link? = none := rfl

@[simp] theorem link?_holds (link : Link) : (holds link).link? = some link := rfl

@[simp] theorem link?_lent (link : Link) : (lent link).link? = some link := rfl

@[simp] theorem isBusy_empty : empty.isBusy = false := rfl

@[simp] theorem isBusy_dialing : dialing.isBusy = true := rfl

@[simp] theorem isBusy_holds (link : Link) : (holds link).isBusy = true := rfl

@[simp] theorem isBusy_lent (link : Link) : (lent link).isBusy = true := rfl

@[simp] theorem isLent_empty : empty.isLent = false := rfl

@[simp] theorem isLent_dialing : dialing.isLent = false := rfl

@[simp] theorem isLent_holds (link : Link) : (holds link).isLent = false := rfl

@[simp] theorem isLent_lent (link : Link) : (lent link).isLent = true := rfl

end Hand

/-! ## The account -/

/-- A pool with all its operations seen as hands. -/
structure Ledger where
  tuning : Config.PoolTuning
  free : Nat
  idle : List Parked
  hands : Multiset Hand
  closed : Bool
  metrics : Metrics

namespace Ledger

/-- The account with more hands. -/
@[simps]
def add (l : Ledger) (x : Multiset Hand) : Ledger := { l with hands := x + l.hands }

@[simps]
def setIdle (l : Ledger) (idle : List Parked) : Ledger :=
  { l with idle, metrics := { l.metrics with idle := l.metrics.idle.set idle.length.toUInt64 } }

@[simps]
def setFree (l : Ledger) (free : Nat) : Ledger := { l with free }

@[simps]
def setMetrics (l : Ledger) (metrics : Metrics) : Ledger := { l with metrics }

/-- There is a place for an idle connection. -/
structure HasPlace (l : Ledger) : Prop where
  isOpen : l.closed = false
  length_lt : l.idle.length < l.tuning.maxIdle

/-- Events that leave the account as it is. A ping goes over a connection in some hand, and only a
closed pool turns borrowers away without counting a failure. -/
inductive Allows (l : Ledger) : Event → Prop
  | missed {t f} : Allows l (.missed t f)
  | wait {t} : Allows l (.told (.wait t))
  | wake {t} : Allows l (.told (.wake t))
  | notice {n} : Allows l (.told (.notice n))
  | returned {t} : Allows l (.told (.returned t))
  | swept {t n} : Allows l (.told (.swept t n))
  | ping {t link} : .holds link ∈ l.hands → Allows l (.told (.ping t link))
  | refused {t f} : l.closed = true → Allows l (.told (.failed t f))

/-- Passing on one permit or one connection at a time `now`. Where an examined connection `e` goes
back to place `k` of the idle ones, `R` holds of that place. -/
inductive Step (R : Nat → Parked → List Parked → Prop) (now : Nat) :
    Ledger → List Event → Ledger → Prop
  | acquire {l : Ledger} : 0 < l.free → Step R now l [] ((l.setFree (l.free - 1)).add {.empty})
  | release {l : Ledger} : Step R now (l.add {.empty}) [] (l.setFree (l.free + 1))
  | take {l : Ledger} {i e} : l.idle[i]? = some e →
      Step R now (l.add {.empty}) [] ((l.setIdle (l.idle.eraseIdx i)).add {.holds e.link})
  | park {l : Ledger} {link} : l.HasPlace →
      Step R now (l.add {.holds link}) [] ((l.setIdle (l.idle ++ [⟨link, now⟩])).add {.empty})
  | repark {l : Ledger} {k e} : l.HasPlace → k ≤ l.idle.length → R k e l.idle →
      Step R now (l.add {.holds e.link}) [] ((l.setIdle (l.idle.insertIdx k e)).add {.empty})
  | examined {l : Ledger} : Step R now l [] (l.setIdle l.idle)
  | dial {l : Ledger} {t} : l.idle.length + (l.tuning.maxTotal - l.free) ≤ l.tuning.maxTotal →
      Step R now (l.add {.empty}) [.told (.connect t)] (l.add {.dialing})
  | hangUp {l : Ledger} : Step R now (l.add {.dialing}) [] (l.add {.empty})
  | opened {l : Ledger} {link} :
      Step R now (l.add {.dialing}) [.opened link]
        ((l.setMetrics { l.metrics with created := l.metrics.created.increment }).add
          {.holds link})
  | close {l : Ledger} {link} :
      Step R now (l.add {.holds link}) [.told (.close link)]
        ((l.setMetrics { l.metrics with closed := l.metrics.closed.increment }).add {.empty})
  | reject {l : Ledger} {link t} :
      Step R now (l.add {.holds link}) [.silent t, .told (.close link)]
        ((l.setMetrics { l.metrics with
            validationFailures := l.metrics.validationFailures.increment
            closed := l.metrics.closed.increment }).add {.empty})
  | abandon {l : Ledger} {link} :
      Step R now (l.add {.holds link}) [.told (.close link)] (l.add {.empty})
  | lend {l : Ledger} {link t} :
      Step R now (l.add {.holds link}) [.told (.lent t link)]
        ((l.setMetrics { l.metrics with
            borrows := l.metrics.borrows.increment
            active := l.metrics.active.increment }).add {.lent link})
  | back {l : Ledger} {link} :
      Step R now (l.add {.lent link}) [.back link]
        ((l.setMetrics { l.metrics with active := l.metrics.active.decrement }).add {.holds link})
  | fail {l : Ledger} {t f} :
      Step R now l [.told (.failed t f)]
        (l.setMetrics { l.metrics with borrowFailures := l.metrics.borrowFailures.increment })
  | count {l : Ledger} {n} :
      Step R now l [] (l.setMetrics { l.metrics with evictions := l.metrics.evictions.add n })
  | shut {l : Ledger} : l.closed = false →
      Step R now l (tell (l.idle.map (.close ·.link)))
        { l.setIdle [] with
          closed := true
          metrics := { (l.setIdle []).metrics with
            closed := l.metrics.closed.add l.idle.length.toUInt64 } }
  | say {l : Ledger} {e} : l.Allows e → Step R now l [e] l

/-- Steps one after the other, all at one time. -/
inductive Steps (R : Nat → Parked → List Parked → Prop) (now : Nat) :
    Ledger → List Event → Ledger → Prop
  | refl {l : Ledger} : Steps R now l [] l
  | cons {l l' l'' : Ledger} {es es'} :
      Step R now l es l' → Steps R now l' es' l'' → Steps R now l (es ++ es') l''

variable {R : Nat → Parked → List Parked → Prop} {now : Nat} {l l' l'' : Ledger}
  {es es' : List Event}

theorem Step.single (h : Step R now l es l') : Steps R now l es l' := by
  simpa using Steps.cons h .refl

theorem Steps.trans (h : Steps R now l es l') (h' : Steps R now l' es' l'') :
    Steps R now l (es ++ es') l'' := by
  induction h with
  | refl => exact h'
  | cons hs _ ih => rw [List.append_assoc]; exact .cons hs (ih h')

theorem Steps.wake (ts : List Ticket) : Steps R now l (tell (ts.map .wake)) l := by
  induction ts with
  | nil => exact .refl
  | cons t ts ih => exact .cons (.say .wake) ih

/-! ## The balance -/

/-- How many connections are in hands, those that are being opened included. -/
def busy (l : Ledger) : Nat := l.hands.countP (·.isBusy)

/-- How many connections are lent. -/
def lentCount (l : Ledger) : Nat := l.hands.countP (·.isLent)

/-- The open connections, wherever they are. -/
def links (l : Ledger) : Multiset Link := ↑(l.idle.map (·.link)) + l.hands.filterMap Hand.link?

/-- The account balances against the past. -/
structure Sound (past : List Event) (l : Ledger) : Prop where
  permits : l.free + l.hands.card = l.tuning.maxTotal
  room : l.idle.length + l.busy ≤ l.tuning.maxTotal
  idle_le : l.idle.length ≤ l.tuning.maxIdle
  /-- What was opened was closed or is somewhere. -/
  links : ↑(closings past) + l.links = (↑(openings past) : Multiset Link)
  /-- What was lent came back or is lent. -/
  lent : backs past + l.lentCount = loans past

@[simp] theorem busy_setIdle (l : Ledger) (idle : List Parked) :
    (l.setIdle idle).busy = l.busy := rfl

@[simp] theorem busy_setFree (l : Ledger) (n : Nat) : (l.setFree n).busy = l.busy := rfl

@[simp] theorem busy_setMetrics (l : Ledger) (m : Metrics) : (l.setMetrics m).busy = l.busy := rfl

@[simp] theorem busy_add (l : Ledger) (x : Hand) :
    (l.add {x}).busy = l.busy + if x.isBusy then 1 else 0 := by
  simp [busy, Multiset.countP_cons]

@[simp] theorem lentCount_setIdle (l : Ledger) (idle : List Parked) :
    (l.setIdle idle).lentCount = l.lentCount := rfl

@[simp] theorem lentCount_setFree (l : Ledger) (n : Nat) :
    (l.setFree n).lentCount = l.lentCount := rfl

@[simp] theorem lentCount_setMetrics (l : Ledger) (m : Metrics) :
    (l.setMetrics m).lentCount = l.lentCount := rfl

@[simp] theorem lentCount_add (l : Ledger) (x : Hand) :
    (l.add {x}).lentCount = l.lentCount + if x.isLent then 1 else 0 := by
  simp [lentCount, Multiset.countP_cons]

@[simp] theorem links_setFree (l : Ledger) (n : Nat) : (l.setFree n).links = l.links := rfl

@[simp] theorem links_setMetrics (l : Ledger) (m : Metrics) :
    (l.setMetrics m).links = l.links := rfl

@[simp] theorem links_setIdle_self (l : Ledger) : (l.setIdle l.idle).links = l.links := rfl

theorem links_add (l : Ledger) (x : Hand) :
    (l.add {x}).links = (↑x.link?.toList : Multiset Link) + l.links := by
  unfold links
  rw [add_hands, Multiset.singleton_add, add_left_comm]
  cases h : x.link? <;> simp [h]

theorem links_setIdle (l : Ledger) {idle idle' : List Parked} {e : Parked}
    (h : idle'.Perm (e :: idle)) :
    (l.setIdle idle').links = {e.link} + (l.setIdle idle).links := by
  have hm : (↑(idle'.map (·.link)) : Multiset Link) = ↑((e :: idle).map (·.link)) :=
    Multiset.coe_eq_coe.mpr (h.map _)
  simp only [links, setIdle_idle, setIdle_hands, hm, List.map_cons]
  rw [← Multiset.cons_coe, ← Multiset.singleton_add, add_assoc]

theorem busy_le_card (l : Ledger) : l.busy ≤ l.hands.card := Multiset.countP_le_card _ _

theorem lentCount_le_card (l : Ledger) : l.lentCount ≤ l.hands.card := Multiset.countP_le_card _ _

theorem Step.tuning_eq (h : Step R now l es l') : l'.tuning = l.tuning := by
  cases h <;> rfl

theorem Step.permits (h : Step R now l es l') (hl : l.free + l.hands.card = l.tuning.maxTotal) :
    l'.free + l'.hands.card = l'.tuning.maxTotal := by
  cases h with
  | acquire hf => simp; omega
  | release => simp at hl ⊢; omega
  | fail | count | shut _ | say _ => exact hl
  | _ => simpa using hl

theorem Step.idle_le (h : Step R now l es l') (hl : l.idle.length ≤ l.tuning.maxIdle) :
    l'.idle.length ≤ l'.tuning.maxIdle := by
  cases h with
  | take hi =>
      obtain ⟨hlt, -⟩ := List.getElem?_eq_some_iff.mp hi
      simp [List.length_eraseIdx, hlt] at hl ⊢; omega
  | park hp => simpa [Nat.succ_le_iff] using hp.length_lt
  | repark hp hk _ => simpa [List.length_insertIdx, hk, Nat.succ_le_iff] using hp.length_lt
  | shut _ => simp
  | _ => exact hl

theorem Step.room (h : Step R now l es l') (hp : l.free + l.hands.card = l.tuning.maxTotal)
    (hl : l.idle.length + l.busy ≤ l.tuning.maxTotal) :
    l'.idle.length + l'.busy ≤ l'.tuning.maxTotal := by
  cases h with
  | take hi =>
      obtain ⟨hlt, -⟩ := List.getElem?_eq_some_iff.mp hi
      simp [List.length_eraseIdx, hlt] at hl ⊢; omega
  | park hp => simp at hl ⊢; omega
  | repark hp hk _ => simp [List.length_insertIdx, hk] at hl ⊢; omega
  | @dial l _ hd =>
      -- The one step that adds a connection.
      have := l.busy_le_card
      simp at hp hl ⊢
      omega
  | hangUp => simp at hl ⊢; omega
  | close | reject | abandon => simp at hl ⊢; omega
  | shut _ => simp [busy] at hl ⊢; omega
  | _ => simpa using hl

/-- A step moves connections, and only opening and closing changes which there are. -/
theorem Step.links_eq (h : Step R now l es l') :
    ↑(closings es) + l'.links = (↑(openings es) : Multiset Link) + l.links := by
  cases h with
  | acquire _ | release | hangUp | dial _ => simp [links_add, Event.opened?, Event.closed?]
  | @take l i e hi =>
      obtain ⟨hlt, rfl⟩ := List.getElem?_eq_some_iff.mp hi
      simpa [links_add] using
        (l.links_setIdle (List.getElem_cons_eraseIdx_perm hlt).symm).symm
  | @park l link hp =>
      simpa [links_add] using l.links_setIdle (List.perm_append_singleton ⟨link, now⟩ l.idle)
  | @repark l k e hp hk _ =>
      simpa [links_add] using l.links_setIdle (List.perm_insertIdx e l.idle hk)
  | opened | close | reject | abandon | lend | back =>
      simp [links_add, Event.opened?, Event.closed?]
  | fail | count | examined => simp [Event.opened?, Event.closed?]
  | @shut l _ =>
      obtain ⟨ho, hc, -, -⟩ := events_closeAll l.idle
      simp [ho, hc, links]
  | say ha => cases ha <;> simp [Event.opened?, Event.closed?]

theorem Step.lent_eq (h : Step R now l es l') :
    backs es + l'.lentCount = loans es + l.lentCount := by
  cases h with
  | @shut l _ =>
      obtain ⟨-, -, hl, hb⟩ := events_closeAll l.idle
      simp [hl, hb, lentCount]
  | say ha => cases ha <;> simp [Event.isBack, Event.isLoan]
  | back | lend => simp [Event.isBack, Event.isLoan]; omega
  | _ => simp [Event.isBack, Event.isLoan]

theorem Step.sound {past : List Event} (h : Step R now l es l') (hl : l.Sound past) :
    l'.Sound (past ++ es) where
  permits := h.permits hl.permits
  room := h.room hl.permits hl.room
  idle_le := h.idle_le hl.idle_le
  links := by
    have := h.links_eq
    rw [closings_append, openings_append, ← Multiset.coe_add, ← Multiset.coe_add, add_assoc, this,
      ← hl.links, add_left_comm]
    abel
  lent := by
    have := h.lent_eq
    have := hl.lent
    rw [backs_append, loans_append]; omega

theorem Steps.sound {past : List Event} (h : Steps R now l es l') (hl : l.Sound past) :
    l'.Sound (past ++ es) := by
  induction h generalizing past with
  | refl => simpa using hl
  | cons hs _ ih => simpa using ih (hs.sound hl)

/-! ## The gauge of lent connections -/

theorem toNat_increment {g : Gauge} (h : g.value.toNat + 1 < 2 ^ 64) :
    g.increment.value.toNat = g.value.toNat + 1 := by
  simp only [Gauge.increment, UInt64.toNat_add, UInt64.toNat_one]
  omega

theorem toNat_decrement (g : Gauge) : g.decrement.value.toNat = g.value.toNat - 1 := by
  unfold Gauge.decrement
  split
  · simp_all
  · rename_i h
    have hpos : g.value.toNat ≠ 0 := fun h0 => h (UInt64.toNat_inj.mp h0)
    rw [UInt64.toNat_sub_of_le]
    · rfl
    · rw [UInt64.le_iff_toNat_le, UInt64.toNat_one]; omega

/-- The gauge cannot pass the number of permits, so it does not run over. -/
theorem Step.active (h : Step R now l es l') (hw : l.tuning.maxTotal < 2 ^ 64)
    (hp : l.free + l.hands.card = l.tuning.maxTotal)
    (hl : l.metrics.active.value.toNat = l.lentCount) :
    l'.metrics.active.value.toNat = l'.lentCount := by
  cases h with
  | @lend l link t =>
      have := l.lentCount_le_card
      simp only [add_metrics, add_tuning, add_free, add_hands, lentCount_add,
        Multiset.singleton_add, Multiset.card_cons] at hw hp hl
      rw [add_metrics, setMetrics_metrics, toNat_increment (by simp at hl; omega), hl]
      simp
  | back =>
      rw [add_metrics, setMetrics_metrics, toNat_decrement]
      simp at hl ⊢; omega
  | shut _ => exact hl
  | _ => simpa using hl

theorem Steps.tuning_eq (h : Steps R now l es l') : l'.tuning = l.tuning := by
  induction h with
  | refl => rfl
  | cons hs _ ih => exact ih.trans hs.tuning_eq

theorem Steps.active (h : Steps R now l es l') (hw : l.tuning.maxTotal < 2 ^ 64)
    (hp : l.free + l.hands.card = l.tuning.maxTotal)
    (hl : l.metrics.active.value.toNat = l.lentCount) :
    l'.metrics.active.value.toNat = l'.lentCount := by
  induction h with
  | refl => exact hl
  | cons hs _ ih => exact ih (hs.tuning_eq ▸ hw) (hs.permits hp) (hs.active hw hp hl)

end Ledger

end Shardway.Pool
