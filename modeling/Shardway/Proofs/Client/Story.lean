import Shardway.Proofs.Client.Runs
import Shardway.Proofs.Pool.Capacity

/-!
# Stories of a client

A story is a client with the time and all that has happened to it and to its pools. Calls and the
operations that others have on the pools run side by side: any move may come next that is in keeping
with what is in progress.
-/

namespace Shardway.Client

/-- What happens to a client, seen from outside. -/
inductive Event
  /-- An attempt of a call begins, which routes by this index. -/
  | begun (t : Ticket) (key : Bytes) (request : Request) (index : Index)
  /-- This comes to a pool with one of its moves. -/
  | came (pool : PoolId) (m : Pool.Move) (e : Pool.Event)
  /-- A pool opens a connection to the address of its node. -/
  | dialed (pool : PoolId) (t : Ticket) (addr : Option Address)
  | told (e : Effect)

namespace Event

def ofEffect (f : Fleet) : Effect → Event
  | .pool i (.connect t) => .dialed i t ((f.pools[i]?).map Pool.addr)
  | e => .told e

/-- What the event is to one pool. -/
def ofPool? (i : PoolId) : Event → Option Pool.Event
  | .came j _ e => if j = i then some e else none
  | .dialed j t _ => if j = i then some (.told (.connect t)) else none
  | .told (.pool j e) => if j = i then some (.told e) else none
  | _ => none

end Event

/-- What has happened to one pool. -/
def poolPast (i : PoolId) (past : List Event) : List Pool.Event := past.filterMap (Event.ofPool? i)

/-- The connection came to the pool when it had opened one to the address. -/
def OpenedTo (past : List Event) (i : PoolId) (link : Link) (a : Address) : Prop :=
  ∃ t before after, past = before ++ .came i (.connected t (.ok link)) (.opened link) :: after ∧
    .dialed i t (some a) ∈ before

/-! ## Attempts -/

/-- An attempt of a call, and how many requests it has sent. -/
structure Attempt where
  key : Bytes
  request : Request
  index : Index
  sent : Nat := 0

/-- What an event makes of the last attempt of a call. -/
def Attempt.note (t : Ticket) (a : Option Attempt) : Event → Option Attempt
  | .begun u key request index => if u = t then some { key, request, index } else a
  | .told (.send u _ _ _) => if u = t then a.map fun a => { a with sent := a.sent + 1 } else a
  | _ => a

/-- The last attempt of a call. -/
def lastAttempt? (t : Ticket) (past : List Event) : Option Attempt := past.foldl (Attempt.note t) none

/-- The call that begins an attempt with a move. -/
def attempt? (c : Client) : Move → Option (Ticket × Call)
  | .call t key request attempts => some (t, ⟨key, request, ⟨max attempts 1, 0, firstPause⟩, .pausing⟩)
  | .woken t =>
    match c.find? t with
    | some call =>
      match call.stage with
      | .pausing => some (t, call)
      | _ => none
    | none => none
  | _ => none

/-- The move of a pool that comes with a move of the client. -/
def poolMove? (c : Client) (m : Move) : Option (PoolId × Pool.Move) :=
  match m with
  | .pool i m => some (i, m)
  | .replied t outcome =>
    match c.find? t with
    | some call =>
      match call.stage with
      | .running i link => some (i, .giveBack t link (isHealthy outcome))
      | _ => none
    | none => none
  | m =>
    (c.attempt? m).bind fun (t, call) => (c.router.route call.key).toOption.map fun i => (i, .borrow t)

/-- What comes to one of the pools with a move. -/
def arrived (pools : List Pool) (i : PoolId) (m : Pool.Move) : List Event :=
  match pools[i]? with
  | none => []
  | some p => (p.inputs m).map (.came i m)

/-! ## Stories -/

structure Story where
  client : Client
  now : Nat := 0
  past : List Event := []

namespace Story

def pools (s : Story) : List Pool := s.client.router.fleet.pools

def beginnings (s : Story) (m : Move) : List Event :=
  ((s.client.attempt? m).map fun (t, call) =>
    .begun t call.key call.request s.client.router.current).toList

def arrivals (s : Story) (m : Move) : List Event :=
  match s.client.poolMove? m with
  | none => []
  | some (i, m) => arrived s.pools i m

/-- What a move adds to the past. -/
def news (s : Story) (now : Nat) (m : Move) : List Event :=
  s.beginnings m ++ s.arrivals m ++
    (s.client.step now m).effects.map (Event.ofEffect s.client.router.fleet)

def next (s : Story) (now : Nat) (m : Move) : Story where
  client := (s.client.step now m).state
  now := now
  past := s.past ++ s.news now m

/-- One pool with its own past. -/
def ofPool (s : Story) (i : PoolId) (p : Pool) : Pool.Story := ⟨p, s.now, poolPast i s.past⟩

/-- Calls come under new tickets, and so do others' operations on pools. What is returned to a pool
was lent by it, and a reply comes over a connection that the call has. -/
def Admits (s : Story) : Move → Prop
  | .call t _ _ _ => s.client.find? t = none ∧ ∀ p ∈ s.pools, p.waiting? t = none
  | .replied t _ => ∀ call i link, s.client.find? t = some call → call.stage = .running i link →
    ∀ p, s.pools[i]? = some p → link ∈ p.lent
  | .pool i m => (∀ t w, m.begun? = some (t, w) → s.client.find? t = none) ∧
    ∀ p, s.pools[i]? = some p → (s.ofPool i p).Admits m
  | _ => True

/-- The stories of the clients of a configuration. -/
inductive Runs (config : Config.Cluster) : Story → Prop
  | launch {sets : List ReplicaSet} {round : Round} {background : Bool}
      {resolved : List ResolvedGroup} {started : Router} {told : List Effect} :
      Router.plan config = .ok sets → Round.Runs sets round →
      round.collect.2 = some (.ok resolved) →
      Router.ofResolved config background resolved = (.ok started, told) →
      Runs config { client := ⟨started, []⟩ }
  | next {s : Story} {now : Nat} {m : Move} :
      Runs config s → s.now ≤ now → s.Admits m → Runs config (s.next now m)

/-- A story goes on by moves that are admitted, in any order. -/
inductive Leads (s : Story) : Story → Prop
  | refl : Leads s s
  | next {s' : Story} {now : Nat} {m : Move} :
      Leads s s' → s'.now ≤ now → s'.Admits m → Leads s (s'.next now m)

variable {config : Config.Cluster} {s s' : Story}

theorem Runs.leads (h : Runs config s) (hl : Leads s s') : Runs config s' := by
  induction hl with
  | refl => exact h
  | next _ hn ha ih => exact ih.next hn ha

/-- What has happened stays in the past. -/
theorem Leads.exists_past_eq (h : Leads s s') : ∃ es, s'.past = s.past ++ es := by
  induction h with
  | refl => exact ⟨[], (List.append_nil _).symm⟩
  | @next s' now m _ _ _ ih =>
      obtain ⟨es, he⟩ := ih
      refine ⟨es ++ s'.news now m, ?_⟩
      simp [Story.next, he]

end Story

end Shardway.Client
