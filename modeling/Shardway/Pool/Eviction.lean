import Shardway.Pool.Basic

/-!
Eviction: a pass examines idle connections from the one that has been idle longest on, closes those
that are too old or do not answer, and then opens new ones up to the least number that should be
idle. The connection under examination is out of the idle ones and holds a permit.
-/
namespace Shardway.Pool

/-- Too old to be kept, when so many connections are idle, this one included. -/
def isStale (p : Pool) (now count : Nat) (e : Parked) : Bool :=
  let age := now - e.since
  p.tuning.minEvictableIdleMs ≤ age ||
    (p.tuning.softMinEvictableIdleMs ≠ 0 && p.tuning.softMinEvictableIdleMs ≤ age &&
      p.tuning.minIdle < count)

/-- Puts an examined connection back behind the `kept` ones, if there is a place for it. -/
def repark? (kept : Nat) (e : Parked) (p : Pool) : Option Pool :=
  if p.isFull then none else some (p.setIdle (p.idle.insertIdx (min kept p.idle.length) e))

/-- The pass waits. -/
def pause (t : Ticket) (s : SweepStage) (p : Pool) : Pool := { p with sweeps := putAt t s p.sweeps }

def endSweep (t : Ticket) (closed : Nat) (p : Pool) : Reaction :=
  ⟨{ p with sweeps := without t p.sweeps }, [.swept t closed]⟩

/-- Fewer connections are idle than should be, and there is room for another one. -/
def needsIdle (p : Pool) : Bool :=
  p.idle.length < p.tuning.minIdle && p.idle.length + p.inUse < p.tuning.maxTotal

/-- Opens a connection if one is needed, else ends the pass. -/
def topUp (t : Ticket) (closed : Nat) (p : Pool) : Reaction :=
  if !p.closed && p.needsIdle && 0 < p.free then
    ⟨p.acquire.pause t (.connecting closed), [.connect t]⟩
  else p.endSweep t closed

/-- Nothing more is to be examined. -/
def endExamination (t : Ticket) (pass : Pass) (p : Pool) : Reaction :=
  ({ p with metrics := { p.metrics with
      evictions := p.metrics.evictions.add pass.closed.toUInt64 } } : Pool).topUp t pass.closed

/-- An examined connection leaves the examination: it goes back to its place or is closed. -/
def settle (e : Parked) (keep : Bool) (pass : Pass) (p : Pool) : Reaction × Pass :=
  match if keep then p.repark? pass.kept e else none with
  | some p => (⟨p, []⟩, { pass with kept := pass.kept + 1 })
  | none => (p.discard e.link, { pass with closed := pass.closed + 1 })

/-- Examines up to `left` more connections. -/
def examine (now : Nat) (t : Ticket) : (left : Nat) → Pass → Pool → Reaction
  | 0, pass, p => p.endExamination t pass
  | left + 1, pass, p =>
    if p.closed || p.free = 0 then p.endExamination t pass
    else
      match p.idle[pass.kept]? with
      | none => p.endExamination t pass
      | some e =>
        let stale := p.isStale now p.idle.length e
        let p := (p.setIdle (p.idle.eraseIdx pass.kept)).acquire
        if !stale && p.tuning.testWhileIdle then
          ⟨p.pause t (.pinging e left pass), [.ping t e.link]⟩
        else
          let (r, pass) := p.settle e (!stale) pass
          (r.andThen release).andThen (examine now t left pass)

/-- An eviction pass begins. -/
def sweep (now : Nat) (t : Ticket) (p : Pool) : Reaction :=
  if p.closed then p.endSweep t 0 else p.examine now t p.tuning.testsPerEviction {}

/-- The connection under examination answered its ping, or did not. -/
def sweepPinged (now : Nat) (t : Ticket) (alive : Bool) (p : Pool) : Reaction :=
  match find? t p.sweeps with
  | some (.pinging e left pass) =>
    let p := { p with sweeps := without t p.sweeps }
    let p := if alive then p else p.countValidationFailure
    let (r, pass) := p.settle e alive pass
    (r.andThen release).andThen (examine now t left pass)
  | _ => ⟨p, []⟩

/-- The new idle connection is open, or could not be opened; after a failure the pass ends. -/
def sweepConnected (now : Nat) (t : Ticket) (result : Except Fault Link) (p : Pool) : Reaction :=
  match find? t p.sweeps with
  | some (.connecting closed) =>
    match result with
    | .ok link => ((p.countCreated.park now link).andThen release).andThen (topUp t closed)
    | .error f =>
      ((⟨p, [.notice (.refillFailed p.addr f)]⟩ : Reaction).andThen release).andThen
        (endSweep t closed)
  | _ => ⟨p, []⟩

end Shardway.Pool
