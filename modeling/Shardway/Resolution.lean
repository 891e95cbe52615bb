import Shardway.Group
import Shardway.Reaction

/-!
Resolution: one round in which every member of every group is asked for its role, all at the same
time. A group is elected once all of its members have answered or run out of time, and the round is
over once all groups are elected, or at the first group whose probing breaks off.
-/
namespace Shardway

/-- What a probe may take beyond connecting and asking. -/
def probeGrace : Span := .ofMillis 100

/-- How long a probe may take: twice the bound of the node, and a grace. -/
def Node.probeDeadline (n : Node) : Span :=
  ⟨min (n.timeout.nanos * 2 + probeGrace.nanos) Span.longest.nanos⟩

/-- The role of a node that did not answer in time. -/
def Node.timedOut (n : Node) : Role :=
  .unreachable s!"probe timed out after {n.probeDeadline.text}"

/-- A group in a round: the roles its members have told so far. -/
structure Poll where
  set : ReplicaSet
  roles : List (Option Role)
  /-- Elected, or broken off. -/
  closed : Bool := false
deriving DecidableEq, Repr, Inhabited

namespace Poll

def ofSet (set : ReplicaSet) : Poll := ⟨set, set.members.map fun _ => none, false⟩

/-- The roles of all members, once they are all known. -/
def complete? (p : Poll) : Option (List Role) := p.roles.mapM id

/-- Notes the role of the member at a place, unless it is known. -/
def note (j : Nat) (role : Role) (p : Poll) : Poll :=
  { p with roles := p.roles.modify j fun r => some (r.getD role) }

end Poll

/-- The outcome of one group in a round. -/
inductive Verdict
  | elected (g : ResolvedGroup)
  /-- Its probing broke off, with what is known of the reason. -/
  | brokenOff (reason : String)
deriving DecidableEq, Repr

structure Round where
  polls : List Poll
  /-- Verdicts that are not counted yet, in the order in which they fell. -/
  verdicts : List Verdict := []
  /-- The groups counted so far, by ascending id. -/
  resolved : List ResolvedGroup := []
deriving DecidableEq, Repr, Inhabited

namespace Round

/-- A round after a move, and what is told of it. -/
abbrev Reaction := Shardway.Reaction Notice Round

/-- Elects the group at a place if all of its members are known. -/
def close (i : Nat) (r : Round) : Reaction :=
  match r.polls[i]? with
  | none => ⟨r, []⟩
  | some p =>
    match p.closed, p.complete? with
    | false, some roles =>
      ⟨{ r with
          polls := r.polls.set i { p with closed := true }
          verdicts := r.verdicts ++ [.elected (elect p.set roles)] },
        electNotices p.set roles⟩
    | _, _ => ⟨r, []⟩

/-- Closes the groups at places below `n`. -/
def closeAll : (n : Nat) → Round → Reaction
  | 0, r => ⟨r, []⟩
  | n + 1, r => (closeAll n r).andThen (close n)

/-- A round begins. Groups without members are elected at once. -/
def start (sets : List ReplicaSet) : Reaction := closeAll sets.length ⟨sets.map Poll.ofSet, [], []⟩

/-- The member `j` of the group at place `i` has told its role. -/
def answer (i j : Nat) (role : Role) (r : Round) : Reaction :=
  close i { r with polls := r.polls.modify i fun p => if p.closed then p else p.note j role }

/-- The probing of the group at place `i` breaks off. -/
def breakOff (i : Nat) (reason : String) (r : Round) : Round :=
  match r.polls[i]? with
  | none => r
  | some p =>
    if p.closed then r
    else
      { r with
        polls := r.polls.set i { p with closed := true }
        verdicts := r.verdicts ++ [.brokenOff reason] }

/-- What is told of a group that is counted. -/
def notice (g : ResolvedGroup) : Notice :=
  match g.master with
  | some m => .groupResolved g.id m.addr g.replicas.length g.unreachable.length
  | none => .groupMasterless g.id g.replicas.length g.unreachable.length

/-- Adds a group to others with ascending ids, in place of one with its id. -/
def insert (g : ResolvedGroup) : List ResolvedGroup → List ResolvedGroup
  | [] => [g]
  | h :: r =>
    if g.id < h.id then g :: h :: r
    else if g.id = h.id then g :: r
    else h :: insert g r

def brokenOffFault (reason : String) : Fault := .internal s!"probe task failed: {reason}"

/-- Counts verdicts in their order, up to the first one that broke off, whose reason is given. -/
def count : List Verdict → List ResolvedGroup →
    List ResolvedGroup × List Notice × Option String
  | [], resolved => (resolved, [], none)
  | .brokenOff reason :: _, resolved => (resolved, [], some reason)
  | .elected g :: r, resolved =>
    let (resolved, notices, broken) := count r (insert g resolved)
    (resolved, notice g :: notices, broken)

/-- Counts the verdicts that have fallen. The outcome is there if the round is over. -/
def collect (r : Round) : Reaction × Option (Except Fault (List ResolvedGroup)) :=
  let (resolved, notices, broken) := count r.verdicts r.resolved
  let next : Round := ⟨r.polls, [], resolved⟩
  (⟨next, notices⟩,
    match broken with
    | some reason => some (.error (brokenOffFault reason))
    | none => if resolved.length = r.polls.length then some (.ok resolved) else none)

/-- Some verdict waits to be counted, or there is nothing to wait for. -/
def isReady (r : Round) : Bool := !r.verdicts.isEmpty || r.polls.isEmpty

end Round
end Shardway
