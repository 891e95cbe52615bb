import Shardway.Cli.Arguments
import Shardway.Document.JsonPrinter
import Shardway.Router.Index

/-!
What the command line prints: groups, also as documents, the owner of a key, values, changes of
masters, and failures.
-/
namespace Shardway

/-! ## Topologies as documents -/

def Address.document (a : Address) : Document :=
  .object [("host", .text a.host), ("port", .nat a.port.toNat)]

def Span.document (s : Span) : Document :=
  .object [("secs", .nat s.seconds), ("nanos", .nat s.subsecNanos)]

def Node.document (n : Node) : Document :=
  .object [("addr", n.addr.document), ("group_id", .nat n.group.toNat),
    ("timeout", n.timeout.document)]

def Role.document : Role → Document
  | .master => .object [("role", .text "master")]
  | .replica of => .object [("role", .text "replica"), ("of", .opt Address.document of)]
  | .unreachable reason =>
    .object [("role", .text "unreachable"), ("reason", .text reason)]

def ResolvedGroup.document (g : ResolvedGroup) : Document :=
  .object [("group_id", .nat g.id.toNat), ("master", .opt Node.document g.master),
    ("replicas", .listOf Node.document g.replicas),
    ("unreachable", .listOf Node.document g.unreachable)]

namespace Cli

/-! ## Topologies and values as lines -/

/-- A master by its address, or the word for none. -/
def masterText (a : Option Address) : String := (a.map Address.text).getD "none"

/-- The lines about a group. -/
def groupLines (g : ResolvedGroup) : List String :=
  s!"Group {g.id}:" :: s!"  Master: {masterText g.masterAddr?}" ::
    (g.replicas.map fun n => s!"  Replica: {n.addr}") ++
      g.unreachable.map fun n => s!"  Unreachable: {n.addr}"

/-- The lines about a topology, or its document on many lines. -/
def topologyLines (json : Bool) (groups : List ResolvedGroup) : List String :=
  if json then [(Document.listOf ResolvedGroup.document groups).prettyJson]
  else groups.flatMap groupLines

/-- The lines about the owner of a key. -/
def routeLines (x : Index) (key : String) : List String :=
  match x.slotFor? (Text.Utf8.encode key) with
  | some slot =>
    [s!"Key: {key}", s!"  Group: {slot.group.id}",
      s!"  Master: {masterText slot.group.masterAddr?}"]
  | none => [s!"No group owns {key}"]

/-- A value as far as it is a text. -/
def valueLine (v : Option Bytes) : String := (v.map Text.Utf8.decodeLossy).getD "(nil)"

/-! ## Changes of masters -/

/-- The masters of the groups as they are printed. -/
abbrev Masters := List (GroupId × Option String)

def Masters.ofIndex (x : Index) : Masters :=
  x.masters.map fun (g, a) => (g, a.map Address.text)

def Masters.get? (m : Masters) (g : GroupId) : Option (Option String) :=
  (m.find? (·.1 = g)).map (·.2)

/-- A line for each group whose master is another one than before. -/
def changeLines (before after : Masters) : List String :=
  after.filterMap fun (g, master) =>
    if before.get? g = some master then none
    else
      let old := ((before.get? g).getD none).getD "none"
      let new := master.getD "none"
      some s!"Group {g}: master {old} -> {new}"

/-- The masters of the groups as they were last seen. -/
structure Watch where
  masters : Masters
deriving DecidableEq, Repr

namespace Watch

/-- Begins with the masters of the first index. -/
def start (x : Index) : Watch := ⟨.ofIndex x⟩

/-- A refresh is over: the lines about it, and what is known from then on. One that failed shows
nothing and changes nothing. -/
def observe (result : Except Fault Index) (w : Watch) : List String × Watch :=
  match result with
  | .error _ => ([], w)
  | .ok x => (changeLines w.masters (.ofIndex x), start x)

end Watch

/-! ## The end of a run -/

/-- What is said of a failure; a fault in the configuration is given once more as its cause. -/
def failureText (f : Fault) : String :=
  match f with
  | .config e => s!"Error: {f.message}\n\nCaused by:\n    {e.message}"
  | f => s!"Error: {f.message}"

/-- How a run ends: its exit code, and what it says of a failure. -/
structure Outcome where
  code : Nat := 0
  complaint : Option String := none
deriving DecidableEq, Repr

namespace Outcome

def success : Outcome := {}

def failure (f : Fault) : Outcome := ⟨1, some (failureText f)⟩

/-- Arguments that cannot be understood. -/
def misuse (f : UsageFault) : Outcome := ⟨2, some f.message⟩

/-- A ticker needs a period; without one the program crashes. -/
def noPeriod : Outcome := ⟨101, some "`period` must be non-zero."⟩

end Outcome
end Cli
end Shardway
