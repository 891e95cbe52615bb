import Shardway.Cli.Session
import Shardway.Simulation.World

/-!
The command line in a scripted world: files and variables are given, and what is printed is kept.
-/
namespace Shardway.Simulation

structure Terminal where
  world : World
  files : List Config.File := []
  /-- The variables of the environment. -/
  environment : List (String × String) := []
  /-- The lines printed so far. -/
  printed : List String := []

namespace Terminal

/-- The file at a path; no file has a path that is not given. -/
def file (path : String) (t : Terminal) : Config.File :=
  (t.files.find? (·.label = path)).getD (.ofPath path none)

/-- Does something in the world that may end in a fault. -/
def act (f : World → Option (Except Fault α) × World) : StateM Terminal (Except Fault α) :=
  modifyGet fun t =>
    let (result, world) := f t.world
    (result.getD (.error endlessFault), { t with world })

/-- The index that is current once something is done. -/
def indexAfter (f : World → Option (Except Fault Unit) × World) :
    StateM Terminal (Except Fault Index) :=
  act fun w =>
    let (result, w) := f w
    (result.map (·.map fun _ => w.client.router.current), w)

def onWorld (f : World → World) : StateM Terminal Unit :=
  modify fun t => { t with world := f t.world }

/-- The store of the scripted world. Nobody breaks a session off. -/
def deployment : Cli.Deployment (StateM Terminal) where
  configuration path := do
    let t ← get
    return Config.Cluster.load (t.file path) t.environment
  launch config := indexAfter fun w =>
    let (result, w) := w.launch config
    (some result, w)
  refresh := indexAfter fun w =>
    let (t, w) := w.start .refresh
    w.await (World.refreshed? t)
  call key request := act fun w =>
    let (t, w) := w.start fun t => .call t key request 1
    w.await (World.replied? t)
  shutdown := onWorld (·.move .shutdown)
  now := do return (← get).world.now
  waitUntil time := do
    onWorld fun w => w.pass (time - w.now)
    return true
  print lines := modify fun t => { t with printed := t.printed ++ lines }
  report n := onWorld (·.tell n)

/-- How a run with these arguments ends; a watch ends after so many rounds. -/
def run (rounds : Nat) (args : List String) (t : Terminal) : Cli.Outcome × Terminal :=
  (deployment.run rounds args).run t

/-- What was printed, as a text. -/
def output (t : Terminal) : String := String.join (t.printed.map (· ++ "\n"))

end Terminal
end Shardway.Simulation
