import Shardway.Cli.Report
import Shardway.Client.Command
import Shardway.Config.Source

/-!
Sessions: what a run of the command line does, from its arguments to its exit code. All that it
needs of the world outside is gathered in one record, so the same session runs over sockets and in a
simulation.
-/
namespace Shardway.Cli

/-- A store, and the terminal of the user who works with it. -/
structure Deployment (m : Type → Type) where
  /-- The configuration in the file at a path. -/
  configuration : (path : String) → m (Except Fault Config.Cluster)
  /-- Resolves the topology and puts a router in place. -/
  launch : Config.Cluster → m (Except Fault Index)
  refresh : m (Except Fault Index)
  /-- Sends a request to the master that owns a key. -/
  call : (key : Bytes) → Request → m (Except Fault Reply)
  shutdown : m Unit
  /-- The time in milliseconds. -/
  now : m Nat
  /-- Waits for a time; false if the user breaks the session off. -/
  waitUntil : Nat → m Bool
  print : List String → m Unit
  report : Notice → m Unit

variable {m : Type → Type} [Monad m]

/-- Goes on with a result, unless there was a fault. -/
def proceed (result : Except Fault α) (next : α → m Outcome) : m Outcome :=
  match result with
  | .error f => pure (.failure f)
  | .ok a => next a

namespace Deployment

/-- Executes a command and reads its reply. -/
def execute (d : Deployment m) (c : Command α) : m (Except Fault α) := do
  return (← d.call c.key c.request).bind c.read

/-- Prints lines and ends well. -/
def finish (d : Deployment m) (lines : List String) : m Outcome := do
  d.print lines
  d.shutdown
  return .success

/-- Refreshes whenever the ticker says so, until the user breaks the session off or `rounds` are
over. -/
def watch (d : Deployment m) : (rounds : Nat) → Ticker → Watch → m Outcome
  | 0, _, _ => d.finish []
  | rounds + 1, ticker, w => do
    if !(← d.waitUntil ticker.due) then d.finish []
    else
      let ticker := ticker.advance (← d.now)
      let result ← d.refresh
      let (lines, w) := w.observe result
      match result with
      | .error f => d.report (.watchedRefreshFailed f)
      | .ok _ => d.print lines
      d.watch rounds ticker w

/-- Takes an action. One that is over at once needs no refresh in the background. -/
def take (d : Deployment m) (rounds : Nat) (config : Config.Cluster) : Action → m Outcome
  | .topology json => do
    proceed (← d.launch config) fun x => d.finish (topologyLines json x.groups)
  | .route key => do
    proceed (← d.launch config) fun x => d.finish (routeLines x key)
  | .get key => do
    proceed (← d.launch { config with refreshIntervalMs := 0 }) fun _ => do
      proceed (← d.execute (.get (Text.Utf8.encode key))) fun v => d.finish [valueLine v]
  | .set key value => do
    proceed (← d.launch { config with refreshIntervalMs := 0 }) fun _ => do
      proceed (← d.execute (.set (Text.Utf8.encode key) (Text.Utf8.encode value))) fun _ =>
        d.finish ["OK"]
  | .watch interval => do
    proceed (← d.launch config) fun x => do
      d.print (topologyLines false x.groups)
      if interval = .zero then return .noPeriod
      else d.watch rounds (.start .kept interval.ceilMillis (← d.now)) (.start x)

/-- Runs with these arguments. -/
def run (d : Deployment m) (rounds : Nat) (args : List String) : m Outcome :=
  match parse args with
  | .error f => pure (.misuse f)
  | .ok .version => do
    d.print [versionText]
    return .success
  | .ok .help => do
    d.print helpLines
    return .success
  | .ok (.run path action) => do
    proceed (← d.configuration path) fun config => d.take rounds config action

end Deployment
end Shardway.Cli
