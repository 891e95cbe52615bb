import Shardway.Config.ReadFault
import Shardway.Reply.Refusal
import Shardway.Node

/-!
What can go wrong, and which faults are worth another attempt or leave a connection unusable.
-/
namespace Shardway

inductive Fault
  | io (text : String)
  | unreachableNode (node reason : String)
  | noMaster (group : GroupId)
  | invalidTopology (text : String)
  | shutdown
  | poolExhausted (addr : String) (waited : Span)
  | poolClosed (addr : String)
  | connectionFailed (text : String)
  | protocol (text : String)
  | server (text : String)
  | invalidConfig (text : String)
  | config (fault : Config.ReadFault)
  | codec (text : String)
  | internal (text : String)
  | timeout (text : String)
  | other (text : String)
deriving DecidableEq, Repr

namespace Fault

def message : Fault → String
  | io t => s!"I/O error: {t}"
  | unreachableNode node reason => s!"Node unreachable: {node}: {reason}"
  | noMaster g => s!"No master elected for group {g}"
  | invalidTopology t => s!"Invalid topology: {t}"
  | shutdown => "Router shut down"
  | poolExhausted addr waited =>
    s!"Pool exhausted for {addr}: no connection available after {waited.text}"
  | poolClosed addr => s!"Pool closed: {addr}"
  | connectionFailed t => s!"Connection failed: {t}"
  | protocol t => s!"Protocol error: {t}"
  | server t => s!"Server error: {t}"
  | invalidConfig t => s!"Invalid configuration: {t}"
  | config fault => s!"Configuration error: {fault.message}"
  | codec t => s!"Codec error: {t}"
  | internal t => s!"Internal error: {t}"
  | timeout t => s!"Operation timeout: {t}"
  | other t => t

/-- Faults that another attempt may not meet again. -/
def isRetryable : Fault → Bool
  | timeout _ | connectionFailed _ | poolExhausted .. | poolClosed _ | unreachableNode ..
  | noMaster _ => true
  | _ => false

/-- Faults after which a connection may be left in the middle of a reply. -/
def isConnectionFault : Fault → Bool
  | io _ | timeout _ | connectionFailed _ | protocol _ => true
  | _ => false

/-- What a connection reported. A refusal keeps the text that the node sent. -/
def ofLink (f : LinkFault) : Fault :=
  if f.isTimeout then timeout f.message
  else if f.isSocket then connectionFailed f.message
  else
    match f.code? with
    | some code =>
      match f.detail? with
      | some detail => server s!"{code} {detail}"
      | none => server code
    | none => protocol f.message

end Fault

/-- A text that is no span cannot be the value of a setting. -/
def Span.ParseFault.fault (f : Span.ParseFault) : Fault := .invalidConfig f.message

end Shardway
