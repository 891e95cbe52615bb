/-!
Error replies: the line with which a node refuses a command, and what the connection makes of it.
-/
namespace Shardway

/-- The codes of error replies that have a kind of their own. -/
inductive RefusalKind
  | response | execAbort | busyLoading | noScript | moved | ask | tryAgain | clusterDown | crossSlot
  | masterDown | readOnly | notBusy | noSub
deriving DecidableEq, Repr

namespace RefusalKind

/-- The first word of the reply line. -/
def word : RefusalKind → String
  | response => "ERR"
  | execAbort => "EXECABORT"
  | busyLoading => "LOADING"
  | noScript => "NOSCRIPT"
  | moved => "MOVED"
  | ask => "ASK"
  | tryAgain => "TRYAGAIN"
  | clusterDown => "CLUSTERDOWN"
  | crossSlot => "CROSSSLOT"
  | masterDown => "MASTERDOWN"
  | readOnly => "READONLY"
  | notBusy => "NOTBUSY"
  | noSub => "NOSUB"

/-- The name under which the kind appears in messages. -/
def name : RefusalKind → String
  | response => "ResponseError"
  | execAbort => "ExecAbortError"
  | busyLoading => "BusyLoadingError"
  | noScript => "NoScriptError"
  | moved => "Moved"
  | ask => "Ask"
  | tryAgain => "TryAgain"
  | clusterDown => "ClusterDown"
  | crossSlot => "CrossSlot"
  | masterDown => "MasterDown"
  | readOnly => "ReadOnly"
  | notBusy => "NotBusy"
  | noSub => "NoSub"

def all : List RefusalKind :=
  [response, execAbort, busyLoading, noScript, moved, ask, tryAgain, clusterDown, crossSlot,
    masterDown, readOnly, notBusy, noSub]

/-- The code by which the kind is reported again; a missing subscription has none. -/
def code? : RefusalKind → Option String
  | noSub => none
  | k => some k.word

end RefusalKind

/-- An error reply: its first word, and what follows the first space. -/
structure Refusal where
  code : String
  detail : Option String
deriving DecidableEq, Repr, Inhabited

namespace Refusal

/-- The reply line split at its first space. -/
def ofLine (line : String) : Refusal :=
  let cs := line.toList
  ⟨String.ofList (cs.takeWhile (· ≠ ' ')),
    match cs.dropWhile (· ≠ ' ') with
    | [] => none
    | _ :: rest => some (String.ofList rest)⟩

def kind? (r : Refusal) : Option RefusalKind := RefusalKind.all.find? (·.word = r.code)

end Refusal

/-- What a connection reports instead of a reply. -/
inductive LinkFault
  /-- The socket failed, or waited too long. -/
  | socket (timedOut : Bool) (text : String)
  /-- The node refused with a code that has a kind. -/
  | refused (kind : RefusalKind) (description : String) (detail : Option String)
  /-- The node refused with any other code. -/
  | coded (code : String) (detail : String)
  /-- Any other failure, filed under a kind that has no code. -/
  | failed (kind description : String) (detail : Option String)
deriving DecidableEq, Repr

namespace LinkFault

/-- A description with the kind after it, and the detail if there is one. -/
def describe (kind description : String) : Option String → String
  | none => s!"{description}- {kind}"
  | some detail => s!"{description} - {kind}: {detail}"

def message : LinkFault → String
  | socket _ text => text
  | refused kind description detail => describe kind.name description detail
  | coded code detail => s!"{code}: {detail}"
  | failed kind description detail => describe kind description detail

def code? : LinkFault → Option String
  | refused kind _ _ => kind.code?
  | coded code _ => some code
  | _ => none

def detail? : LinkFault → Option String
  | refused _ _ detail => detail
  | coded _ detail => some detail
  | failed _ _ detail => detail
  | socket .. => none

/-- The kind of failures of the socket that no operating system reported. -/
def socketKind : String := "IoError"

def isSocket : LinkFault → Bool
  | socket .. => true
  | failed kind _ _ => kind = socketKind
  | _ => false

def isTimeout : LinkFault → Bool
  | socket timedOut _ => timedOut
  | _ => false

end LinkFault

/-- What is reported of an error reply. -/
def Refusal.report (r : Refusal) : LinkFault :=
  match r.kind? with
  | some kind => .refused kind "An error was signalled by the server" r.detail
  | none => .coded r.code (r.detail.getD "Unknown extension error encountered")

end Shardway
