import Shardway.Fault

/-!
The arguments of the command line: an option that names the configuration, one of five actions, and
what belongs to the action.
-/
namespace Shardway.Cli

inductive Action
  /-- Resolve and print every group. -/
  | topology (json : Bool)
  /-- Show which group and master own a key. -/
  | route (key : String)
  | get (key : String)
  | set (key value : String)
  /-- Refresh periodically and report changes of masters. -/
  | watch (interval : Span)
deriving DecidableEq, Repr

/-- What a user asks for. -/
inductive Invocation
  | run (config : String) (action : Action)
  | version
  | help
deriving DecidableEq, Repr

def programName : String := "shardkv"

def versionText : String := programName ++ " 0.3.0"

def about : String := "Sharded master/replica key-value client"

/-- What is printed for a user who asks for help. -/
def helpLines : List String :=
  [about, "", s!"Usage: {programName} [--config <CONFIG>] <COMMAND>", "", "Commands:",
    "  topology [--json]              Resolve and print every group",
    "  route <KEY>                    Show which group and master own a key",
    "  get <KEY>                      Get a value",
    "  set <KEY> <VALUE>              Set a value",
    "  watch [--interval <INTERVAL>]  Refresh periodically and report master changes"]

def defaultConfig : String := "shardkv.toml"

def defaultInterval : Span := .ofSeconds 5

/-! ## Options -/

/-- An option with a long name, and perhaps a letter; one with a placeholder takes a value. -/
structure OptionSpec where
  name : String
  letter : Option Char := none
  placeholder : Option String := none
deriving DecidableEq, Repr

def OptionSpec.text (o : OptionSpec) : String :=
  match o.placeholder with
  | some p => s!"--{o.name} <{p}>"
  | none => s!"--{o.name}"

def configOption : OptionSpec := { name := "config", placeholder := some "CONFIG" }

def jsonOption : OptionSpec := { name := "json" }

def intervalOption : OptionSpec := { name := "interval", placeholder := some "INTERVAL" }

def helpOption : OptionSpec := { name := "help", letter := some 'h' }

def versionOption : OptionSpec := { name := "version", letter := some 'V' }

/-- Why arguments cannot be understood. -/
inductive UsageFault
  | nothingAsked
  | missingAction
  | unknownAction (word : String)
  | unexpected (word : String)
  | missingArguments
  | missingValue (o : OptionSpec)
  | needlessValue (o : OptionSpec) (value : String)
  | repeated (o : OptionSpec)
  | badValue (o : OptionSpec) (value reason : String)
deriving DecidableEq, Repr

/-- The first line of what is said about a fault. -/
def UsageFault.message : UsageFault → String
  | nothingAsked => about
  | missingAction => s!"error: '{programName}' requires a subcommand but one was not provided"
  | unknownAction word => s!"error: unrecognized subcommand '{word}'"
  | unexpected word => s!"error: unexpected argument '{word}' found"
  | missingArguments => "error: the following required arguments were not provided:"
  | missingValue o => s!"error: a value is required for '{o.text}' but none was supplied"
  | needlessValue o value =>
    s!"error: unexpected value '{value}' for '{o.text}' found; no more were expected"
  | repeated o => s!"error: the argument '{o.text}' cannot be used multiple times"
  | badValue o value reason => s!"error: invalid value '{value}' for '{o.text}': {reason}"

/-! ## Words -/

/-- What an argument looks like. -/
inductive Word
  /-- A long option, perhaps with a value behind an equals sign. -/
  | long (name : String) (value : Option String)
  | short (letter : Char)
  /-- What follows is taken as it is. -/
  | escape
  | plain
deriving DecidableEq, Repr

def Word.of (s : String) : Word :=
  match s.toList with
  | ['-', '-'] => .escape
  | '-' :: '-' :: r =>
    .long (String.ofList (r.takeWhile (· ≠ '='))) <|
      match r.dropWhile (· ≠ '=') with
      | _ :: v => some (String.ofList v)
      | [] => none
  | '-' :: c :: _ => .short c
  | _ => .plain

/-! ## Scanning -/

/-- What may stand among arguments: options, so many words, and the names of actions. -/
structure Grammar where
  options : List OptionSpec
  words : Nat := 0
  actions : List String := []

/-- The fault of a word for which there is no place. Where an action is due it counts as the name of
one, unless the name of an action stands where none can be given any more. -/
def Grammar.surplus (g : Grammar) (escaped : Bool) (a : String) : UsageFault :=
  if g.actions.isEmpty ∨ (escaped ∧ a ∈ g.actions) then .unexpected a else .unknownAction a

/-- What was read so far. -/
structure Seen where
  words : List String := []
  options : List (OptionSpec × String) := []
  /-- The option read last that takes a value, and its value as far as it was read. It counts only
  once something else is read, so that other faults go before those of its value. -/
  pending : Option (OptionSpec × Option String) := none

namespace Seen

/-- Checks the value of an option. -/
def checkValue (o : OptionSpec) (v : String) : Except UsageFault Unit :=
  if o = intervalOption then
    match Span.parse v with
    | .ok _ => .ok ()
    | .error e => .error (.badValue o v e.fault.message)
  else if o = configOption ∧ v = "" then .error (.missingValue o)
  else .ok ()

/-- Adds an option, which may be given only once. -/
def add (o : OptionSpec) (v : String) (s : Seen) : Except UsageFault Seen := do
  if s.options.any (·.1 = o) then throw (.repeated o)
  checkValue o v
  return { s with options := s.options ++ [(o, v)] }

/-- Adds the option that is pending. -/
def settle (s : Seen) : Except UsageFault Seen :=
  match s.pending with
  | none => .ok s
  | some (o, none) => .error (.missingValue o)
  | some (o, some v) => { s with pending := none }.add o v

def option? (s : Seen) (o : OptionSpec) : Option String :=
  (s.options.find? (·.1 = o)).map (·.2)

end Seen

/-- Where the scanning of arguments ends. -/
inductive Scanned
  /-- At an option that asks for something else. -/
  | asked (o : OptionSpec)
  | finished (seen : Seen)
  /-- At the name of an action, before its arguments. -/
  | action (seen : Seen) (name : String) (args : List String)

/-- An option is given, perhaps with a value attached. -/
def give (o : OptionSpec) (attached : Option String) (seen : Seen) :
    Except UsageFault (Seen ⊕ Scanned) := do
  match o.placeholder, attached with
  | none, some v => throw (.needlessValue o v)
  | none, none =>
    let seen ← seen.settle
    if o = helpOption ∨ o = versionOption then return .inr (.asked o)
    else return .inl (← seen.add o "")
  | some _, some v => return .inl (← (← seen.settle).add o v)
  | some _, none => return .inl { (← seen.settle) with pending := some (o, none) }

/-- Reads arguments one by one; after an escape all are plain. -/
def scan (g : Grammar) : (escaped : Bool) → Seen → List String → Except UsageFault Scanned
  | _, seen, [] => do return .finished (← seen.settle)
  | escaped, seen, a :: r =>
    let option (found : Option OptionSpec) (shown : String) (attached : Option String) :
        Except UsageFault Scanned :=
      match found with
      | none => .error (.unexpected shown)
      | some o =>
        match give o attached seen with
        | .error e => .error e
        | .ok (.inr halted) => .ok halted
        | .ok (.inl seen) => scan g escaped seen r
    match if escaped then .plain else Word.of a with
    | .escape => scan g true seen r
    | .short c => option (g.options.find? (·.letter = some c)) s!"-{c}" none
    | .long name attached => option (g.options.find? (·.name = name)) s!"--{name}" attached
    | .plain =>
      match seen.pending, escaped with
      | some (o, none), false => scan g escaped { seen with pending := some (o, some a) } r
      | _, _ =>
        if a ∈ g.actions ∧ !escaped then .ok (.action seen a r)
        else if g.words ≤ seen.words.length then .error (g.surplus escaped a)
        else
          match seen.settle with
          | .error e => .error e
          | .ok seen => scan g escaped { seen with words := seen.words ++ [a] } r

/-! ## Actions -/

/-- The interval that an option gives. -/
def intervalOf (v : Option String) : Span :=
  match v.map Span.parse with
  | some (.ok s) => s
  | _ => defaultInterval

def actionNames : List String := ["topology", "route", "get", "set", "watch", "help"]

/-- Reads the arguments of an action; none when the user asks for help instead. -/
def readAction (args : List String) (options : List OptionSpec) (words : Nat)
    (f : Seen → Option Action) : Except UsageFault (Option Action) := do
  match ← scan { options := options ++ [helpOption], words } false {} args with
  | .finished seen =>
    match f seen with
    | some a => return some a
    | none => throw .missingArguments
  | _ => return none

/-- Help may be asked for about one action. -/
def readHelp : List String → Except UsageFault (Option Action)
  | [] => .ok none
  | name :: r =>
    if name ∉ actionNames then .error (.unknownAction name)
    else
      match r with
      | [] => .ok none
      | other :: _ => .error (.unknownAction other)

/-- The action with a name, and its arguments; none when the user asks for help instead. -/
def action (name : String) (args : List String) : Except UsageFault (Option Action) :=
  match name with
  | "topology" =>
    readAction args [jsonOption] 0 fun s => some (.topology (s.option? jsonOption).isSome)
  | "route" => readAction args [] 1 fun s => s.words[0]?.map .route
  | "get" => readAction args [] 1 fun s => s.words[0]?.map .get
  | "set" =>
    readAction args [] 2 fun s =>
      match s.words with
      | [key, value] => some (.set key value)
      | _ => none
  | "watch" =>
    readAction args [intervalOption] 0 fun s =>
      some (.watch (intervalOf (s.option? intervalOption)))
  | _ => readHelp args

/-- Reads the arguments. -/
def parse (args : List String) : Except UsageFault Invocation := do
  if args.isEmpty then throw .nothingAsked
  let g : Grammar :=
    { options := [configOption, helpOption, versionOption], actions := actionNames }
  match ← scan g false {} args with
  | .asked o => return if o = versionOption then .version else .help
  | .finished _ => throw .missingAction
  | .action seen name args =>
    match ← action name args with
    | none => return .help
    | some a => return .run (((← seen.settle).option? configOption).getD defaultConfig) a

end Shardway.Cli
