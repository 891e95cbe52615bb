import Shardway.Document.Basic

/-!
Tables of TOML as they are put together. A table can be opened by a header of its own, by the header
of a table inside it, or by a dotted key; which of them it was decides whether it can be opened again.
-/
namespace Shardway.Document.Toml

inductive Entry where
  /-- A value, which cannot be added to. -/
  | value (d : Document)
  /-- A table. It is open to a header of its own if only the headers or keys of inner tables have
  named it, and to dotted keys if a dotted key has made it. -/
  | table (implicit dotted : Bool) (entries : List (String × Entry))
  /-- Tables under one name, of which only the last can be added to. -/
  | tables (rows : List (List (String × Entry)))

abbrev Entries := List (String × Entry)

namespace Entries

def get? (t : Entries) (key : String) : Option Entry := (t.find? (·.1 = key)).map (·.2)

/-- Puts an entry under a key, in place of the one that is there. -/
def set (t : Entries) (key : String) (e : Entry) : Entries :=
  if t.any (·.1 = key) then t.map fun x => if x.1 = key then (key, e) else x else t ++ [(key, e)]

/-- Changes the table that a path leads to; tables on the way are opened as they are needed. The
change is told whether the table was made by a dotted key. -/
def update (dotted : Bool) : (path : List String) → (f : Bool → Entries → Option Entries) →
    (isDotted : Bool) → Entries → Option Entries
  | [], f, isDotted, t => f isDotted t
  | key :: path, f, _, t =>
    match t.get? key with
    | none => (update dotted path f dotted []).map fun u => t.set key (.table true dotted u)
    | some (.value _) => none
    | some (.table implicit isDotted u) =>
      if dotted && !implicit then none
      else (update dotted path f isDotted u).map fun u => t.set key (.table implicit isDotted u)
    | some (.tables rows) =>
      match rows.getLast? with
      | none => none
      | some u =>
        (update dotted path f false u).map fun u => t.set key (.tables (rows.dropLast ++ [u]))

/-- Puts a value under a key, which may be dotted. The key must be a new one. -/
def insert (path : List String) (key : String) (d : Document) (t : Entries) : Option Entries :=
  update true path (fun isDotted t =>
    if isDotted = path.isEmpty || (t.get? key).isSome then none
    else some (t.set key (.value d))) false t

/-- Opens a table by its header. -/
def openTable (path : List String) (key : String) (t : Entries) : Option Entries :=
  update false path (fun _ t =>
    match t.get? key with
    | none => some (t.set key (.table false false []))
    | some (.table true false u) => some (t.set key (.table false false u))
    | _ => none) false t

/-- Opens one more table under a name. -/
def openRow (path : List String) (key : String) (t : Entries) : Option Entries :=
  update false path (fun _ t =>
    match t.get? key with
    | none => some (t.set key (.tables [[]]))
    | some (.tables rows) => some (t.set key (.tables (rows ++ [[]])))
    | _ => none) false t

/-- Puts a value under a key of the table that a header has opened. -/
def insertUnder (header : List String) (path : List String) (key : String) (d : Document)
    (t : Entries) : Option Entries :=
  update false header (fun _ t => insert path key d t) false t

end Entries

mutual

def Entry.document : Entry → Document
  | .value d => d
  | .table _ _ entries => .object (members entries)
  | .tables rows => .list (documents rows)

def members : List (String × Entry) → List (String × Document)
  | [] => []
  | (key, e) :: r => (key, e.document) :: members r

def documents : List (List (String × Entry)) → List Document
  | [] => []
  | t :: r => .object (members t) :: documents r

end

end Shardway.Document.Toml
