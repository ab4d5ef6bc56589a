import WholeBody.Toml.Value

/-!
# The tree of a TOML document

A document is a list of lines: table headers, and assignments to dotted keys below the last header.
The tree grows line by line. A name that is taken stays taken, so what a line may add depends on how
a table came about.
-/

namespace WholeBody.Toml

/-- How a table came about. -/
inductive Origin where
  /-- It has a header of its own, which can appear only once. -/
  | header
  /-- A longer header leads through it. It may still get a header of its own. -/
  | path
  /-- A dotted key leads through it. Only dotted keys add to it directly. -/
  | dotted
deriving DecidableEq

inductive Node where
  /-- A complete value. -/
  | leaf (v : Value)
  | table (origin : Origin) (entries : List (String × Node))
  /-- An array of tables, one for each of its headers. -/
  | tables (elements : List (List (String × Node)))

abbrev Entries := List (String × Node)

/-- Replaces the node of a key by `f` of it, or adds a new one at the end. -/
def update (key : String) (f : Option Node → Option Node) : Entries → Option Entries
  | [] => (f none).map fun n => [(key, n)]
  | e :: rest =>
    if e.1 = key then (f (some e.2)).map fun n => (key, n) :: rest
    else (update key f rest).map (e :: ·)

/-- Applies `f` to the last element. -/
def updateLast (f : Entries → Option Entries) : List Entries → Option (List Entries)
  | [] => none
  | [es] => (f es).map ([·])
  | es :: rest => (updateLast f rest).map (es :: ·)

/-- Gives a value to a dotted key, which must be new. The key leads only through tables without a
header, and its last table must be one of dotted keys; an array of tables stands for its last
element. -/
def assign (value : Value) : String → List String → Entries → Option Entries
  | key, [] => update key fun
    | none => some (.leaf value)
    | some _ => none
  | key, next :: rest => update key fun
    | none => (assign value next rest []).map (.table .dotted)
    | some (.table .dotted es) => (assign value next rest es).map (.table .dotted)
    | some (.table .path es) =>
      if rest = [] then none else (assign value next rest es).map (.table .path)
    | some (.tables elements) =>
      if rest = [] then none else (updateLast (assign value next rest) elements).map .tables
    | some (.table .header _) => none
    | some (.leaf _) => none

/-- Applies `f` to the entries at the end of a path of headers. Missing tables are made, and an
array of tables stands for its last element. -/
def within (f : Entries → Option Entries) : List String → Entries → Option Entries
  | [] => f
  | key :: rest => update key fun
    | none => (within f rest []).map (.table .path)
    | some (.table origin es) => (within f rest es).map (.table origin)
    | some (.tables elements) => (updateLast (within f rest) elements).map .tables
    | some (.leaf _) => none

/-- Opens a table that has no header yet. -/
def openTable (path : List String) (key : String) : Entries → Option Entries :=
  within (update key fun
    | none => some (.table .header [])
    | some (.table .path es) => some (.table .header es)
    | some _ => none) path

/-- Opens the next element of an array of tables. -/
def openElement (path : List String) (key : String) : Entries → Option Entries :=
  within (update key fun
    | none => some (.tables [[]])
    | some (.tables elements) => some (.tables (elements ++ [[]]))
    | some _ => none) path

mutual

/-- The value that a node stands for. -/
def Node.value : Node → Value
  | .leaf v => v
  | .table _ es => .table (entryValues es)
  | .tables elements => .array (elementValues elements)

def entryValues : List (String × Node) → List (String × Value)
  | [] => []
  | (key, n) :: rest => (key, n.value) :: entryValues rest

def elementValues : List (List (String × Node)) → List Value
  | [] => []
  | es :: rest => .table (entryValues es) :: elementValues rest

end

end WholeBody.Toml
