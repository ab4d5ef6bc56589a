import WholeBody.Toml.Moment
import WholeBody.Toml.Number
import WholeBody.Toml.Text
import WholeBody.Toml.Tree

/-!
# TOML documents

A document of TOML 1.0 as a table. The nesting of arrays and inline tables, and the number of parts
of a dotted key, are bounded.
-/

namespace WholeBody.Toml

/-- Bound on the depth of a value and on the parts of a key. -/
def depthLimit : Nat := 79

def key : Parser (String × List String) := dottedKey depthLimit

/-- A value that is not made of other values. -/
def scalar : Parser Value := fun cs =>
  match text cs with
  | some (s, rest) => some (.string s, rest)
  | none =>
    match skipMoment cs with
    | some rest => some (.moment, rest)
    | none => word cs

/-- The items of an array after its opening bracket. Each round reads at least one character. -/
def items (item : Parser Value) : (fuel : Nat) → Parser (List Value)
  | 0, _ => none
  | fuel + 1, cs => do
    match ← skipFiller false cs with
    | ']' :: rest => return ([], rest)
    | cs =>
      let (v, cs) ← item cs
      match ← skipFiller false cs with
      | ',' :: cs =>
        let (vs, rest) ← items item fuel cs
        return (v :: vs, rest)
      | ']' :: rest => return ([v], rest)
      | _ => none

/-- A key, an equals sign and a value. -/
def pair (item : Parser Value) : Parser ((String × List String) × Value) := fun cs => do
  let (k, cs) ← key cs
  match cs with
  | '=' :: cs =>
    let (v, cs) ← item (skipBlanks cs)
    return ((k, v), skipBlanks cs)
  | _ => none

/-- The pairs of an inline table, of which there is at least one, and its closing brace. -/
def pairs (item : Parser Value) : (fuel : Nat) → Parser (List ((String × List String) × Value))
  | 0, _ => none
  | fuel + 1, cs => do
    let (p, cs) ← pair item cs
    match cs with
    | ',' :: cs =>
      let (ps, rest) ← pairs item fuel cs
      return (p :: ps, rest)
    | '\x7d' :: rest => return ([p], rest)
    | _ => none

/-- The entries that pairs make together. -/
def entries (ps : List ((String × List String) × Value)) : Option Entries :=
  ps.foldlM (fun es p => assign p.2 p.1.1 p.1.2 es) []

/-- An inline table after its opening brace. -/
def inlineTable (item : Parser Value) : Parser Value := fun cs =>
  match skipBlanks cs with
  | '\x7d' :: rest => some (.table [], rest)
  | _ => do
    let (ps, rest) ← pairs item (cs.length + 1) cs
    return (.table (entryValues (← entries ps)), rest)

/-- A value with at most `depth` levels of arrays and inline tables. -/
def value : (depth : Nat) → Parser Value
  | 0 => scalar
  | depth + 1 => fun cs =>
    match cs with
    | '[' :: rest => (items (value depth) (rest.length + 1) rest).map fun r => (.array r.1, r.2)
    | '\x7b' :: rest => inlineTable (value depth) rest
    | _ => scalar cs

/-- A document that has been read up to some line: its entries, and the path of the last header. -/
structure Document where
  root : Entries
  path : List String

namespace Document

def empty : Document := ⟨[], []⟩

/-- The keys of a header without the last, and the last. -/
def splitPath (first : String) : List String → List String × String
  | [] => ([], first)
  | next :: rest => (first :: (splitPath next rest).1, (splitPath next rest).2)

/-- Opens what a header names. -/
def openHeader (d : Document) (k : String × List String)
    (f : List String → String → Entries → Option Entries) : Option Document :=
  let (path, last) := splitPath k.1 k.2
  (f path last d.root).map fun root => ⟨root, k.1 :: k.2⟩

/-- Reads the rest of a line that starts with a bracket. -/
def header (d : Document) : Parser Document
  | '[' :: cs => do
    let (k, cs) ← key cs
    match cs with
    | ']' :: ']' :: cs => return (← d.openHeader k openElement, ← endLine cs)
    | _ => none
  | cs => do
    let (k, cs) ← key cs
    match cs with
    | ']' :: cs => return (← d.openHeader k openTable, ← endLine cs)
    | _ => none

/-- Reads a line with a pair. -/
def assignment (d : Document) : Parser Document := fun cs => do
  let ((k, v), cs) ← pair (value depthLimit) cs
  let root ← within (assign v k.1 k.2) d.path d.root
  return ({ d with root }, ← endLine cs)

/-- Reads one line that is not empty. -/
def line (d : Document) (cs : List Char) : Option (Document × List Char) :=
  match cs with
  | '#' :: _ => (endLine cs).map (d, ·)
  | '[' :: rest => d.header rest
  | _ => d.assignment cs

/-- Reads lines up to the end. Each round reads at least one character. -/
def lines : (fuel : Nat) → Document → List Char → Option Document
  | 0, _, _ => none
  | fuel + 1, d, cs =>
    match skipBlanks cs with
    | [] => some d
    | '\n' :: rest => lines fuel d rest
    | c :: rest => do
      let (d, rest) ← d.line (c :: rest)
      lines fuel d rest

end Document

/-- The entries of a document, which may start with a byte order mark. -/
def parse? (source : String) : Option (List (String × Value)) := do
  let cs := source.toList
  let cs := if cs.head? = some '\ufeff' then cs.drop 1 else cs
  let cs ← unifyNewlines cs
  let d ← Document.empty.lines (cs.length + 1) cs
  return entryValues d.root

end WholeBody.Toml
