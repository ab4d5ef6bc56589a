/-!
# Scanning characters

A parser takes characters and answers with a result and the characters after it. The characters are
those of a document whose lines all end in a single newline.
-/

namespace WholeBody.Toml

/-- `none` when the characters do not start with what the parser reads. -/
abbrev Parser (β : Type) := List Char → Option (β × List Char)

/-- Makes every line end a single newline. A carriage return has no other use. -/
def unifyNewlines : List Char → Option (List Char)
  | [] => some []
  | '\r' :: '\n' :: cs => (unifyNewlines cs).map ('\n' :: ·)
  | c :: cs => if c = '\r' then none else (unifyNewlines cs).map (c :: ·)

def isBlank (c : Char) : Bool := c = ' ' || c = '\t'

/-- A character of comments and strings: all but the control characters, and the tab. -/
def isText (c : Char) : Bool := c = '\t' || (' ' ≤ c && c ≠ '\x7f')

def skipBlanks (cs : List Char) : List Char := cs.dropWhile isBlank

/-- Skips blanks, line ends and comments. -/
def skipFiller (inComment : Bool) : List Char → Option (List Char)
  | [] => some []
  | c :: cs =>
    if c = '\n' then skipFiller false cs
    else if inComment then if isText c then skipFiller true cs else none
    else if isBlank c then skipFiller false cs
    else if c = '#' then skipFiller true cs
    else some (c :: cs)

/-- Skips what may follow a value on its line: blanks, a comment and the line end. -/
def endLine (cs : List Char) : Option (List Char) :=
  let cs := skipBlanks cs
  let cs := match cs with
    | '#' :: rest => rest.dropWhile isText
    | _ => cs
  match cs with
  | [] => some []
  | '\n' :: rest => some rest
  | _ => none

/-- The value of a digit in a base of at most sixteen. -/
def digit? (base : Nat) (c : Char) : Option Nat :=
  let value :=
    if '0' ≤ c ∧ c ≤ '9' then c.toNat - '0'.toNat
    else if 'a' ≤ c ∧ c ≤ 'f' then c.toNat - 'a'.toNat + 10
    else if 'A' ≤ c ∧ c ≤ 'F' then c.toNat - 'A'.toNat + 10
    else base
  if value < base then some value else none

end WholeBody.Toml
