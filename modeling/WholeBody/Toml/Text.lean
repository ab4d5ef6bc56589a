import WholeBody.Toml.Scan

/-!
# Strings and keys

Strings are in quotation marks or apostrophes, on one line or, in threefold marks, on several. Those
in quotation marks have escapes.
-/

namespace WholeBody.Toml

/-- The marks around a string, and what is special between them. -/
structure Quote where
  mark : Char
  escapes : Bool
  multiline : Bool

def quotationMark : Char := '\x22'

def apostrophe : Char := '\x27'

def backslash : Char := '\x5c'

/-- The state within a string. -/
inductive TextMode where
  | plain
  /-- After a backslash. -/
  | escape
  /-- Within a character code of which `left` digits are still to come. -/
  | code (left value : Nat)
  /-- After a backslash that ends its line, up to the next character that is not blank. -/
  | fold (newline : Bool)

/-- What a character of a string does. -/
inductive TextStep where
  | skip (mode : TextMode)
  | emit (c : Char)
  /-- It is one of the marks, which may close the string. -/
  | mark

/-- The character of an escape with one letter. -/
def escaped? (c : Char) : Option Char :=
  if c = 'b' then some '\x08'
  else if c = 't' then some '\t'
  else if c = 'n' then some '\n'
  else if c = 'f' then some '\x0c'
  else if c = 'r' then some '\r'
  else if c = quotationMark ∨ c = backslash then some c
  else none

/-- The character with a code, which is not a surrogate. -/
def charOf? (code : Nat) : Option Char :=
  if code.isValidChar then some (Char.ofNat code) else none

namespace Quote

def plainStep (q : Quote) (c : Char) : Option TextStep :=
  if c = q.mark then some .mark
  else if q.escapes ∧ c = backslash then some (.skip .escape)
  else if isText c ∨ (q.multiline ∧ c = '\n') then some (.emit c)
  else none

def escapeStep (q : Quote) (c : Char) : Option TextStep :=
  match escaped? c with
  | some d => some (.emit d)
  | none =>
    if c = 'u' then some (.skip (.code 4 0))
    else if c = 'U' then some (.skip (.code 8 0))
    else if q.multiline ∧ isBlank c then some (.skip (.fold false))
    else if q.multiline ∧ c = '\n' then some (.skip (.fold true))
    else none

def codeStep (left value : Nat) (c : Char) : Option TextStep :=
  match digit? 16 c with
  | none => none
  | some d =>
    if 1 < left then some (.skip (.code (left - 1) (16 * value + d)))
    else (charOf? (16 * value + d)).map .emit

def step (q : Quote) : TextMode → Char → Option TextStep
  | .plain, c => q.plainStep c
  | .escape, c => q.escapeStep c
  | .code left value, c => codeStep left value c
  | .fold newline, c =>
    if isBlank c then some (.skip (.fold newline))
    else if c = '\n' then some (.skip (.fold true))
    else if newline then q.plainStep c
    else none

/-- Reads a run of marks that closes a string of several lines. Up to two more marks before the
closing ones belong to the string. -/
def closing? (q : Quote) (cs : List Char) : Option (List Char × List Char) :=
  let run := (cs.takeWhile (· = q.mark)).length
  if run < 3 then none
  else some (List.replicate (Nat.min (run - 3) 2) q.mark, cs.drop (Nat.min run 5))

/-- The characters of a string up to its closing marks. -/
def content (q : Quote) : TextMode → Parser (List Char)
  | _, [] => none
  | mode, c :: cs =>
    match q.step mode c with
    | none => none
    | some (.skip mode) => content q mode cs
    | some (.emit d) => (content q .plain cs).map fun p => (d :: p.1, p.2)
    | some .mark =>
      if q.multiline then
        match q.closing? (c :: cs) with
        | some closed => some closed
        | none => (content q .plain cs).map fun p => (c :: p.1, p.2)
      else some ([], cs)

/-- The string after its opening marks. A line end right after those of several lines does not
count. -/
def body (q : Quote) : Parser String := fun cs =>
  let cs := match q.multiline, cs with
    | true, '\n' :: rest => rest
    | _, _ => cs
  (q.content .plain cs).map fun p => (String.ofList p.1, p.2)

end Quote

/-- The quote that a mark opens. -/
def quote? (c : Char) (multiline : Bool) : Option Quote :=
  if c = quotationMark then some ⟨c, true, multiline⟩
  else if c = apostrophe then some ⟨c, false, multiline⟩
  else none

/-- A string on one line. -/
def lineText : Parser String
  | [] => none
  | c :: cs => (quote? c false).bind fun q => q.body cs

/-- A string on one line or on several. -/
def text : Parser String
  | a :: b :: c :: cs =>
    if a = b ∧ b = c then (quote? a true).bind fun q => q.body cs
    else lineText (a :: b :: c :: cs)
  | cs => lineText cs

/-! ### Keys -/

def isBareKeyChar (c : Char) : Bool := c.isAlphanum || c = '_' || c = '-'

/-- A key without dots: a string on one line, or a word. -/
def simpleKey : Parser String := fun cs =>
  match lineText cs with
  | some r => some r
  | none =>
    let (front, rest) := cs.span isBareKeyChar
    if front.isEmpty then none else some (String.ofList front, rest)

/-- Up to `limit` keys with dots between them, the first one apart. -/
def dottedKey : (limit : Nat) → Parser (String × List String)
  | 0, _ => none
  | limit + 1, cs => do
    let (key, cs) ← simpleKey (skipBlanks cs)
    match skipBlanks cs with
    | '.' :: cs =>
      let ((next, rest), cs) ← dottedKey limit cs
      return ((key, next :: rest), cs)
    | cs => return ((key, []), cs)

end WholeBody.Toml
