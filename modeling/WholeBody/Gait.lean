import WholeBody.Scalar
import WholeBody.SortedMap

/-!
# Gait phases

A gait is a sequence of phases, each with its own feet on the ground. Phases have a number, and the
first three a name. What a task tracks is a function of the phase, and it may be limited to a window
of the time since the phase began.
-/

namespace WholeBody

/-- A stance pattern of the gait. -/
structure PhaseId where
  number : UInt32
deriving DecidableEq

namespace PhaseId

instance : LT PhaseId := ⟨fun a b => a.number < b.number⟩

instance : KeyOrder PhaseId where
  decidableLT a b := inferInstanceAs (Decidable (a.number < b.number))
  lt_trans := UInt32.lt_trans
  lt_irrefl a := UInt32.lt_irrefl a.number
  eq_of_not_lt {a b} h h' := by
    cases a
    cases b
    congr 1
    exact UInt32.le_antisymm (UInt32.not_lt.1 h') (UInt32.not_lt.1 h)

def leftStance : PhaseId := ⟨0⟩

def rightStance : PhaseId := ⟨1⟩

def doubleStance : PhaseId := ⟨2⟩

/-- The name of a phase: `phase_` and its number from the fourth phase on. -/
def name (p : PhaseId) : String :=
  if p = leftStance then "left_stance"
  else if p = rightStance then "right_stance"
  else if p = doubleStance then "double_stance"
  else "phase_" ++ p.number.toNat.repr

/-- The value of a string of decimal digits, which must not be empty. -/
def digitsValue? (cs : List Char) : Option Nat :=
  if cs ≠ [] ∧ cs.all Char.isDigit then
    some (cs.foldl (fun n c => 10 * n + (c.toNat - '0'.toNat)) 0)
  else none

/-- A phase number: decimal digits after at most one plus sign, of a value below `2 ^ 32`. -/
def ofDigits? (cs : List Char) : Option PhaseId :=
  let digits := match cs with
    | '+' :: rest => rest
    | _ => cs
  match digitsValue? digits with
  | some n => if n < UInt32.size then some ⟨n.toUInt32⟩ else none
  | none => none

/-- The phase that a text denotes, by name or by number. -/
def ofText? (s : String) : Option PhaseId :=
  if s = "left_stance" then some leftStance
  else if s = "right_stance" then some rightStance
  else if s = "double_stance" then some doubleStance
  else ofDigits? s.toList

end PhaseId

/-- The current phase, and the time at which it began. -/
structure GaitPhase (α : Type) where
  id : PhaseId
  transitionTime : α

/-- The time since the phase began. -/
def GaitPhase.timeInPhase {α : Type} [Scalar α] (p : GaitPhase α) (time : α) : α :=
  time - p.transitionTime

/-- What a task tracks in each phase. -/
inductive PhaseBinding (τ : Type) where
  /-- The same target in every phase. -/
  | always (target : τ)
  /-- A target of its own in each listed phase, and none in the others. -/
  | perPhase (targets : SortedMap PhaseId τ)

namespace PhaseBinding

variable {τ : Type}

/-- The target in a phase, if there is one. -/
def resolve : PhaseBinding τ → PhaseId → Option τ
  | always t, _ => some t
  | perPhase m, p => m.get? p

/-- Every target of the binding, in phase order. -/
def targets : PhaseBinding τ → List τ
  | always t => [t]
  | perPhase m => m.values

end PhaseBinding

/-- An interval of the time in a phase. -/
structure ActiveWindow (α : Type) where
  start : α
  stop : α

/-- Both ends belong to the window. -/
def ActiveWindow.Contains {α : Type} [Scalar α] (w : ActiveWindow α) (t : α) : Prop :=
  w.start ≤ t ∧ t ≤ w.stop

instance {α : Type} [Scalar α] (w : ActiveWindow α) (t : α) : Decidable (w.Contains t) :=
  inferInstanceAs (Decidable (_ ∧ _))

end WholeBody
