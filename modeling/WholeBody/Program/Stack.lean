import WholeBody.Program.Cone

/-!
# Constraint stacks

Blocks of constraint rows, each with a cone of its own, are stacked in the order in which they are
pushed. Neighbouring blocks that are both zero or both nonnegative share one cone; every
second-order block is a cone by itself.
-/

namespace WholeBody

/-- Constraint rows `b - A x` in one cone. -/
structure ConstraintBlock (α : Type) where
  kind : ConeKind
  A : Mat α
  b : Vec α

/-- Puts a block in front of merged cones. -/
def ConeBlock.merge (c : ConeBlock) : List ConeBlock → List ConeBlock
  | [] => [c]
  | d :: rest =>
    if c.kind = d.kind ∧ c.kind ≠ .secondOrder then ⟨c.kind, c.dim + d.dim⟩ :: rest
    else c :: d :: rest

/-- Blocks of rows over the same variables, in push order. -/
structure ConstraintStack (α : Type) where
  numVariables : Nat
  blocks : List (ConstraintBlock α)

namespace ConstraintStack

variable {α : Type}

def empty (numVariables : Nat) : ConstraintStack α := ⟨numVariables, []⟩

/-- Adds a block at the end. A block without rows leaves no trace. -/
def push (s : ConstraintStack α) (c : ConstraintBlock α) : ConstraintStack α :=
  if c.A.rows = 0 then s else { s with blocks := s.blocks ++ [c] }

def pushAll (s : ConstraintStack α) (cs : List (ConstraintBlock α)) : ConstraintStack α :=
  cs.foldl push s

/-- Number of rows of a list of blocks. -/
def rowsOf : List (ConstraintBlock α) → Nat
  | [] => 0
  | c :: rest => c.A.rows + rowsOf rest

def numRows (s : ConstraintStack α) : Nat := rowsOf s.blocks

/-- The cones of all rows. -/
def cones (s : ConstraintStack α) : List ConeBlock :=
  (s.blocks.map fun c => (⟨c.kind, c.A.rows⟩ : ConeBlock)).foldr ConeBlock.merge []

/-- Whether every block has one column for each variable and one bound for each row. -/
def Conforms (s : ConstraintStack α) : Prop :=
  ∀ c ∈ s.blocks, c.A.cols = s.numVariables ∧ c.b.size = c.A.rows

instance (s : ConstraintStack α) : Decidable s.Conforms := by
  unfold Conforms
  infer_instance

variable [Scalar α]

/-- The block that holds a row, and the index of the row in it. -/
def locate : List (ConstraintBlock α) → Nat → Option (ConstraintBlock α × Nat)
  | [], _ => none
  | c :: rest, i => if i < c.A.rows then some (c, i) else locate rest (i - c.A.rows)

/-- The rows of all blocks. -/
def matrix (s : ConstraintStack α) : Mat α :=
  .ofFn s.numRows s.numVariables fun i j =>
    match locate s.blocks i with
    | some (c, k) => c.A.entry k j
    | none => 0

/-- The bounds of all blocks. -/
def bounds (s : ConstraintStack α) : Vec α :=
  .ofFn s.numRows fun i =>
    match locate s.blocks i with
    | some (c, k) => c.b.entry k
    | none => 0

end ConstraintStack

end WholeBody
