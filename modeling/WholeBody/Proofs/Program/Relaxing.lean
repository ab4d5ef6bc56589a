import Mathlib
import WholeBody.Controller.Basic
import WholeBody.Proofs.Program.Cost
import WholeBody.Proofs.Program.Join

/-!
# Relaxing a family

A hard and a soft build of one tick describe the same problem up to the slack: a point of the hard
program is a point of the soft one whose slack is zero, at the same cost, and a feasible point of
the soft program misses the hard rows by its slack and pays for nothing else.

## Main statements

* `TickData.alike_delete` — a vector without slack, with and without the columns for it.
* `TickData.Meets.entry_residual` — what is left of the rows of a family.
* `TickData.cost_delete` — the cost with and without slack.
* `soft_eq_hard_up_to_slack` — the two programs of one tick.
-/

namespace WholeBody

open Controller (block)

/-! ### Vectors with and without a span -/

namespace Vec

variable {v : Vec ℝ} {t : Span}

/-- The vector without the entries of a span. -/
noncomputable def delete (v : Vec ℝ) (t : Span) : Vec ℝ :=
  .ofFn (v.size - t.size) fun i => v.entry (if i < t.start then i else i + t.size)

/-- The vector with zeros put in where a span will be. -/
noncomputable def insertZeros (v : Vec ℝ) (t : Span) : Vec ℝ :=
  .ofFn (v.size + t.size) fun i =>
    if i < t.start then v.entry i else if i < t.start + t.size then 0 else v.entry (i - t.size)

@[simp]
theorem size_delete (v : Vec ℝ) (t : Span) : (v.delete t).size = v.size - t.size :=
  size_ofFn _ _

@[simp]
theorem size_insertZeros (v : Vec ℝ) (t : Span) : (v.insertZeros t).size = v.size + t.size :=
  size_ofFn _ _

theorem entry_delete (h : t.start + t.size ≤ v.size) (i : ℕ) :
    (v.delete t).entry i = v.entry (if i < t.start then i else i + t.size) := by
  rw [delete, entry_ofFn]
  by_cases hi : i < v.size - t.size
  · rw [if_pos hi]
  · rw [if_neg hi, if_neg (by omega), entry_of_size_le (by omega)]

theorem entry_insertZeros (h : t.start ≤ v.size) (i : ℕ) :
    (v.insertZeros t).entry i =
      if i < t.start then v.entry i else if i < t.start + t.size then 0
        else v.entry (i - t.size) := by
  rw [insertZeros, entry_ofFn]
  by_cases hi : i < v.size + t.size
  · rw [if_pos hi]
  · rw [if_neg hi, if_neg (by omega), if_neg (by omega), entry_of_size_le (by omega)]

/-- Zeros that were put in can be taken out again. -/
theorem delete_insertZeros (h : t.start ≤ v.size) : (v.insertZeros t).delete t = v := by
  have hfit : t.start + t.size ≤ (v.insertZeros t).size := by
    rw [size_insertZeros]
    omega
  refine ext_entry (by simp) fun i _ => ?_
  rw [entry_delete hfit, entry_insertZeros h]
  by_cases hi : i < t.start
  · simp [hi]
  · rw [if_neg hi, if_neg (by omega), if_neg (by omega), Nat.add_sub_cancel]

theorem slice_delete_of_le (h : t.start + t.size ≤ v.size) {start len : ℕ}
    (hstop : start + len ≤ t.start) : (v.delete t).slice start len = v.slice start len := by
  refine ext_entry (by simp) fun i hi => ?_
  rw [size_slice] at hi
  rw [entry_slice hi, entry_slice hi, entry_delete h, if_pos (by omega)]

theorem slice_delete_of_ge (h : t.start + t.size ≤ v.size) {start : ℕ} (len : ℕ)
    (hstart : t.start ≤ start) :
    (v.delete t).slice start len = v.slice (start + t.size) len := by
  refine ext_entry (by simp) fun i hi => ?_
  rw [size_slice] at hi
  rw [entry_slice hi, entry_slice hi, entry_delete h, if_neg (by omega), Nat.add_right_comm]

end Vec

/-! ### Families -/

/-- The families of holonomic constraints that can be soft. -/
inductive Family where
  | contacts
  | loops

/-- The settings with another mode for one family. -/
def Settings.withMode {α : Type} (s : Settings α) (mode : ConstraintMode α) : Family → Settings α
  | .contacts => { s with contactMode := mode }
  | .loops => { s with loopMode := mode }

/-- The columns of the slack of a family. -/
def VariableLayout.slack (l : VariableLayout) : Family → Span
  | .contacts => l.contactSlack
  | .loops => l.loopSlack

section WithMode

variable {α : Type} (s : Settings α) (mode : ConstraintMode α)

@[simp]
theorem contactMode_withMode_contacts : (s.withMode mode .contacts).contactMode = mode :=
  rfl

@[simp]
theorem loopMode_withMode_contacts : (s.withMode mode .contacts).loopMode = s.loopMode :=
  rfl

@[simp]
theorem contactMode_withMode_loops : (s.withMode mode .loops).contactMode = s.contactMode :=
  rfl

@[simp]
theorem loopMode_withMode_loops : (s.withMode mode .loops).loopMode = mode :=
  rfl

/-- All but the modes stays. -/
theorem fields_withMode (f : Family) :
    (s.withMode mode f).accelerationRegularization = s.accelerationRegularization ∧
      (s.withMode mode f).jointAccelerationCosts = s.jointAccelerationCosts ∧
      (s.withMode mode f).inputRegularization = s.inputRegularization ∧
      (s.withMode mode f).contactForceRegularization = s.contactForceRegularization ∧
      (s.withMode mode f).defaultFriction = s.defaultFriction ∧
      (s.withMode mode f).defaultCone = s.defaultCone ∧
      (s.withMode mode f).minNormalForce = s.minNormalForce := by
  cases f <;> exact ⟨rfl, rfl, rfl, rfl, rfl, rfl, rfl⟩

end WithMode

namespace TickData

variable {d : TickData ℝ} {s : Settings ℝ} {f : Family} {w : ℝ} {x y : Vec ℝ}

/-- Number of rows of a family. -/
def familyRows (d : TickData ℝ) : Family → ℕ
  | .contacts => 3 * d.contacts.length
  | .loops => d.numLoopRows

/-- What is left of the rows of a family, `J v̇ + J̇ v`. -/
noncomputable def residual (d : TickData ℝ) (f : Family) (accelerations : Vec ℝ) : Vec ℝ :=
  .ofFn (d.familyRows f) fun k => match f with
    | .contacts => d.contacts[k / 3]?.elim 0 fun e =>
      (e.2.jacobian.toMat.mulVec accelerations).entry (k % 3) + e.2.jdotV.component (k % 3)
    | .loops => d.loops.elim 0 fun l =>
      (l.jacobian.mulVec accelerations).entry k + l.jdotV.entry k

/-- The columns of the slack of a family once it is soft. -/
def softSlack (d : TickData ℝ) (s : Settings ℝ) : Family → Span
  | .contacts => .ofSize d.numHardVariables (3 * d.contacts.length)
  | .loops =>
    .ofSize (d.numHardVariables + s.contactMode.slackRows (3 * d.contacts.length)) d.numLoopRows

@[simp]
theorem size_softSlack : (d.softSlack s f).size = d.familyRows f := by
  cases f <;> simp [softSlack, familyRows]

theorem slack_layout_soft : (d.layout (s.withMode (.soft w) f)).slack f = d.softSlack s f := by
  cases f <;> simp [VariableLayout.slack, layout_contactSlack, layout_loopSlack, softSlack,
    ConstraintMode.slackRows, Span.ofSize]

theorem numVariables_soft : (d.layout (s.withMode (.soft w) f)).numVariables =
    (d.layout (s.withMode .hard f)).numVariables + d.familyRows f := by
  cases f <;> simp [layout_numVariables, familyRows, ConstraintMode.slackRows]
  omega

theorem numHardVariables_le_softSlack : d.numHardVariables ≤ (d.softSlack s f).start := by
  cases f <;> simp [softSlack]

theorem softSlack_le : (d.softSlack s f).start ≤ (d.layout (s.withMode .hard f)).numVariables := by
  cases f <;> simp [layout_numVariables, softSlack, ConstraintMode.slackRows]

/-! ### The vector without slack -/

theorem component_split_contactSlack {i k : ℕ} (hk : k < 3) :
    (((d.layout s).split x).contactSlack i).component k =
      x.entry (d.numHardVariables + 3 * i + k) := by
  simp only [VariableLayout.split, Vec3.component_ofVec _ hk, layout_contactSlack]

theorem entry_split_loopSlack {w : ℝ} (hmode : s.loopMode = .soft w) {k : ℕ}
    (hk : k < d.numLoopRows) : ((d.layout s).split x).loopSlack.entry k = x.entry
      (d.numHardVariables + s.contactMode.slackRows (3 * d.contacts.length) + k) := by
  have hsize : (d.layout s).loopSlack.size = d.numLoopRows := by
    rw [size_loopSlack, hmode, ConstraintMode.slackRows]
  rw [VariableLayout.split, Vec.entry_slice (hsize ▸ hk), layout_loopSlack]

section Delete

variable (hy : y.size = (d.layout (s.withMode (.soft w) f)).numVariables)

include hy

theorem softSlack_fits : (d.softSlack s f).start + (d.softSlack s f).size ≤ y.size := by
  rw [hy, numVariables_soft, size_softSlack]
  exact Nat.add_le_add_right softSlack_le _

/-- The columns in front of all slack stay. -/
theorem slice_delete_hard {start len : ℕ} (h : start + len ≤ d.numHardVariables) :
    (y.delete (d.softSlack s f)).slice start len = y.slice start len :=
  Vec.slice_delete_of_le (softSlack_fits hy) (h.trans numHardVariables_le_softSlack)

theorem split_delete_accelerations :
    ((d.layout (s.withMode .hard f)).split (y.delete (d.softSlack s f))).accelerations =
      ((d.layout (s.withMode (.soft w) f)).split y).accelerations := by
  rw [split_accelerations, split_accelerations]
  refine slice_delete_hard hy ?_
  rw [numHardVariables]
  omega

/-- A vector whose slack is zero is the same decision without the columns for it. -/
theorem alike_delete
    (hzero : ∀ k < d.familyRows f, y.entry ((d.softSlack s f).start + k) = 0) :
    d.Alike (s.withMode (.soft w) f) (s.withMode .hard f)
      ((d.layout (s.withMode (.soft w) f)).split y)
      ((d.layout (s.withMode .hard f)).split (y.delete (d.softSlack s f))) where
  accelerations := split_delete_accelerations hy
  force i hi := by
    refine Vec3.ext_component fun k hk => ?_
    have hlt : d.numVelocities + 3 * i + k < (d.softSlack s f).start := by
      have hhard := numHardVariables_le_softSlack (d := d) (s := s) (f := f)
      rw [numHardVariables] at hhard
      omega
    simp only [VariableLayout.split, Vec3.component_ofVec _ hk, layout_contact]
    rw [Vec.entry_delete (softSlack_fits hy), if_pos hlt]
  loopForces := by
    simp only [VariableLayout.split, layout_loopForces, Span.size]
    refine slice_delete_hard hy ?_
    rw [numHardVariables]
    omega
  inputs := by
    simp only [VariableLayout.split, layout_inputs, Span.size]
    refine slice_delete_hard hy ?_
    rw [numHardVariables]
    omega
  contactSlack i hi k hk := by
    rw [component_split_contactSlack hk, component_split_contactSlack hk,
      Vec.entry_delete (softSlack_fits hy)]
    cases f with
    | contacts =>
      have hentry := hzero (3 * i + k) (by rw [familyRows]; omega)
      rw [softSlack, Span.start_ofSize, ← Nat.add_assoc] at hentry
      simp [ConstraintMode.slack, hentry]
    | loops =>
      cases hmode : s.contactMode with
      | hard => simp [hmode, ConstraintMode.slack]
      | soft w' =>
        rw [if_pos]
        · simp
        · simp [softSlack, hmode, ConstraintMode.slackRows]
          omega
  loopSlack k hk := by
    cases f with
    | contacts =>
      cases hmode : s.loopMode with
      | hard => simp [hmode, ConstraintMode.slack]
      | soft w' =>
        have hmode' (mode : ConstraintMode ℝ) :
            (s.withMode mode .contacts).loopMode = .soft w' := hmode
        rw [entry_split_loopSlack (hmode' .hard) hk, entry_split_loopSlack (hmode' (.soft w)) hk,
          Vec.entry_delete (softSlack_fits hy), if_neg]
        · simp [softSlack, ConstraintMode.slackRows, Nat.add_right_comm]
        · simp [softSlack, ConstraintMode.slackRows]
    | loops =>
      have hmode : (s.withMode (.soft w) .loops).loopMode = .soft w := rfl
      rw [entry_split_loopSlack hmode hk]
      exact (hzero k hk).symm

end Delete

/-! ### What is left of the rows -/

/-- An entry of the slack of a family, where its mode allows any. -/
theorem Meets.entry_residual {mode : ConstraintMode ℝ}
    (h : d.Meets (s.withMode mode f) ((d.layout (s.withMode mode f)).split x)) {k : ℕ}
    (hk : k < d.familyRows f) :
    (d.residual f ((d.layout (s.withMode mode f)).split x).accelerations).entry k =
      mode.slack (x.entry ((d.softSlack s f).start + k)) := by
  rw [residual, Vec.entry_ofFn_of_lt hk]
  cases f with
  | contacts =>
    rw [familyRows] at hk
    have hi : k / 3 < d.contacts.length := by omega
    have hk3 : k % 3 < 3 := Nat.mod_lt _ (by omega)
    have he : (d.contacts[k / 3], k / 3) ∈ d.numbered := mem_numbered.2 (by simp [hi])
    have hslip := h.noSlip _ he _ hk3
    rw [component_split_contactSlack hk3, Nat.add_assoc, Nat.div_add_mod] at hslip
    simpa [hi, softSlack] using hslip
  | loops =>
    have hk' : k < d.numLoopRows := hk
    cases hl : d.loops with
    | none => simp [numLoopRows, hl] at hk'
    | some loops =>
      have hrow : k < loops.jacobian.rows := by simpa [numLoopRows, hl] using hk'
      have hclosed := h.closedLoops loops hl k hrow
      cases mode with
      | hard => simpa [ConstraintMode.slack] using hclosed
      | soft w =>
        have hmode : (s.withMode (.soft w) .loops).loopMode = .soft w := rfl
        rw [entry_split_loopSlack hmode hk'] at hclosed
        simpa [softSlack] using hclosed

/-! ### The cost -/

/-- The slack of the other family costs the same with and without the columns of this one. -/
theorem penalties_delete (hy : y.size = (d.layout (s.withMode (.soft w) f)).numVariables) :
    let soft := s.withMode (.soft w) f
    let hard := s.withMode .hard f
    soft.contactMode.penalty ((d.layout soft).contactSlack.normSq y)
        + soft.loopMode.penalty ((d.layout soft).loopSlack.normSq y) =
      hard.contactMode.penalty ((d.layout hard).contactSlack.normSq (y.delete (d.softSlack s f)))
        + hard.loopMode.penalty ((d.layout hard).loopSlack.normSq (y.delete (d.softSlack s f)))
        + w * (d.softSlack s f).normSq y := by
  intro soft hard
  have hfits := softSlack_fits hy
  cases f with
  | contacts =>
    have hslack : (d.layout soft).contactSlack = d.softSlack s .contacts :=
      slack_layout_soft (s := s) (f := .contacts)
    have hother : (d.layout hard).loopSlack.normSq (y.delete (d.softSlack s .contacts)) =
        (d.layout soft).loopSlack.normSq y := by
      rw [Span.normSq, Span.normSq, size_loopSlack, size_loopSlack, Vec.slice_delete_of_ge hfits]
      · simp [layout_loopSlack, soft, hard, ConstraintMode.slackRows, familyRows]
      · simp [layout_loopSlack, hard, softSlack, ConstraintMode.slackRows]
    rw [hslack, hother]
    simp only [soft, hard, contactMode_withMode_contacts, loopMode_withMode_contacts,
      ConstraintMode.penalty]
    ring
  | loops =>
    have hslack : (d.layout soft).loopSlack = d.softSlack s .loops :=
      slack_layout_soft (s := s) (f := .loops)
    have hother : (d.layout hard).contactSlack.normSq (y.delete (d.softSlack s .loops)) =
        (d.layout soft).contactSlack.normSq y := by
      rw [Span.normSq, Span.normSq, size_contactSlack, size_contactSlack,
        Vec.slice_delete_of_le hfits]
      · simp [layout_contactSlack, soft, hard]
      · simp [layout_contactSlack, hard, softSlack]
    rw [hslack, hother]
    simp only [soft, hard, contactMode_withMode_loops, loopMode_withMode_loops,
      ConstraintMode.penalty, add_zero]

/-- The slack of a family is paid for, and nothing else changes without it. -/
theorem cost_delete {jointCosts : List (ℕ × ℝ)} {terms : List (TaskTerm ℝ)}
    (hterms : ∀ t ∈ terms, t.Fits d.numVelocities)
    (hjoints : ∀ e ∈ jointCosts, e.1 < d.numVelocities)
    (hy : y.size = (d.layout (s.withMode (.soft w) f)).numVariables) :
    (d.program ⟨s.withMode (.soft w) f, jointCosts⟩ terms).cost y =
      (d.program ⟨s.withMode .hard f, jointCosts⟩ terms).cost (y.delete (d.softSlack s f))
        + w * (d.softSlack s f).normSq y := by
  have hx : (y.delete (d.softSlack s f)).size =
      (d.layout (s.withMode .hard f)).numVariables := by
    rw [Vec.size_delete, hy, numVariables_soft, size_softSlack, Nat.add_sub_cancel]
  have hnv : d.numVelocities ≤ d.numHardVariables := by
    rw [numHardVariables]
    omega
  have haccel : (d.layout (s.withMode .hard f)).accelerations.normSq
      (y.delete (d.softSlack s f)) =
        (d.layout (s.withMode (.soft w) f)).accelerations.normSq y := by
    simp only [layout_accelerations, Span.normSq]
    rw [slice_delete_hard hy]
    simpa [Span.size] using hnv
  have hinputs : (d.layout (s.withMode .hard f)).inputs.normSq (y.delete (d.softSlack s f)) =
      (d.layout (s.withMode (.soft w) f)).inputs.normSq y := by
    simp only [layout_inputs, Span.normSq]
    rw [slice_delete_hard hy]
    simp [Span.size, numHardVariables]
  have hforces : (d.layout (s.withMode .hard f)).contactForces.normSq
      (y.delete (d.softSlack s f)) =
        (d.layout (s.withMode (.soft w) f)).contactForces.normSq y := by
    simp only [layout_contactForces, Span.normSq]
    rw [slice_delete_hard hy]
    simp [Span.size, numHardVariables]
    omega
  have hslice : ∀ t ∈ terms, (y.delete (d.softSlack s f)).slice 0 t.jacobian.cols =
      y.slice 0 t.jacobian.cols := by
    intro t ht
    have hcols := (hterms t ht).2.2.2.2
    exact slice_delete_hard hy (by omega)
  have hentry : ∀ e ∈ jointCosts, e.2 * (y.delete (d.softSlack s f)).entry e.1 ^ 2 =
      e.2 * y.entry e.1 ^ 2 := by
    intro e he
    have hlt := hjoints e he
    have hstart := numHardVariables_le_softSlack (d := d) (s := s) (f := f)
    rw [Vec.entry_delete (softSlack_fits hy), if_pos (by omega)]
  have hhessians : (terms.map fun t => t.hessian.form
      ((y.delete (d.softSlack s f)).slice 0 t.jacobian.cols)) =
        terms.map fun t => t.hessian.form (y.slice 0 t.jacobian.cols) :=
    List.map_congr_left fun t ht => by rw [hslice t ht]
  have hgradients : (terms.map fun t => t.gradient.dot
      ((y.delete (d.softSlack s f)).slice 0 t.jacobian.cols)) =
        terms.map fun t => t.gradient.dot (y.slice 0 t.jacobian.cols) :=
    List.map_congr_left fun t ht => by rw [hslice t ht]
  have hpenalties := penalties_delete hy
  rw [cost_program_eq_shares (d.costFits _ hterms hjoints) hy,
    cost_program_eq_shares (d.costFits _ hterms hjoints) hx]
  simp only [fields_withMode, haccel, hinputs, hforces, hhessians, hgradients,
    List.map_congr_left hentry]
  linarith only [hpenalties]

/-! ### Feasible points -/

section Feasible

variable {nv nu : ℕ} {jointCosts : List (ℕ × ℝ)} {terms : List (TaskTerm ℝ)}

/-- A point without slack is feasible with or without the columns for it. -/
theorem feasible_delete_iff (h : d.Shaped nv nu)
    (hy : y.size = (d.layout (s.withMode (.soft w) f)).numVariables)
    (hzero : ∀ k < d.familyRows f, y.entry ((d.softSlack s f).start + k) = 0) :
    (d.program ⟨s.withMode .hard f, jointCosts⟩ terms).Feasible (y.delete (d.softSlack s f)) ↔
      (d.program ⟨s.withMode (.soft w) f, jointCosts⟩ terms).Feasible y := by
  have halike := alike_delete hy hzero
  rw [feasible_program_iff h, feasible_program_iff h]
  constructor
  · intro hmeets
    exact hmeets.of_alike halike.symm (by simp [fields_withMode]) (by simp [fields_withMode])
      (by simp [fields_withMode])
  · intro hmeets
    exact hmeets.of_alike halike (by simp [fields_withMode]) (by simp [fields_withMode])
      (by simp [fields_withMode])

/-- The slack of a feasible point is what is left of the rows. -/
theorem block_softSlack_eq (h : d.Shaped nv nu)
    (hfeasible : (d.program ⟨s.withMode (.soft w) f, jointCosts⟩ terms).Feasible y) :
    block y (d.softSlack s f) =
      d.residual f (block y (d.layout (s.withMode (.soft w) f)).accelerations) := by
  have hmeets := (feasible_program_iff h _ _).1 hfeasible
  refine Vec.ext_entry ?_ fun k hk => ?_
  · simp [block, residual]
  · rw [block, Vec.size_slice] at hk
    rw [block, Vec.entry_slice hk]
    exact (hmeets.entry_residual (size_softSlack ▸ hk)).symm

/-- Nothing is left of the rows at a feasible point of the hard program. -/
theorem residual_eq_zeros (h : d.Shaped nv nu)
    (hy : y.size = (d.layout (s.withMode (.soft w) f)).numVariables)
    (hfeasible : (d.program ⟨s.withMode .hard f, jointCosts⟩ terms).Feasible
      (y.delete (d.softSlack s f))) :
    d.residual f (block y (d.layout (s.withMode (.soft w) f)).accelerations) =
      .zeros (d.familyRows f) := by
  have hmeets := (feasible_program_iff h _ _).1 hfeasible
  refine Vec.ext_entry ?_ fun k hk => ?_
  · simp [residual]
  · have hentry := hmeets.entry_residual (k := k) (by simpa [residual] using hk)
    rw [split_delete_accelerations hy] at hentry
    rw [Vec.entry_zeros]
    exact hentry

/-- A point of the hard program in the soft one. -/
theorem insertZeros_softSlack (h : d.Shaped nv nu) (hterms : ∀ t ∈ terms, t.Fits d.numVelocities)
    (hjoints : ∀ e ∈ jointCosts, e.1 < d.numVelocities)
    (hx : x.size = (d.layout (s.withMode .hard f)).numVariables) :
    let hard := d.program ⟨s.withMode .hard f, jointCosts⟩ terms
    let soft := d.program ⟨s.withMode (.soft w) f, jointCosts⟩ terms
    let y := x.insertZeros (d.softSlack s f)
    y.size = (d.layout (s.withMode (.soft w) f)).numVariables ∧
      (hard.Feasible x ↔ soft.Feasible y) ∧ soft.cost y = hard.cost x := by
  intro hard soft y
  have hstart : (d.softSlack s f).start ≤ x.size := hx ▸ softSlack_le
  have hy : y.size = (d.layout (s.withMode (.soft w) f)).numVariables := by
    rw [Vec.size_insertZeros, hx, size_softSlack, numVariables_soft]
  have hdelete : y.delete (d.softSlack s f) = x := Vec.delete_insertZeros hstart
  have hzero : ∀ k < d.familyRows f, y.entry ((d.softSlack s f).start + k) = 0 := by
    intro k hk
    rw [Vec.entry_insertZeros hstart, if_neg (by omega), if_pos]
    rw [size_softSlack]
    omega
  have hnormSq : (d.softSlack s f).normSq y = 0 := by
    rw [Span.normSq, Vec.normSq_slice]
    refine Finset.sum_eq_zero fun k hk => ?_
    rw [hzero k (size_softSlack ▸ Finset.mem_range.1 hk), zero_pow two_ne_zero]
  refine ⟨hy, ?_, ?_⟩
  · rw [← feasible_delete_iff h hy hzero, hdelete]
  · rw [cost_delete hterms hjoints hy, hnormSq, hdelete, mul_zero, add_zero]

/-- A feasible point of the soft program in the hard one. -/
theorem delete_softSlack (h : d.Shaped nv nu) (hterms : ∀ t ∈ terms, t.Fits d.numVelocities)
    (hjoints : ∀ e ∈ jointCosts, e.1 < d.numVelocities)
    (hy : y.size = (d.layout (s.withMode (.soft w) f)).numVariables)
    (hfeasible : (d.program ⟨s.withMode (.soft w) f, jointCosts⟩ terms).Feasible y) :
    let hard := d.program ⟨s.withMode .hard f, jointCosts⟩ terms
    let soft := d.program ⟨s.withMode (.soft w) f, jointCosts⟩ terms
    let x := y.delete (d.softSlack s f)
    let residual := d.residual f (block y (d.layout (s.withMode (.soft w) f)).accelerations)
    x.size = (d.layout (s.withMode .hard f)).numVariables ∧
      block y (d.softSlack s f) = residual ∧
      soft.cost y = hard.cost x + w * residual.normSq ∧
      (hard.Feasible x ↔ block y (d.softSlack s f) = .zeros (d.softSlack s f).size) := by
  intro hard soft x residual
  have hslack : block y (d.softSlack s f) = residual := block_softSlack_eq h hfeasible
  refine ⟨?_, hslack, ?_, ?_, ?_⟩
  · rw [Vec.size_delete, hy, numVariables_soft, size_softSlack, Nat.add_sub_cancel]
  · rw [← hslack]
    exact cost_delete hterms hjoints hy
  · intro hx
    rw [hslack, size_softSlack]
    exact residual_eq_zeros h hy hx
  · intro hzeros
    have hzero : ∀ k < d.familyRows f, y.entry ((d.softSlack s f).start + k) = 0 := by
      intro k hk
      rw [← Vec.entry_slice (size_softSlack.symm ▸ hk)]
      exact (congrArg (Vec.entry · k) hzeros).trans (Vec.entry_zeros _)
    exact (feasible_delete_iff h hy hzero).2 hfeasible

end Feasible

end TickData

/-! ### The two builds -/

/-- A term fits wherever its Jacobian does. -/
theorem TaskTerm.Fits.of_cols {t : TaskTerm ℝ} {m n : ℕ} (h : t.Fits m)
    (hcols : t.jacobian.cols ≤ n) : t.Fits n :=
  ⟨h.1, h.2.1, h.2.2.1, h.2.2.2.1, hcols⟩

namespace Assembler

variable {s : Settings ℝ} {f : Family} {robot model : RobotModel ℝ} {state : RobotState ℝ}
  {terms : List (TaskTerm ℝ)} {contacts : List (ContactPoint ℝ)}

/-- The mode of a family does not matter to the joint costs. -/
theorem of_create_withMode {mode : ConstraintMode ℝ} {a : Assembler ℝ}
    (h : create (s.withMode mode f) robot = .ok a) :
    a = ⟨s.withMode mode f, a.jointCosts⟩ ∧
      ∀ mode', create (s.withMode mode' f) robot = .ok ⟨s.withMode mode' f, a.jointCosts⟩ := by
  obtain ⟨costs, hcosts, h⟩ := Except.of_bind_eq_ok h
  cases h
  refine ⟨rfl, fun mode' => ?_⟩
  simp only [fields_withMode] at hcosts
  simp only [create, fields_withMode, hcosts]
  rfl

/-- The mode of a family does not decide whether there is a program. -/
theorem exists_build_withMode {mode : ConstraintMode ℝ} {jointCosts : List (ℕ × ℝ)}
    {p : ConeProgram ℝ}
    (h : build ⟨s.withMode mode f, jointCosts⟩ model state terms contacts = .ok p)
    (hcols : ∀ t ∈ terms, t.jacobian.cols ≤ model.numVelocities)
    (hjoints : ∀ e ∈ jointCosts, e.1 < model.numVelocities) (mode' : ConstraintMode ℝ) :
    ∃ p', build ⟨s.withMode mode' f, jointCosts⟩ model state terms contacts = .ok p' := by
  obtain ⟨d, hd, hfits, -, heffort, -⟩ := of_build_eq_ok h
  have hterms : ∀ t ∈ terms, t.Fits model.numVelocities := fun t ht =>
    (hfits.1 t ht).of_cols (hcols t ht)
  exact ⟨_, build_eq_ok hd hterms hjoints (TickData.checkEffort_eq_ok heffort)⟩

end Assembler

/-- Two builds of one tick whose settings differ in the mode of one family, with tasks that act on
the accelerations and joints that are among them. Both succeed or none. A point of the hard program
is feasible exactly when it is feasible for the soft one with zeros for the slack, and costs as much
there. The slack of a feasible point of the soft program is what is left of the rows of the family;
the point costs what it costs without the slack and the weighted square of the slack, and without
the slack it is feasible for the hard program exactly when there is none. -/
theorem soft_eq_hard_up_to_slack {settings : Settings ℝ} {f : Family} {w : ℝ}
    {robot model : RobotModel ℝ} {hard soft : Assembler ℝ}
    (hhard : Assembler.create (settings.withMode .hard f) robot = .ok hard)
    (hsoft : Assembler.create (settings.withMode (.soft w) f) robot = .ok soft)
    {state : RobotState ℝ} {terms : List (TaskTerm ℝ)} {contacts : List (ContactPoint ℝ)}
    (hcols : ∀ t ∈ terms, t.jacobian.cols ≤ model.numVelocities)
    (hjoints : ∀ e ∈ settings.jointAccelerationCosts.entries, ∀ index ∈ robot.jointIndex e.1,
      index.velocity < model.numVelocities) :
    ((∃ p, hard.build model state terms contacts = .ok p) ↔
      ∃ p', soft.build model state terms contacts = .ok p') ∧
    ∀ p p', hard.build model state terms contacts = .ok p →
      soft.build model state terms contacts = .ok p' →
      ∃ d : TickData ℝ, d.Answers model state contacts ∧
        let slack := p'.layout.slack f
        (∀ x : Vec ℝ, x.size = p.numVariables →
          (x.insertZeros slack).size = p'.numVariables ∧
          (p.Feasible x ↔ p'.Feasible (x.insertZeros slack)) ∧
          p'.cost (x.insertZeros slack) = p.cost x) ∧
        ∀ y : Vec ℝ, y.size = p'.numVariables → p'.Feasible y →
          let residual := d.residual f (block y p'.layout.accelerations)
          (y.delete slack).size = p.numVariables ∧ block y slack = residual ∧
          p'.cost y = p.cost (y.delete slack) + w * residual.normSq ∧
          (p.Feasible (y.delete slack) ↔ block y slack = .zeros slack.size) := by
  have hcosts : ∀ e ∈ hard.jointCosts, e.1 < model.numVelocities := by
    intro c hc
    obtain ⟨e, he, index, hindex, rfl⟩ := Assembler.exists_of_mem_jointCosts hhard hc
    rw [(fields_withMode settings .hard f).2.1] at he
    exact hjoints e he index hindex
  obtain ⟨hhardEq, hcreate⟩ := Assembler.of_create_withMode hhard
  obtain rfl : _ = soft := Except.ok.inj ((hcreate (.soft w)).symm.trans hsoft)
  rw [hhardEq]
  generalize hard.jointCosts = jointCosts at *
  refine ⟨⟨fun ⟨p, hp⟩ => Assembler.exists_build_withMode hp hcols hcosts _,
    fun ⟨p, hp⟩ => Assembler.exists_build_withMode hp hcols hcosts _⟩, fun p p' hp hp' => ?_⟩
  obtain ⟨d, hd, hfits, -, -, rfl⟩ := Assembler.of_build_eq_ok hp
  obtain ⟨d', hd', -, -, -, rfl⟩ := Assembler.of_build_eq_ok hp'
  obtain rfl : d = d' := Except.ok.inj (hd.symm.trans hd')
  obtain ⟨hanswers, hshaped⟩ := TickData.of_gather_eq_ok hd
  rw [← hshaped.numVelocities_eq] at hcols hcosts
  have hterms : ∀ t ∈ terms, t.Fits d.numVelocities := fun t ht =>
    (hfits.1 t ht).of_cols (hcols t ht)
  refine ⟨d, hanswers, ?_⟩
  simp only [TickData.numVariables_program]
  dsimp only [TickData.program]
  rw [TickData.slack_layout_soft]
  exact ⟨fun x hx => TickData.insertZeros_softSlack hshaped hterms hcosts hx,
    fun y hy hfeasible => TickData.delete_softSlack hshaped hterms hcosts hy hfeasible⟩

/-- A point mass on one foot that should rise, with hard and with soft contacts. -/
theorem soft_eq_hard_up_to_slack_pointMass :
    let r : PointMass ℝ := ⟨"mass", 1, 10⟩
    let robot : RobotModel ℝ := { r.model with jointIndex := fun _ => some ⟨2, 2⟩ }
    let settings : Settings ℝ :=
      { Settings.standard with jointAccelerationCosts := SortedMap.empty.insert "lift" 3 }
    let hard : Assembler ℝ := ⟨settings.withMode .hard .contacts, [(2, 3)]⟩
    let soft : Assembler ℝ := ⟨settings.withMode (.soft 50) .contacts, [(2, 3)]⟩
    let state : RobotState ℝ := ⟨.zeros 3, .zeros 3⟩
    let foot : ContactPoint ℝ := ⟨"foot", ⟨"mass", 0⟩, .unitZ, none, none⟩
    let rise : TaskTerm ℝ :=
      ⟨"rise", .identity 3, .zeros 3, .ofList [0, 0, 1], .identity 3, .zeros 3⟩
    Assembler.create (settings.withMode .hard .contacts) robot = .ok hard ∧
    Assembler.create (settings.withMode (.soft 50) .contacts) robot = .ok soft ∧
    ∃ p p', hard.build r.model state [rise] [foot] = .ok p ∧
      soft.build r.model state [rise] [foot] = .ok p' ∧
      ∀ x : Vec ℝ, x.size = p.numVariables →
        (p.Feasible x ↔ p'.Feasible (x.insertZeros (p'.layout.slack .contacts))) ∧
        p'.cost (x.insertZeros (p'.layout.slack .contacts)) = p.cost x := by
  intro r robot settings hard soft state foot rise
  have hhard : Assembler.create (settings.withMode .hard .contacts) robot = .ok hard := rfl
  have hsoft : Assembler.create (settings.withMode (.soft 50) .contacts) robot = .ok soft := rfl
  have hterms : ∀ t ∈ [rise], t.Fits 3 := List.forall_mem_singleton.2 ⟨rfl, rfl, rfl, rfl, le_rfl⟩
  have hcosts : ∀ e ∈ [((2 : ℕ), (3 : ℝ))], e.1 < 3 := List.forall_mem_singleton.2 (by decide)
  have hbuild (a : Assembler ℝ) (ha : a.jointCosts = [(2, 3)]) :
      a.build r.model state [rise] [foot] = .ok ((r.tickData state [foot]).program a [rise]) :=
    PointMass.build_eq_ok ⟨rfl, rfl⟩ (List.forall_mem_singleton.2 rfl) hterms (ha ▸ hcosts)
  have hjoints : ∀ e ∈ settings.jointAccelerationCosts.entries, ∀ index ∈ robot.jointIndex e.1,
      index.velocity < r.model.numVelocities := by
    intro e _ index hindex
    cases hindex
    decide
  obtain ⟨-, hboth⟩ := @soft_eq_hard_up_to_slack settings .contacts 50 robot r.model hard soft hhard
    hsoft state [rise] [foot] (List.forall_mem_singleton.2 le_rfl) hjoints
  obtain ⟨d, -, hpoints, -⟩ := hboth _ _ (hbuild hard rfl) (hbuild soft rfl)
  exact ⟨hhard, hsoft, _, _, hbuild hard rfl, hbuild soft rfl, fun x hx => (hpoints x hx).2⟩

end WholeBody
