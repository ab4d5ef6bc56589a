import Mathlib
import WholeBody.Proofs.Program.Feasibility

/-!
# Decisions as vectors

Every decision of the right sizes is that of a vector of decision variables: its blocks are written
one after the other. So to find a feasible point it is enough to find a decision that meets the
constraints.

## Main statements

* `VariableLayout.join` — the vector of a decision.
* `TickData.Meets.of_alike` — what the constraints depend on.
* `TickData.Meets.split_join` — the vector of a decision that meets the constraints does too.
-/

namespace WholeBody

/-- The vector with the blocks of a decision. -/
noncomputable def VariableLayout.join (l : VariableLayout) (z : Decision) : Vec ℝ :=
  .ofFn l.numVariables fun j =>
    if j < l.accelerations.stop then z.accelerations.entry (j - l.accelerations.start)
    else if j < l.contactForces.stop then
      let k := j - l.contactForces.start
      (z.force (k / 3)).component (k % 3)
    else if j < l.loopForces.stop then z.loopForces.entry (j - l.loopForces.start)
    else if j < l.inputs.stop then z.inputs.entry (j - l.inputs.start)
    else if j < l.contactSlack.stop then
      let k := j - l.contactSlack.start
      (z.contactSlack (k / 3)).component (k % 3)
    else z.loopSlack.entry (j - l.loopSlack.start)

namespace TickData

variable {d : TickData ℝ} {s : Settings ℝ} {z : Decision} {i k : ℕ}

/-! ### Entries -/

/-- An entry of the vector of a decision. -/
theorem entry_join {j : ℕ} (hj : j < (d.layout s).numVariables) :
    let nv := d.numVelocities
    let nc := 3 * d.contacts.length
    ((d.layout s).join z).entry j =
      if j < nv then z.accelerations.entry j
      else if j < nv + nc then (z.force ((j - nv) / 3)).component ((j - nv) % 3)
      else if j < nv + nc + d.numLoopRows then z.loopForces.entry (j - (nv + nc))
      else if j < d.numHardVariables then z.inputs.entry (j - (nv + nc + d.numLoopRows))
      else if j < d.numHardVariables + s.contactMode.slackRows nc then
        (z.contactSlack ((j - d.numHardVariables) / 3)).component ((j - d.numHardVariables) % 3)
      else z.loopSlack.entry (j - (d.numHardVariables + s.contactMode.slackRows nc)) := by
  intro nv nc
  rw [VariableLayout.join, Vec.entry_ofFn_of_lt hj]
  simp only [layout_accelerations, layout_contactForces, layout_loopForces, layout_inputs,
    layout_contactSlack, layout_loopSlack, Nat.sub_zero, nv, nc]

theorem entry_join_accelerations (hi : i < d.numVelocities) :
    ((d.layout s).join z).entry i = z.accelerations.entry i := by
  have hn : i < (d.layout s).numVariables := by
    rw [layout_numVariables, numHardVariables]
    omega
  rw [entry_join hn, if_pos hi]

theorem entry_join_force (hi : i < d.contacts.length) (hk : k < 3) :
    ((d.layout s).join z).entry (d.numVelocities + 3 * i + k) = (z.force i).component k := by
  have hn : d.numVelocities + 3 * i + k < (d.layout s).numVariables := by
    rw [layout_numVariables, numHardVariables]
    omega
  have hdiv : (d.numVelocities + 3 * i + k - d.numVelocities) / 3 = i := by omega
  have hmod : (d.numVelocities + 3 * i + k - d.numVelocities) % 3 = k := by omega
  rw [entry_join hn, if_neg (by omega), if_pos (by omega), hdiv, hmod]

theorem entry_join_loopForces (hi : i < d.numLoopRows) :
    ((d.layout s).join z).entry (d.numVelocities + 3 * d.contacts.length + i) =
      z.loopForces.entry i := by
  have hn : d.numVelocities + 3 * d.contacts.length + i < (d.layout s).numVariables := by
    rw [layout_numVariables, numHardVariables]
    omega
  rw [entry_join hn, if_neg (by omega), if_neg (by omega), if_pos (by omega),
    Nat.add_sub_cancel_left]

theorem entry_join_inputs (hi : i < d.numActuators) :
    ((d.layout s).join z).entry (d.numVelocities + 3 * d.contacts.length + d.numLoopRows + i) =
      z.inputs.entry i := by
  have hhard : d.numHardVariables =
      d.numVelocities + 3 * d.contacts.length + d.numLoopRows + d.numActuators := rfl
  have hn : d.numVelocities + 3 * d.contacts.length + d.numLoopRows + i <
      (d.layout s).numVariables := by
    rw [layout_numVariables]
    omega
  rw [entry_join hn, if_neg (by omega), if_neg (by omega), if_neg (by omega), if_pos (by omega),
    Nat.add_sub_cancel_left]

theorem entry_join_contactSlack {w : ℝ} (hmode : s.contactMode = .soft w)
    (hi : i < d.contacts.length) (hk : k < 3) :
    ((d.layout s).join z).entry (d.numHardVariables + 3 * i + k) =
      (z.contactSlack i).component k := by
  have hn : d.numHardVariables + 3 * i + k < (d.layout s).numVariables := by
    rw [layout_numVariables, hmode, ConstraintMode.slackRows]
    omega
  have hhard : d.numHardVariables =
      d.numVelocities + 3 * d.contacts.length + d.numLoopRows + d.numActuators := rfl
  have hdiv : (d.numHardVariables + 3 * i + k - d.numHardVariables) / 3 = i := by omega
  have hmod : (d.numHardVariables + 3 * i + k - d.numHardVariables) % 3 = k := by omega
  rw [entry_join hn, hmode, ConstraintMode.slackRows, if_neg (by omega), if_neg (by omega),
    if_neg (by omega), if_neg (by omega), if_pos (by omega), hdiv, hmod]

theorem entry_join_loopSlack {w : ℝ} (hmode : s.loopMode = .soft w) (hi : i < d.numLoopRows) :
    ((d.layout s).join z).entry ((d.layout s).loopSlack.start + i) = z.loopSlack.entry i := by
  rw [layout_loopSlack]
  dsimp only
  have hn : d.numHardVariables + s.contactMode.slackRows (3 * d.contacts.length) + i <
      (d.layout s).numVariables := by
    rw [layout_numVariables, hmode]
    exact Nat.add_lt_add_left hi _
  have hhard : d.numHardVariables =
      d.numVelocities + 3 * d.contacts.length + d.numLoopRows + d.numActuators := rfl
  rw [entry_join hn, if_neg (by omega), if_neg (by omega), if_neg (by omega), if_neg (by omega),
    if_neg (by omega), Nat.add_sub_cancel_left]

/-! ### Blocks -/

/-- The blocks of a decision have the sizes of the layout. -/
structure Sized (d : TickData ℝ) (z : Decision) : Prop where
  accelerations : z.accelerations.size = d.numVelocities
  loopForces : z.loopForces.size = d.numLoopRows
  inputs : z.inputs.size = d.numActuators

namespace Sized

variable (h : d.Sized z)

include h

theorem split_join_accelerations :
    ((d.layout s).split ((d.layout s).join z)).accelerations = z.accelerations := by
  rw [VariableLayout.split, size_accelerations, layout_accelerations, ← h.accelerations]
  refine Vec.slice_eq fun i hi => ?_
  rw [Nat.zero_add, entry_join_accelerations (h.accelerations ▸ hi)]

theorem split_join_loopForces :
    ((d.layout s).split ((d.layout s).join z)).loopForces = z.loopForces := by
  rw [VariableLayout.split, size_loopForces, layout_loopForces, ← h.loopForces]
  exact Vec.slice_eq fun i hi => entry_join_loopForces (h.loopForces ▸ hi)

theorem split_join_inputs :
    ((d.layout s).split ((d.layout s).join z)).inputs = z.inputs := by
  rw [VariableLayout.split, size_inputs, layout_inputs, ← h.inputs]
  exact Vec.slice_eq fun i hi => entry_join_inputs (h.inputs ▸ hi)

end Sized

theorem split_join_force (hi : i < d.contacts.length) :
    ((d.layout s).split ((d.layout s).join z)).force i = z.force i := by
  refine Vec3.ext_component fun k hk => ?_
  rw [VariableLayout.split, Vec3.component_ofVec _ hk, layout_contact, entry_join_force hi hk]

/-- The slack of a contact, where there is any. -/
theorem slack_split_join_contactSlack (hi : i < d.contacts.length) (hk : k < 3) :
    s.contactMode.slack
        ((((d.layout s).split ((d.layout s).join z)).contactSlack i).component k) =
      s.contactMode.slack ((z.contactSlack i).component k) := by
  cases hmode : s.contactMode with
  | hard => rfl
  | soft w =>
    rw [VariableLayout.split, Vec3.component_ofVec _ hk, layout_contactSlack,
      entry_join_contactSlack hmode hi hk]

/-- The slack of a loop row, where there is any. -/
theorem slack_split_join_loopSlack (hi : i < d.numLoopRows) :
    s.loopMode.slack (((d.layout s).split ((d.layout s).join z)).loopSlack.entry i) =
      s.loopMode.slack (z.loopSlack.entry i) := by
  cases hmode : s.loopMode with
  | hard => rfl
  | soft w =>
    have hsize : (d.layout s).loopSlack.size = d.numLoopRows := by
      rw [size_loopSlack, hmode, ConstraintMode.slackRows]
    rw [VariableLayout.split, Vec.entry_slice (hsize ▸ hi), entry_join_loopSlack hmode hi]

/-! ### Decisions that are alike -/

/-- Two decisions move and push alike, and have the same slack where their modes allow any. -/
structure Alike (d : TickData ℝ) (s s' : Settings ℝ) (z z' : Decision) : Prop where
  accelerations : z'.accelerations = z.accelerations
  force : ∀ i < d.contacts.length, z'.force i = z.force i
  loopForces : z'.loopForces = z.loopForces
  inputs : z'.inputs = z.inputs
  contactSlack : ∀ i < d.contacts.length, ∀ k < 3,
    s'.contactMode.slack ((z'.contactSlack i).component k) =
      s.contactMode.slack ((z.contactSlack i).component k)
  loopSlack : ∀ k < d.numLoopRows,
    s'.loopMode.slack (z'.loopSlack.entry k) = s.loopMode.slack (z.loopSlack.entry k)

theorem Alike.symm {s' : Settings ℝ} {z' : Decision} (h : d.Alike s s' z z') :
    d.Alike s' s z' z :=
  ⟨h.accelerations.symm, fun i hi => (h.force i hi).symm, h.loopForces.symm, h.inputs.symm,
    fun i hi k hk => (h.contactSlack i hi k hk).symm, fun k hk => (h.loopSlack k hk).symm⟩

theorem Alike.contactTorque {s' : Settings ℝ} {z' : Decision} (h : d.Alike s s' z z') (k : ℕ) :
    d.contactTorque z' k = d.contactTorque z k := by
  rw [TickData.contactTorque, TickData.contactTorque]
  refine congrArg List.sum (List.map_congr_left fun e he => ?_)
  rw [h.force e.2 (lt_of_mem_numbered he)]

theorem Alike.loopTorque {s' : Settings ℝ} {z' : Decision} (h : d.Alike s s' z z') (k : ℕ) :
    d.loopTorque z' k = d.loopTorque z k := by
  rw [TickData.loopTorque, TickData.loopTorque, h.loopForces]

/-- Of two decisions that are alike, both meet the constraints or none. -/
theorem Meets.of_alike {s' : Settings ℝ} {z' : Decision} (h : d.Meets s z)
    (halike : d.Alike s s' z z') (hleast : s'.minNormalForce = s.minNormalForce)
    (hcone : s'.defaultCone = s.defaultCone) (hfriction : s'.defaultFriction = s.defaultFriction) :
    d.Meets s' z' where
  dynamics k hk := by
    rw [halike.accelerations, halike.inputs, halike.contactTorque, halike.loopTorque]
    exact h.dynamics k hk
  noSlip e he k hk := by
    rw [halike.accelerations, halike.contactSlack e.2 (lt_of_mem_numbered he) k hk]
    exact h.noSlip e he k hk
  closedLoops loops hl k hk := by
    have hrow : k < d.numLoopRows := by rwa [numLoopRows, hl]
    rw [halike.accelerations, halike.loopSlack k hrow]
    exact h.closedLoops loops hl k hk
  leastNormal e he := by
    rw [hleast, halike.force e.2 (lt_of_mem_numbered he)]
    exact h.leastNormal e he
  friction e he := by
    rw [hcone, hfriction, halike.force e.2 (lt_of_mem_numbered he)]
    exact h.friction e he
  effort limits hl k hk := by
    rw [halike.inputs]
    exact h.effort limits hl k hk

/-- The blocks of the vector of a decision are those of the decision. -/
theorem Sized.alike_split_join (hz : d.Sized z) :
    d.Alike s s z ((d.layout s).split ((d.layout s).join z)) where
  accelerations := hz.split_join_accelerations
  force _ hi := split_join_force hi
  loopForces := hz.split_join_loopForces
  inputs := hz.split_join_inputs
  contactSlack _ hi _ hk := slack_split_join_contactSlack hi hk
  loopSlack _ hi := slack_split_join_loopSlack hi

/-- The vector of a decision that meets the constraints does too. -/
theorem Meets.split_join (h : d.Meets s z) (hz : d.Sized z) :
    d.Meets s ((d.layout s).split ((d.layout s).join z)) :=
  h.of_alike hz.alike_split_join rfl rfl rfl

end TickData

end WholeBody
