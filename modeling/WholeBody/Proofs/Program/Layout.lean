import Mathlib
import WholeBody.Program.Assembly

/-!
# The layout of a tick

The blocks of the decision vector as functions of the number of velocities, contacts, loop rows and
actuators, and of the two modes.
-/

namespace WholeBody

variable {α : Type}

/-! ### Layouts of given counts -/

namespace VariableLayout

theorem mem_loopSlack? {l : VariableLayout} {span : Span} :
    span ∈ l.loopSlack? ↔ ¬ l.loopSlack.isEmpty ∧ span = l.loopSlack := by
  rw [loopSlack?]
  split
  · rename_i hempty
    exact iff_of_false nofun fun h => h.1 hempty
  · rename_i hne
    rw [and_iff_right hne, Option.mem_some_iff]
    exact eq_comm

variable {nv k h nu i : Nat} {contactMode loopMode : ConstraintMode α}

theorem accelerations_make : (make nv k h nu contactMode loopMode).accelerations =
    .ofSize 0 nv :=
  rfl

theorem accelerations_stop_make :
    (make nv k h nu contactMode loopMode).accelerations.start +
      (make nv k h nu contactMode loopMode).accelerations.size = nv := by
  rw [accelerations_make, Span.start_ofSize, Span.size_ofSize, Nat.zero_add]

theorem contactForces_make : (make nv k h nu contactMode loopMode).contactForces =
    .ofSize nv (3 * k) := by
  simp [make]

theorem contactSlack_make : (make nv k h nu contactMode loopMode).contactSlack =
    .ofSize (nv + 3 * k + h + nu) (contactMode.slackRows (3 * k)) := by
  simp [make]

theorem loopSlack_make : (make nv k h nu contactMode loopMode).loopSlack =
    .ofSize (nv + 3 * k + h + nu + contactMode.slackRows (3 * k)) (loopMode.slackRows h) := by
  simp [make]

theorem numVariables_make : (make nv k h nu contactMode loopMode).numVariables =
    nv + 3 * k + h + nu + contactMode.slackRows (3 * k) + loopMode.slackRows h := by
  rw [numVariables, loopSlack_make, Span.stop_ofSize]

/-- A contact has three columns of slack, or none. An empty block of slack says that contacts are
hard because there is at least this one. -/
theorem contactSlackOf_make (hi : i < k) :
    (make nv k h nu contactMode loopMode).contactSlackOf i =
      match contactMode with
      | .hard => none
      | .soft _ => some (.ofSize (nv + 3 * k + h + nu + 3 * i) 3) := by
  rw [contactSlackOf, contactSlack_make]
  cases contactMode with
  | hard => simp [ConstraintMode.slackRows, Span.isEmpty]
  | soft w =>
    have hne : ¬ k = 0 := by omega
    simp [ConstraintMode.slackRows, Span.isEmpty, hne]

/-- The loops have no slack when they are hard, and none either when they have no rows. -/
theorem mem_loopSlack?_make {s : Span} : s ∈ (make nv k h nu contactMode loopMode).loopSlack? ↔
    ((∃ w, loopMode = .soft w) ∧ 0 < h) ∧
      s = .ofSize (nv + 3 * k + h + nu + contactMode.slackRows (3 * k)) h := by
  rw [mem_loopSlack?, loopSlack_make]
  cases loopMode with
  | hard => simp [ConstraintMode.slackRows, Span.isEmpty]
  | soft w => simp [ConstraintMode.slackRows, Span.isEmpty, Nat.pos_iff_ne_zero]

/-- The slack of a contact is behind the accelerations and inside the decision vector. -/
theorem of_mem_contactSlackOf_make (hi : i < k) {s : Span}
    (hs : s ∈ (make nv k h nu contactMode loopMode).contactSlackOf i) :
    s.size = 3 ∧ nv ≤ s.start ∧
      s.start + s.size ≤ (make nv k h nu contactMode loopMode).numVariables := by
  rw [contactSlackOf_make hi] at hs
  rw [numVariables_make]
  cases contactMode with
  | hard => cases hs
  | soft w =>
    cases hs
    refine ⟨Span.size_ofSize _ _, ?_⟩
    simp only [Span.size_ofSize, Span.start_ofSize, ConstraintMode.slackRows]
    omega

/-- The slack of the loops is behind the accelerations and inside the decision vector. -/
theorem of_mem_loopSlack?_make {s : Span}
    (hs : s ∈ (make nv k h nu contactMode loopMode).loopSlack?) :
    s.size = h ∧ nv ≤ s.start ∧
      s.start + s.size ≤ (make nv k h nu contactMode loopMode).numVariables := by
  obtain ⟨⟨⟨w, rfl⟩, -⟩, rfl⟩ := mem_loopSlack?_make.1 hs
  rw [numVariables_make]
  refine ⟨Span.size_ofSize _ _, ?_⟩
  simp only [Span.size_ofSize, Span.start_ofSize, ConstraintMode.slackRows]
  omega

/-- A Jacobian over the velocities and slack of its height fit. -/
theorem fits_make {J : Mat α} (hcols : J.cols = nv) {slack : Option Span}
    (hslack : ∀ s ∈ slack, s.size = J.rows ∧
      s.start + s.size ≤ (make nv k h nu contactMode loopMode).numVariables) :
    let l := make nv k h nu contactMode loopMode
    HolonomicFits J l.accelerations slack l.numVariables := by
  refine ⟨?_, ?_, hslack⟩
  · rw [accelerations_make, Span.size_ofSize, hcols]
  · rw [accelerations_stop_make, numVariables_make]
    omega

theorem fits_contact_make {J : Mat α} (hrows : J.rows = 3) (hcols : J.cols = nv) (hi : i < k) :
    let l := make nv k h nu contactMode loopMode
    HolonomicFits J l.accelerations (l.contactSlackOf i) l.numVariables := by
  refine fits_make hcols fun s hs => ?_
  obtain ⟨hsize, -, hstop⟩ := of_mem_contactSlackOf_make hi hs
  exact ⟨hsize.trans hrows.symm, hstop⟩

theorem fits_loops_make {J : Mat α} (hrows : J.rows = h) (hcols : J.cols = nv) :
    let l := make nv k h nu contactMode loopMode
    HolonomicFits J l.accelerations l.loopSlack? l.numVariables := by
  refine fits_make hcols fun s hs => ?_
  obtain ⟨hsize, -, hstop⟩ := of_mem_loopSlack?_make hs
  exact ⟨hsize.trans hrows.symm, hstop⟩

end VariableLayout

/-! ### The layout of a tick -/

variable (d : TickData α) (s : Settings α) (i : Nat)

namespace TickData

theorem layout_accelerations : (d.layout s).accelerations = ⟨0, d.numVelocities⟩ := by
  simp [layout, VariableLayout.make, Span.ofSize]

theorem layout_contactForces : (d.layout s).contactForces =
    ⟨d.numVelocities, d.numVelocities + 3 * d.contacts.length⟩ := by
  simp [layout, VariableLayout.make, Span.ofSize]

theorem layout_contact : (d.layout s).contact i =
    ⟨d.numVelocities + 3 * i, d.numVelocities + 3 * i + 3⟩ := by
  simp [VariableLayout.contact, layout_contactForces, Span.ofSize]

theorem layout_loopForces : (d.layout s).loopForces =
    ⟨d.numVelocities + 3 * d.contacts.length,
      d.numVelocities + 3 * d.contacts.length + d.numLoopRows⟩ := by
  simp [layout, VariableLayout.make, Span.ofSize]

/-- Number of variables without the slack. -/
def numHardVariables : Nat :=
  d.numVelocities + 3 * d.contacts.length + d.numLoopRows + d.numActuators

theorem layout_inputs : (d.layout s).inputs =
    ⟨d.numVelocities + 3 * d.contacts.length + d.numLoopRows, d.numHardVariables⟩ := by
  simp [layout, VariableLayout.make, Span.ofSize, numHardVariables]

theorem size_accelerations : (d.layout s).accelerations.size = d.numVelocities := by
  simp [layout_accelerations, Span.size]

theorem size_loopForces : (d.layout s).loopForces.size = d.numLoopRows := by
  simp [layout_loopForces, Span.size]

theorem size_inputs : (d.layout s).inputs.size = d.numActuators := by
  simp [layout_inputs, Span.size, numHardVariables]

theorem accelerations_stop :
    (d.layout s).accelerations.start + (d.layout s).accelerations.size = d.numVelocities :=
  VariableLayout.accelerations_stop_make

theorem layout_contactSlack : (d.layout s).contactSlack =
    ⟨d.numHardVariables, d.numHardVariables + s.contactMode.slackRows (3 * d.contacts.length)⟩ := by
  simp [layout, VariableLayout.make, Span.ofSize, numHardVariables]

theorem layout_loopSlack : (d.layout s).loopSlack =
    ⟨d.numHardVariables + s.contactMode.slackRows (3 * d.contacts.length),
      d.numHardVariables + s.contactMode.slackRows (3 * d.contacts.length)
        + s.loopMode.slackRows d.numLoopRows⟩ := by
  simp [layout, VariableLayout.make, Span.ofSize, numHardVariables]

theorem size_contactSlack :
    (d.layout s).contactSlack.size = s.contactMode.slackRows (3 * d.contacts.length) := by
  rw [layout_contactSlack, Span.size, Nat.add_sub_cancel_left]

theorem size_loopSlack :
    (d.layout s).loopSlack.size = s.loopMode.slackRows d.numLoopRows := by
  rw [layout_loopSlack, Span.size, Nat.add_sub_cancel_left]

theorem layout_numVariables : (d.layout s).numVariables =
    d.numHardVariables + s.contactMode.slackRows (3 * d.contacts.length)
      + s.loopMode.slackRows d.numLoopRows := by
  rw [VariableLayout.numVariables, layout_loopSlack]

/-- Every block of variables ends within the decision vector. -/
theorem stop_le_numVariables {t : Span}
    (h : t ∈ [(d.layout s).accelerations, (d.layout s).contactForces, (d.layout s).loopForces,
      (d.layout s).inputs, (d.layout s).contactSlack, (d.layout s).loopSlack]) :
    t.stop ≤ (d.layout s).numVariables := by
  simp only [List.mem_cons, List.not_mem_nil, or_false] at h
  rw [layout_numVariables]
  rcases h with rfl | rfl | rfl | rfl | rfl | rfl
  · rw [layout_accelerations, numHardVariables]
    dsimp only
    omega
  · rw [layout_contactForces, numHardVariables]
    dsimp only
    omega
  · rw [layout_loopForces, numHardVariables]
    dsimp only
    omega
  · rw [layout_inputs]
    dsimp only
    omega
  · rw [layout_contactSlack]
    dsimp only
    omega
  · rw [layout_loopSlack]

/-- A block of variables with its size fits into the decision vector. -/
theorem start_add_size_le {t : Span}
    (h : t ∈ [(d.layout s).accelerations, (d.layout s).contactForces, (d.layout s).loopForces,
      (d.layout s).inputs, (d.layout s).contactSlack, (d.layout s).loopSlack]) :
    t.start + t.size ≤ (d.layout s).numVariables := by
  have hstop := stop_le_numVariables d s h
  have horder : t.start ≤ t.stop := by
    simp only [List.mem_cons, List.not_mem_nil, or_false] at h
    rcases h with rfl | rfl | rfl | rfl | rfl | rfl <;>
      exact Nat.le_add_right _ _
  rw [Span.size, Nat.add_sub_cancel' horder]
  exact hstop

variable {d s i}

/-- The force of a contact ends within the decision vector. -/
theorem stop_contact_le (h : i < d.contacts.length) :
    ((d.layout s).contact i).stop ≤ (d.layout s).numVariables := by
  rw [layout_contact, layout_numVariables, numHardVariables]
  dsimp only
  omega

theorem contactSlackOf_hard (h : s.contactMode = .hard) :
    (d.layout s).contactSlackOf i = none := by
  simp [VariableLayout.contactSlackOf, layout_contactSlack, h, ConstraintMode.slackRows,
    Span.isEmpty]

theorem contactSlackOf_soft {w : α} (h : s.contactMode = .soft w) (hi : i < d.contacts.length) :
    (d.layout s).contactSlackOf i = some (.ofSize (d.numHardVariables + 3 * i) 3) := by
  rw [layout, VariableLayout.contactSlackOf_make hi, h]
  rfl

theorem loopSlack?_hard (h : s.loopMode = .hard) : (d.layout s).loopSlack? = none := by
  simp [VariableLayout.loopSlack?, layout_loopSlack, h, ConstraintMode.slackRows, Span.isEmpty]

theorem loopSlack?_soft {w : α} (h : s.loopMode = .soft w) (hpos : 0 < d.numLoopRows) :
    (d.layout s).loopSlack? = some (d.layout s).loopSlack := by
  have hne : ¬ d.numLoopRows = 0 := by omega
  simp [VariableLayout.loopSlack?, layout_loopSlack, h, ConstraintMode.slackRows, Span.isEmpty, hne]

/-- The slack of a contact is behind the accelerations. -/
theorem accelerations_le_contactSlackOf (hi : i < d.contacts.length) :
    ∀ t ∈ (d.layout s).contactSlackOf i,
      (d.layout s).accelerations.start + (d.layout s).accelerations.size ≤ t.start := by
  intro t ht
  rw [accelerations_stop]
  exact (VariableLayout.of_mem_contactSlackOf_make hi ht).2.1

/-- The slack of the loops is behind the accelerations. -/
theorem accelerations_le_loopSlack? : ∀ t ∈ (d.layout s).loopSlack?,
    (d.layout s).accelerations.start + (d.layout s).accelerations.size ≤ t.start := by
  intro t ht
  rw [accelerations_stop]
  exact (VariableLayout.of_mem_loopSlack?_make ht).2.1

theorem mem_numbered {e : (ContactPoint α × PointKinematics α) × Nat} :
    e ∈ d.numbered ↔ d.contacts[e.2]? = some e.1 := by
  simp [numbered, List.mem_zipIdx_iff_getElem?]

theorem lt_of_mem_numbered {e : (ContactPoint α × PointKinematics α) × Nat}
    (h : e ∈ d.numbered) : e.2 < d.contacts.length := by
  exact (List.getElem?_eq_some_iff.1 (mem_numbered.1 h)).1

theorem mem_contacts_of_mem_numbered {e : (ContactPoint α × PointKinematics α) × Nat}
    (h : e ∈ d.numbered) : e.1 ∈ d.contacts :=
  List.mem_of_getElem? (mem_numbered.1 h)

end TickData

end WholeBody
