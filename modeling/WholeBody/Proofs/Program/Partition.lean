import Mathlib
import WholeBody.Proofs.Program.Shape
import WholeBody.Proofs.Scalar.Real

/-!
# The partition of the decision vector

The blocks of a layout partition the indices of the decision vector, and the columns of the single
contacts partition the blocks of their family. A layout does not keep the modes it was made for: an
empty block of slack stands for a hard family. This says the right thing of every contact there is,
and of loops with at least one row; loops without rows need no slack in either mode.

## Main definitions

* `Span.Partitions` — spans that partition a span.
* `VariableLayout.Consistent` — a layout whose accessors agree with its blocks.
* `HolonomicWritten` — the rows of a family, entry by entry.

## Main statements

* `Span.partitions_pack`, `Span.partitions_range` — spans put one behind the other.
* `HolonomicFits.written` — rows that fit hold the Jacobian, minus the identity and zeros.
* `layout_consistent` — every layout, for all counts and modes.
-/

namespace WholeBody

/-! ### Spans one behind the other -/

namespace Span

/-- The indices of a span, in order. -/
def indices (s : Span) : List ℕ := .range' s.start s.size

/-- Spans that partition a span. -/
structure Partitions (parts : List Span) (whole : Span) : Prop where
  /-- Each part starts where the one before it stops. -/
  consecutive : parts.IsChain fun s t => s.stop = t.start
  disjoint : parts.Pairwise fun s t => s.indices.Disjoint t.indices
  /-- Read part by part, the indices are those of the whole, in order. -/
  covers : parts.flatMap indices = whole.indices

/-- Parts that cover a span in order are disjoint: a common index would be listed twice. -/
theorem Partitions.of_covers {parts : List Span} {whole : Span}
    (hchain : parts.IsChain fun s t => s.stop = t.start)
    (hcovers : parts.flatMap indices = whole.indices) : Partitions parts whole := by
  have hnodup : (parts.flatMap indices).Nodup := by
    rw [hcovers]
    exact List.nodup_range' 1
  exact ⟨hchain, (List.nodup_flatMap.1 hnodup).2, hcovers⟩

@[simp] theorem indices_ofSize (start len : ℕ) :
    (ofSize start len).indices = List.range' start len := by
  rw [indices, start_ofSize, size_ofSize]

/-- Spans of the given sizes, one behind the other. -/
def pack : ℕ → List ℕ → List Span
  | _, [] => []
  | start, len :: rest => ofSize start len :: pack (start + len) rest

theorem map_size_pack (start : ℕ) (sizes : List ℕ) : (pack start sizes).map size = sizes := by
  induction sizes generalizing start with
  | nil => rfl
  | cons len rest ih => rw [pack, List.map_cons, ih, size_ofSize]

theorem isChain_pack (start : ℕ) (sizes : List ℕ) :
    (pack start sizes).IsChain fun s t => s.stop = t.start := by
  induction sizes generalizing start with
  | nil => exact .nil
  | cons len rest ih =>
    cases rest with
    | nil => exact List.isChain_singleton _
    | cons next rest => exact List.isChain_cons_cons.2 ⟨rfl, ih (start + len)⟩

theorem flatMap_indices_pack (start : ℕ) (sizes : List ℕ) :
    (pack start sizes).flatMap indices = List.range' start sizes.sum := by
  induction sizes generalizing start with
  | nil => rfl
  | cons len rest ih =>
    rw [pack, List.flatMap_cons, ih, indices_ofSize, List.range'_append_1, List.sum_cons]

/-- Spans one behind the other partition the span of all their sizes. -/
theorem partitions_pack (start : ℕ) (sizes : List ℕ) :
    Partitions (pack start sizes) (ofSize start sizes.sum) :=
  .of_covers (isChain_pack start sizes) (by rw [flatMap_indices_pack, indices_ofSize])

theorem pack_replicate (start width count : ℕ) : pack start (.replicate count width) =
    (List.range count).map fun i => ofSize (start + width * i) width := by
  induction count generalizing start with
  | zero => rfl
  | succ count ih =>
    rw [List.replicate_succ, pack, ih, List.range_succ_eq_map, List.map_cons, List.map_map]
    refine congrArg₂ List.cons rfl (List.map_congr_left fun i _ => ?_)
    rw [Function.comp_apply, Nat.mul_succ, Nat.add_assoc, Nat.add_comm width]

/-- A span that is cut into pieces of one width. -/
theorem partitions_range (start width count : ℕ) :
    Partitions ((List.range count).map fun i => ofSize (start + width * i) width)
      (ofSize start (width * count)) := by
  have hpack := partitions_pack start (.replicate count width)
  rwa [pack_replicate, List.sum_replicate_nat, Nat.mul_comm] at hpack

end Span

/-! ### Rows of a family -/

variable {α : Type}

section Rows

variable [Scalar α] {J : Mat α} {accel : Span} {slack : Option Span} {n i j : ℕ}

/-- The rows of a family fit into `n` variables, and hold its Jacobian, minus the identity, and
zeros. -/
structure HolonomicWritten (J : Mat α) (accel : Span) (slack : Option Span) (n : ℕ) : Prop where
  /-- Jacobian and slack have the width of their columns, and these are inside the row. -/
  fits : HolonomicFits J accel slack n
  shape : (holonomicRows J accel slack n).rows = J.rows ∧ (holonomicRows J accel slack n).cols = n
  jacobian : ∀ i < J.rows, ∀ j < accel.size,
    (holonomicRows J accel slack n).entry i (accel.start + j) = J.entry i j
  identity : ∀ s ∈ slack, ∀ i < J.rows, ∀ j < s.size,
    (holonomicRows J accel slack n).entry i (s.start + j) = -(if i = j then 1 else 0)
  elsewhere : ∀ i < J.rows, ∀ j < n, j ∉ accel.indices → (∀ s ∈ slack, j ∉ s.indices) →
    (holonomicRows J accel slack n).entry i j = 0

theorem Mat.entry_setBlock_of_lt {m b : Mat α} {row col : ℕ} (hi : i < m.rows) (hj : j < m.cols) :
    (m.setBlock row col b).entry i j =
      if row ≤ i ∧ i < row + b.rows ∧ col ≤ j ∧ j < col + b.cols then
        b.entry (i - row) (j - col)
      else m.entry i j :=
  entry_ofFn_of_lt hi hj

theorem Mat.entry_neg_identity {r : ℕ} (hi : i < r) (hj : j < r) :
    (-Mat.identity r : Mat α).entry i j = -(if i = j then 1 else 0) := by
  have hid : (Mat.identity r : Mat α).entry i j = if i = j then 1 else 0 := entry_ofFn_of_lt hi hj
  rw [← hid]
  exact entry_ofFn_of_lt hi hj

/-- Without slack there is only the Jacobian. -/
theorem entry_holonomicRows_none (hi : i < J.rows) (hj : j < n) :
    (holonomicRows J accel none n).entry i j =
      if accel.start ≤ j ∧ j < accel.start + J.cols then J.entry i (j - accel.start) else 0 := by
  have hzero : (Mat.zeros J.rows n : Mat α).entry i j = 0 := Mat.entry_ofFn_of_lt hi hj
  refine (Mat.entry_setBlock_of_lt (m := Mat.zeros J.rows n) hi hj).trans ?_
  rw [hzero, Nat.sub_zero]
  refine if_congr ?_ rfl rfl
  omega

/-- Slack is written over what is there. -/
theorem entry_holonomicRows_some (s : Span) (hi : i < J.rows) (hj : j < n) :
    (holonomicRows J accel (some s) n).entry i j =
      if s.start ≤ j ∧ j < s.start + J.rows then -(if i = j - s.start then 1 else 0)
      else (holonomicRows J accel none n).entry i j := by
  have hrows : (-Mat.identity J.rows : Mat α).rows = J.rows := rfl
  have hcols : (-Mat.identity J.rows : Mat α).cols = J.rows := rfl
  refine (Mat.entry_setBlock_of_lt (m := holonomicRows J accel none n) hi hj).trans ?_
  rw [hrows, hcols, Nat.sub_zero]
  by_cases hs : s.start ≤ j ∧ j < s.start + J.rows
  · rw [if_pos hs, if_pos (by omega), Mat.entry_neg_identity hi (by omega)]
  · rw [if_neg hs, if_neg (by omega)]

/-- Rows that fit are written as intended, as long as the slack is behind the accelerations: the
identity then does not overwrite the Jacobian. -/
theorem HolonomicFits.written (h : HolonomicFits J accel slack n)
    (horder : ∀ s ∈ slack, accel.start + accel.size ≤ s.start) :
    HolonomicWritten J accel slack n := by
  have ⟨hcols, haccel, hslack⟩ := h
  refine ⟨h, TickData.shape_holonomicRows J accel slack n, ?_, ?_, ?_⟩
  · intro i hi j hj
    have hn : accel.start + j < n := by omega
    have hJ : (holonomicRows J accel none n).entry i (accel.start + j) = J.entry i j := by
      rw [entry_holonomicRows_none hi hn, if_pos (by omega), Nat.add_sub_cancel_left]
    cases slack with
    | none => exact hJ
    | some s =>
      have hbehind := horder s rfl
      rw [entry_holonomicRows_some s hi hn, if_neg (by omega), hJ]
  · intro s hs i hi j hj
    obtain ⟨hsize, hstop⟩ := hslack s hs
    cases hs
    rw [entry_holonomicRows_some s hi (by omega), if_pos (by omega), Nat.add_sub_cancel_left]
  · intro i hi j hj haway hfree
    simp only [Span.indices, List.mem_range'_1] at haway hfree
    have hzero : (holonomicRows J accel none n).entry i j = 0 := by
      rw [entry_holonomicRows_none hi hj, hcols, if_neg haway]
    cases slack with
    | none => exact hzero
    | some s =>
      have hs := hfree s rfl
      rw [(hslack s rfl).1] at hs
      rw [entry_holonomicRows_some s hi hj, if_neg hs, hzero]

end Rows

/-! ### Layouts -/

namespace VariableLayout

/-- The blocks in the order of the decision vector. -/
def blocks (l : VariableLayout) : List Span :=
  [l.accelerations, l.contactForces, l.loopForces, l.inputs, l.contactSlack, l.loopSlack]

/-- A layout for `nv` velocities, `k` contacts, `h` loop rows and `nu` actuators, whose accessors
agree with its blocks. -/
structure Consistent (l : VariableLayout) (nv k h nu : ℕ) (contactMode loopMode : ConstraintMode α) :
    Prop where
  blocks : Span.Partitions l.blocks ⟨0, l.numVariables⟩
  sizes : l.blocks.map Span.size =
    [nv, 3 * k, h, nu, contactMode.slackRows (3 * k), loopMode.slackRows h]
  numContacts : l.numContacts = k
  contact : Span.Partitions ((List.range k).map l.contact) l.contactForces
  size_contact : ∀ i < k, (l.contact i).size = 3
  /-- A contact has slack exactly when contacts are soft. -/
  isSome_contactSlackOf : ∀ i < k, (l.contactSlackOf i).isSome ↔ ∃ w, contactMode = .soft w
  contactSlackOf : Span.Partitions ((List.range k).filterMap l.contactSlackOf) l.contactSlack
  /-- Soft loops have slack as long as they have rows. -/
  isSome_loopSlack? : l.loopSlack?.isSome ↔ (∃ w, loopMode = .soft w) ∧ 0 < h
  loopSlack? : ∀ s ∈ l.loopSlack?, s = l.loopSlack ∧ s.size = h

section Make

variable {nv k h nu : ℕ} {contactMode loopMode : ConstraintMode α}

theorem blocks_make : (make nv k h nu contactMode loopMode).blocks =
    Span.pack 0 [nv, 3 * k, h, nu, contactMode.slackRows (3 * k), loopMode.slackRows h] :=
  rfl

theorem partitions_blocks_make :
    let l := make nv k h nu contactMode loopMode
    Span.Partitions l.blocks ⟨0, l.numVariables⟩ := by
  intro l
  have hpack := Span.partitions_pack 0
    [nv, 3 * k, h, nu, contactMode.slackRows (3 * k), loopMode.slackRows h]
  have hwhole : Span.ofSize 0 [nv, 3 * k, h, nu, contactMode.slackRows (3 * k),
      loopMode.slackRows h].sum = ⟨0, l.numVariables⟩ := by
    simp [Span.ofSize, l, numVariables_make, Nat.add_assoc]
  rwa [hwhole] at hpack

theorem partitions_contact_make :
    let l := make nv k h nu contactMode loopMode
    Span.Partitions ((List.range k).map l.contact) l.contactForces := by
  intro l
  have hforces : l.contactForces = .ofSize nv (3 * k) := contactForces_make
  have hcontact : l.contact = fun i => .ofSize (nv + 3 * i) 3 := by
    funext i
    rw [contact, hforces, Span.start_ofSize]
  rw [hforces, hcontact]
  exact Span.partitions_range nv 3 k

theorem partitions_contactSlackOf_make :
    let l := make nv k h nu contactMode loopMode
    Span.Partitions ((List.range k).filterMap l.contactSlackOf) l.contactSlack := by
  intro l
  have hslack : ∀ i ∈ List.range k, l.contactSlackOf i = _ := fun i hi =>
    contactSlackOf_make (List.mem_range.1 hi)
  rw [List.filterMap_congr hslack, contactSlack_make]
  cases contactMode with
  | hard =>
    -- No contact has slack, and the block of slack is empty.
    rw [List.filterMap_eq_nil_iff.2 fun _ _ => rfl]
    exact Span.partitions_pack _ []
  | soft w =>
    change Span.Partitions ((List.range k).filterMap
      (some ∘ fun i => .ofSize (nv + 3 * k + h + nu + 3 * i) 3)) _
    rw [List.filterMap_eq_map]
    exact Span.partitions_range _ 3 k

theorem consistent_make :
    (make nv k h nu contactMode loopMode).Consistent nv k h nu contactMode loopMode where
  blocks := partitions_blocks_make
  sizes := by rw [blocks_make, Span.map_size_pack]
  numContacts := by
    rw [numContacts, contactForces_make, Span.size_ofSize, Nat.mul_div_cancel_left k three_pos]
  contact := partitions_contact_make
  size_contact _ _ := Span.size_ofSize _ _
  isSome_contactSlackOf i hi := by
    rw [contactSlackOf_make hi]
    cases contactMode <;> simp
  contactSlackOf := partitions_contactSlackOf_make
  isSome_loopSlack? := by
    simp only [Option.isSome_iff_exists, ← Option.mem_def, mem_loopSlack?_make]
    exact exists_and_left.trans (and_iff_left ⟨_, rfl⟩)
  loopSlack? s hs := ⟨(mem_loopSlack?.1 hs).2, (of_mem_loopSlack?_make hs).1⟩

variable [Scalar α] {J : Mat α} {i : ℕ}

theorem written_contact_make (hrows : J.rows = 3) (hcols : J.cols = nv) (hi : i < k) :
    let l := make nv k h nu contactMode loopMode
    HolonomicWritten J l.accelerations (l.contactSlackOf i) l.numVariables := by
  refine (fits_contact_make hrows hcols hi).written fun s hs => ?_
  rw [accelerations_stop_make]
  exact (of_mem_contactSlackOf_make hi hs).2.1

theorem written_loops_make (hrows : J.rows = h) (hcols : J.cols = nv) :
    let l := make nv k h nu contactMode loopMode
    HolonomicWritten J l.accelerations l.loopSlack? l.numVariables := by
  refine (fits_loops_make hrows hcols).written fun s hs => ?_
  rw [accelerations_stop_make]
  exact (of_mem_loopSlack?_make hs).2.1

end Make

end VariableLayout

/-- Every layout is consistent, and the rows of every contact and of the loops are written into
columns of their width: a Jacobian over the velocities into the accelerations, and minus the
identity into the slack of the family if it has any. -/
theorem layout_consistent [Scalar α] (nv k h nu : ℕ) (contactMode loopMode : ConstraintMode α) :
    let l := VariableLayout.make nv k h nu contactMode loopMode
    l.Consistent nv k h nu contactMode loopMode ∧
      (∀ J : Mat α, J.rows = 3 → J.cols = nv → ∀ i < k,
        HolonomicWritten J l.accelerations (l.contactSlackOf i) l.numVariables) ∧
      ∀ J : Mat α, J.rows = h → J.cols = nv →
        HolonomicWritten J l.accelerations l.loopSlack? l.numVariables := by
  intro l
  refine ⟨VariableLayout.consistent_make, fun J hrows hcols i hi => ?_, fun J hrows hcols => ?_⟩
  · exact VariableLayout.written_contact_make hrows hcols hi
  · exact VariableLayout.written_loops_make hrows hcols

/-- Two soft contacts and a soft loop: the identity of the second contact is in columns 20 to 22. -/
theorem layout_consistent_stance :
    let l := VariableLayout.make 8 2 1 2 (.soft 200) (.soft 300 : ConstraintMode ℝ)
    Span.Partitions [⟨8, 11⟩, ⟨11, 14⟩] l.contactForces ∧
      Span.Partitions [⟨17, 20⟩, ⟨20, 23⟩] l.contactSlack ∧
      l.loopSlack?.isSome ∧
      (Mat.zeros 3 8 : Mat ℝ).rows = 3 ∧ (Mat.zeros 3 8 : Mat ℝ).cols = 8 ∧
      (holonomicRows (Mat.zeros 3 8 : Mat ℝ) l.accelerations (l.contactSlackOf 1)
        l.numVariables).entry 2 22 = -1 := by
  intro l
  obtain ⟨hl, hcontacts, -⟩ := layout_consistent 8 2 1 2 (.soft 200) (.soft 300 : ConstraintMode ℝ)
  have hwritten := hcontacts (Mat.zeros 3 8) rfl rfl 1 (by decide)
  have hentry := hwritten.identity ⟨20, 23⟩ rfl 2 (by decide) 2 (by decide)
  exact ⟨hl.contact, hl.contactSlackOf, hl.isSome_loopSlack?.2 ⟨⟨300, rfl⟩, by decide⟩, rfl, rfl,
    hentry⟩

end WholeBody
