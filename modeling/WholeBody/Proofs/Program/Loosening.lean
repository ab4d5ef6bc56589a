import Mathlib
import WholeBody.Proofs.Program.Cones
import WholeBody.Proofs.Program.Feasibility

/-!
# Loosening friction cones

A contact is loosened when its polygon is replaced by the exact cone around it. The answers of the
robot do not depend on the cones, so two builds that differ in the cones alone have the same
variables and the same cost. Every point that the polygons allow is still allowed.

## Main statements

* `TickData.exists_gather_of_sameButCone` — the answers of a robot for contacts with other cones.
* `TickData.Meets.loosen` — a decision that meets the polygons meets the cones around them.
* `loosen_cones` — the two programs of one tick.
-/

namespace WholeBody

variable {α : Type}

/-! ### Contacts with other cones -/

namespace ContactPoint

/-- The same contact, up to the cone it asks for. -/
structure SameButCone (c c' : ContactPoint α) : Prop where
  name : c'.name = c.name
  point : c'.point = c.point
  normal : c'.normal = c.normal
  friction : c'.friction = c.friction

variable {c c' : ContactPoint α}

theorem SameButCone.symm (h : c.SameButCone c') : c'.SameButCone c :=
  ⟨h.name.symm, h.point.symm, h.normal.symm, h.friction.symm⟩

theorem SameButCone.frame_eq [Scalar α] (h : c.SameButCone c') : c'.frame = c.frame := by
  rw [frame, frame, h.normal]

theorem SameButCone.frictionOr_eq (h : c.SameButCone c') (default : Friction α) :
    c'.frictionOr default = c.frictionOr default := by
  rw [frictionOr, frictionOr, h.friction]

variable [Scalar α]

/-- Between two defaults, the cone of a contact stays or turns from a polygon with at least three
facets into the exact cone. -/
structure Loosens (default default' : ConeModel) (c c' : ContactPoint α) : Prop where
  sameButCone : c.SameButCone c'
  cone : c'.coneOr default' = c.coneOr default ∨
    c'.coneOr default' = .conic ∧ ∃ facets, 3 ≤ facets ∧ c.coneOr default = .linear facets

/-- A looser contact accepts every load that the tighter one does. -/
theorem Loosens.accepts {default default' : ConeModel} {c c' : ContactPoint ℝ}
    (h : c.Loosens default default' c') {load : Vec3 ℝ} (hload : (c.coneOr default).Accepts load) :
    (c'.coneOr default').Accepts load := by
  obtain hsame | ⟨hconic, facets, hfacets, hlinear⟩ := h.cone
  · rwa [hsame]
  · rw [hlinear] at hload
    rw [hconic]
    exact InPolygon.inExactCone hfacets hload

end ContactPoint

/-- The settings with another form for the cones of contacts that ask for none. -/
def Settings.withDefaultCone (s : Settings α) (cone : ConeModel) : Settings α :=
  { s with defaultCone := cone }

/-- The assembler with another form for the cones of contacts that ask for none. -/
def Assembler.withDefaultCone (a : Assembler α) (cone : ConeModel) : Assembler α :=
  { a with settings := a.settings.withDefaultCone cone }

/-! ### The answers of the robot -/

section Related

variable {τ σ : Type} {S : τ → τ → Prop} {es es' : List τ}

/-- Related lists are related number by number. -/
theorem forall₂_zipIdx (h : List.Forall₂ S es es') (first : ℕ) :
    List.Forall₂ (fun e e' => S e.1 e'.1 ∧ e'.2 = e.2) (es.zipIdx first) (es'.zipIdx first) := by
  induction h generalizing first with
  | nil => exact .nil
  | cons he _ ih => exact .cons ⟨he, rfl⟩ (ih (first + 1))

/-- A function that does not tell related elements apart. -/
theorem map_zipIdx_of_forall₂ {f : τ × ℕ → σ} (h : List.Forall₂ S es es')
    (hf : ∀ e e' i, S e e' → f (e', i) = f (e, i)) (first : ℕ) :
    (es'.zipIdx first).map f = (es.zipIdx first).map f := by
  induction h generalizing first with
  | nil => rfl
  | cons he _ ih => rw [List.zipIdx_cons, List.map_cons, hf _ _ _ he, ih (first + 1)]; rfl

end Related

namespace TickData

variable {model : RobotModel α} {state : RobotState α} {contacts contacts' : List (ContactPoint α)}

/-- The answers for other contacts: those that are not about a contact stay. -/
theorem exists_gather_of_forall₂ {R : ContactPoint α → ContactPoint α → Prop}
    {S : ContactPoint α × PointKinematics α → ContactPoint α × PointKinematics α → Prop}
    (h : List.Forall₂ R contacts contacts')
    (hstep : ∀ c c' e, R c c' → contactKinematics model state c = .ok e →
      ∃ e', contactKinematics model state c' = .ok e' ∧ S e e')
    {d : TickData α} (hd : gather model state contacts = .ok d) :
    ∃ es, gather model state contacts' = .ok { d with contacts := es } ∧
      List.Forall₂ S d.contacts es := by
  obtain ⟨_, hstate, hd⟩ := Except.of_bind_eq_ok hd
  obtain ⟨M, hM, hd⟩ := Except.of_bind_eq_ok hd
  obtain ⟨_, hMshape, hd⟩ := Except.of_bind_eq_ok hd
  obtain ⟨c, hc, hd⟩ := Except.of_bind_eq_ok hd
  obtain ⟨_, hcshape, hd⟩ := Except.of_bind_eq_ok hd
  obtain ⟨_, hBshape, hd⟩ := Except.of_bind_eq_ok hd
  obtain ⟨kinematics, hkin, hd⟩ := Except.of_bind_eq_ok hd
  obtain ⟨loops, hloops, hd⟩ := Except.of_bind_eq_ok hd
  obtain ⟨_, hloopshape, hd⟩ := Except.of_bind_eq_ok hd
  cases hd
  obtain ⟨es, hes, hall⟩ := Except.exists_mapM_of_forall₂ h hkin hstep
  refine ⟨es, ?_, hall⟩
  rw [gather, Except.bind_of_eq_ok hstate, Except.bind_of_eq_ok hM, Except.bind_of_eq_ok hMshape,
    Except.bind_of_eq_ok hc, Except.bind_of_eq_ok hcshape, Except.bind_of_eq_ok hBshape,
    Except.bind_of_eq_ok hes, Except.bind_of_eq_ok hloops, Except.bind_of_eq_ok hloopshape]
  rfl

/-- The answers for contacts with other cones. -/
theorem exists_gather_of_sameButCone {R : ContactPoint α → ContactPoint α → Prop}
    (hR : ∀ c c', R c c' → c.SameButCone c') (h : List.Forall₂ R contacts contacts')
    {d : TickData α} (hd : gather model state contacts = .ok d) :
    ∃ es, gather model state contacts' = .ok { d with contacts := es } ∧
      List.Forall₂ (fun e e' => R e.1 e'.1 ∧ e'.2 = e.2) d.contacts es := by
  refine exists_gather_of_forall₂ h (fun c c' e hc he => ?_) hd
  obtain ⟨⟨rfl, hpoint⟩, hcols⟩ := of_contactKinematics_eq_ok he
  rw [← (hR _ _ hc).point] at hpoint
  exact ⟨(c', e.2), contactKinematics_eq_ok hpoint hcols, hc, rfl⟩

/-! ### Decisions -/

variable {d : TickData ℝ} {es : List (ContactPoint ℝ × PointKinematics ℝ)}

/-- The forces push along the kinematics of their contacts, whatever the cones are. -/
theorem contactTorque_withContacts
    (h : List.Forall₂ (fun e e' => e'.2 = e.2) d.contacts es) (z : Decision) (k : ℕ) :
    ({ d with contacts := es } : TickData ℝ).contactTorque z k = d.contactTorque z k := by
  refine congrArg List.sum (map_zipIdx_of_forall₂ h (fun e e' i he => ?_) 0)
  rw [he]

/-- A decision that meets the polygons meets the cones around them. -/
theorem Meets.loosen {s : Settings ℝ} {z : Decision} (h : d.Meets s z) {cone : ConeModel}
    (hall : List.Forall₂ (fun e e' => e.1.Loosens s.defaultCone cone e'.1 ∧ e'.2 = e.2)
      d.contacts es) :
    ({ d with contacts := es } : TickData ℝ).Meets (s.withDefaultCone cone) z := by
  have hnumbered (e') (he' : e' ∈ es.zipIdx) : ∃ e ∈ d.numbered,
      (e.1.1.Loosens s.defaultCone cone e'.1.1 ∧ e'.1.2 = e.1.2) ∧ e'.2 = e.2 :=
    exists_of_mem_forall₂ (forall₂_zipIdx hall 0) he'
  exact
    { dynamics := fun k hk => by
        rw [contactTorque_withContacts (hall.imp fun _ _ he => he.2)]
        exact h.dynamics k hk
      noSlip := fun e' he' k hk => by
        obtain ⟨e, he, ⟨-, hkin⟩, hnumber⟩ := hnumbered e' he'
        rw [hkin, hnumber]
        exact h.noSlip e he k hk
      closedLoops := h.closedLoops
      leastNormal := fun e' he' => by
        obtain ⟨e, he, ⟨hloosens, -⟩, hnumber⟩ := hnumbered e' he'
        rw [hloosens.sameButCone.frame_eq, hnumber]
        exact h.leastNormal e he
      friction := fun e' he' => by
        obtain ⟨e, he, ⟨hloosens, -⟩, hnumber⟩ := hnumbered e' he'
        have hload := hloosens.accepts (h.friction e he)
        rw [← hloosens.sameButCone.frame_eq, ← hloosens.sameButCone.frictionOr_eq,
          ← hnumber] at hload
        exact hload
      effort := h.effort }

end TickData

/-! ### The two programs -/

namespace TickData

variable [Scalar α] {d : TickData α} {es : List (ContactPoint α × PointKinematics α)}
  (hlength : es.length = d.contacts.length) (cone : ConeModel)

include hlength

omit [Scalar α] in
/-- The variables do not depend on the cones. -/
theorem layout_withContacts (s : Settings α) :
    ({ d with contacts := es } : TickData α).layout (s.withDefaultCone cone) = d.layout s := by
  simp only [layout, hlength, numVelocities, numLoopRows, numActuators, Settings.withDefaultCone]

/-- The cost does not depend on the cones. -/
theorem hessian_withContacts (a : Assembler α) (terms : List (TaskTerm α)) :
    ({ d with contacts := es } : TickData α).hessian (a.withDefaultCone cone) terms =
      d.hessian a terms := by
  have hlayout := layout_withContacts hlength cone a.settings
  simp only [hessian, Assembler.withDefaultCone, hlayout]
  rfl

theorem gradient_withContacts (s : Settings α) (terms : List (TaskTerm α)) :
    ({ d with contacts := es } : TickData α).gradient (s.withDefaultCone cone) terms =
      d.gradient s terms := by
  simp only [gradient, layout_withContacts hlength]

end TickData

/-- The build for contacts with other cones. -/
theorem Assembler.exists_build_of_sameButCone [Scalar α] {a : Assembler α} {model : RobotModel α}
    {state : RobotState α} {terms : List (TaskTerm α)} {contacts contacts' : List (ContactPoint α)}
    {p : ConeProgram α} (hp : a.build model state terms contacts = .ok p)
    {R : ContactPoint α → ContactPoint α → Prop} (hR : ∀ c c', R c c' → c.SameButCone c')
    (h : List.Forall₂ R contacts contacts') (cone : ConeModel) :
    ∃ d es, TickData.gather model state contacts = .ok d ∧
      TickData.gather model state contacts' = .ok { d with contacts := es } ∧
      List.Forall₂ (fun e e' => R e.1 e'.1 ∧ e'.2 = e.2) d.contacts es ∧
      p = d.program a terms ∧
      (a.withDefaultCone cone).build model state terms contacts' =
        .ok (({ d with contacts := es } : TickData α).program (a.withDefaultCone cone) terms) := by
  obtain ⟨d, hd, hcost, heffort, rfl⟩ := build_eq_ok_iff.1 hp
  obtain ⟨es, hes, hall⟩ := TickData.exists_gather_of_sameButCone hR h hd
  rw [← TickData.layout_withContacts hall.length_eq.symm cone a.settings] at hcost
  exact ⟨d, es, hd, hes, hall, rfl, build_eq_ok_iff.2 ⟨_, hes, hcost, heffort, rfl⟩⟩

/-- Two builds of one tick, of which the second has the exact cone for some contacts that the first
has polygons with at least three facets for. Both succeed or none. They have the same variables and
the same cost, every feasible point of the first is one of the second, and the rows of the changed
contacts leave the inequalities for second-order cones behind all other rows. -/
theorem loosen_cones {a : Assembler ℝ} {model : RobotModel ℝ} {state : RobotState ℝ}
    {terms : List (TaskTerm ℝ)} {contacts contacts' : List (ContactPoint ℝ)} {cone : ConeModel}
    (h : List.Forall₂ (ContactPoint.Loosens a.settings.defaultCone cone) contacts contacts') :
    let a' := a.withDefaultCone cone
    ((∃ p, a.build model state terms contacts = .ok p) ↔
      ∃ p', a'.build model state terms contacts' = .ok p') ∧
    ∀ p p', a.build model state terms contacts = .ok p →
      a'.build model state terms contacts' = .ok p' →
      p'.P = p.P ∧ p'.q = p.q ∧ p'.layout = p.layout ∧ (∀ x, p.Feasible x → p'.Feasible x) ∧
        ∃ numLoopRows numEffortRows,
          p.cones = tickCones a.settings contacts model.numVelocities numLoopRows numEffortRows ∧
          p'.cones = tickCones a'.settings contacts' model.numVelocities numLoopRows
            numEffortRows := by
  intro a'
  have hback : List.Forall₂ (fun c' c => c'.SameButCone c) contacts' contacts :=
    (h.imp fun _ _ hc => hc.sameButCone.symm).flip
  refine ⟨⟨?_, ?_⟩, ?_⟩
  · rintro ⟨p, hp⟩
    obtain ⟨d, es, -, -, -, -, hbuild⟩ := Assembler.exists_build_of_sameButCone hp
      (fun _ _ hc => hc.sameButCone) h cone
    exact ⟨_, hbuild⟩
  · rintro ⟨p', hp'⟩
    obtain ⟨d, es, -, -, -, -, hbuild⟩ := Assembler.exists_build_of_sameButCone hp'
      (fun _ _ hc => hc) hback a.settings.defaultCone
    exact ⟨_, hbuild⟩
  · intro p p' hp hp'
    obtain ⟨d, es, hd, hes, hall, rfl, hbuild⟩ := Assembler.exists_build_of_sameButCone hp
      (fun _ _ hc => hc.sameButCone) h cone
    obtain rfl := Except.ok.inj (hp'.symm.trans hbuild)
    obtain ⟨hanswers, hshaped⟩ := TickData.of_gather_eq_ok hd
    obtain ⟨hanswers', hshaped'⟩ := TickData.of_gather_eq_ok hes
    have hlength := hall.length_eq.symm
    have hlayout := TickData.layout_withContacts hlength cone a.settings
    refine ⟨TickData.hessian_withContacts hlength cone a terms,
      TickData.gradient_withContacts hlength cone a.settings terms, hlayout, ?_,
      d.numLoopRows, if d.effortLimits.isSome then 2 * model.numActuators else 0, ?_, ?_⟩
    · intro x hx
      rw [TickData.feasible_program_iff hshaped] at hx
      have hz := hx.loosen hall
      dsimp only [TickData.program] at hz
      rw [← hlayout] at hz
      exact (TickData.feasible_program_iff hshaped' _ _).2 hz
    · rw [TickData.cones_program hshaped, hanswers.map_fst_contacts]
    · rw [TickData.cones_program hshaped', hanswers'.map_fst_contacts]
      rfl

/-- A point mass on two feet, of which one takes the cone from the settings and the other keeps its
square. -/
theorem loosen_cones_pointMass :
    let r : PointMass ℝ := ⟨"mass", 1, 10⟩
    let a : Assembler ℝ := ⟨.standard, []⟩
    let state : RobotState ℝ := ⟨.zeros 3, .zeros 3⟩
    let left : ContactPoint ℝ := ⟨"left", ⟨"mass", 0⟩, .unitZ, none, none⟩
    let right : ContactPoint ℝ := ⟨"right", ⟨"mass", 0⟩, .unitZ, none, some (.linear 4)⟩
    (a.settings.defaultCone = .linear 8 ∧
      List.Forall₂ (ContactPoint.Loosens (.linear 8) .conic) [left, right] [left, right]) ∧
    ∃ p p', a.build r.model state [] [left, right] = .ok p ∧
      (a.withDefaultCone .conic).build r.model state [] [left, right] = .ok p' ∧
      p'.P = p.P ∧ p'.q = p.q ∧ p'.layout = p.layout ∧ ∀ x, p.Feasible x → p'.Feasible x := by
  intro r a state left right
  have hleft : left.Loosens (.linear 8) .conic left :=
    ⟨⟨rfl, rfl, rfl, rfl⟩, .inr ⟨rfl, 8, by decide, rfl⟩⟩
  have hright : right.Loosens (.linear 8) .conic right := ⟨⟨rfl, rfl, rfl, rfl⟩, .inl rfl⟩
  have hfeet : List.Forall₂ (ContactPoint.Loosens (.linear 8) .conic) [left, right] [left, right] :=
    .cons hleft (.cons hright .nil)
  have hbodies : ∀ c ∈ [left, right], c.point.body = r.body := by simp [left, right, r]
  have hbuild (a : Assembler ℝ) (ha : a.jointCosts = []) :
      a.build r.model state [] [left, right] =
        .ok ((r.tickData state [left, right]).program a []) :=
    PointMass.build_eq_ok ⟨rfl, rfl⟩ hbodies nofun (ha ▸ nofun)
  obtain ⟨hP, hq, hlayout, hfeasible, -⟩ := (@loosen_cones a r.model state [] _ _ _ hfeet).2 _ _
    (hbuild a rfl) (hbuild (a.withDefaultCone .conic) rfl)
  exact ⟨⟨rfl, hfeet⟩, _, _, hbuild a rfl, hbuild (a.withDefaultCone .conic) rfl, hP, hq, hlayout,
    hfeasible⟩

end WholeBody
