import Mathlib
import WholeBody.Proofs.Config.Contacts
import WholeBody.Proofs.Tracking.Evaluation

/-!
# Objectives of a description

A description keys the targets and the scales of an objective by texts, the objective by phases. A
phase has many texts, `0`, `00`, `+0` and `left_stance` among them, and the texts of one phase do
not exclude each other. They are read by ascending text, so the greatest text of a phase decides.

## Main statements

* `ObjectiveSpec.resolve_of_toObjective_eq_ok` — the targets of an objective.
* `ObjectiveSpec.effectiveWeight_of_toObjective_eq_ok` — its weights.
* `greatest_key_decides` — which entries of a description count.
* `not_every_entry_counts` — an entry that is dropped.
-/

namespace WholeBody

variable {α : Type}

/-! ### Entries by text and by phase -/

/-- In lists that are related item by item, the first items with corresponding properties are
related, and so are values that the relation ties together. -/
theorem map_find?_of_forall₂ {β γ δ : Type} {R : β → γ → Prop} {P : β → Prop} {Q : γ → Prop}
    [DecidablePred P] [DecidablePred Q] {f : β → Option δ} {g : γ → δ} {bs : List β} {cs : List γ}
    (h : List.Forall₂ R bs cs) (hPQ : ∀ b c, R b c → (P b ↔ Q c))
    (hfg : ∀ b c, R b c → f b = some (g c)) :
    (cs.find? (Q ·)).map g = (bs.find? (P ·)).bind f := by
  induction h with
  | nil => rfl
  | @cons b c bs cs hbc _ ih =>
    have hiff := hPQ b c hbc
    by_cases hb : P b
    · rw [List.find?_cons_of_pos (by simpa using hiff.1 hb),
        List.find?_cons_of_pos (by simpa using hb)]
      exact (hfg b c hbc).symm
    · rw [List.find?_cons_of_neg (by simpa using fun hc => hb (hiff.2 hc)),
        List.find?_cons_of_neg (by simpa using hb)]
      exact ih

/-- The target of a description for a kind of objective, if it has the field that the kind asks
for. -/
def TargetSpec.target? [Scalar α] : KindSpec → TargetSpec α → Option (Target α)
  | .centerOfMass, _ => some .centerOfMass
  | .translationalPoint, t => t.body.map fun body => .point ⟨body, t.offset.getD 0⟩
  | .rotationalFrame, t => t.body.map .frame
  | .jointSpace, t => t.joint.map .joint

namespace ObjectiveSpec

variable {o : ObjectiveSpec α} {p : PhaseId}

theorem resolve_of_binding_eq_ok {τ : Type} {read : TargetSpec α → Except (ConfigError α) τ}
    {b : PhaseBinding τ} (h : o.binding read = .ok b) (hphases : o.phases.isEmpty = false) :
    (∀ e ∈ o.phases.entries,
      (∃ p, PhaseId.ofText? e.1 = some p) ∧ ∃ target, read e.2 = .ok target) ∧
    ∀ p, b.resolve p =
      (o.phases.greatest? (PhaseId.ofText? · = some p)).bind fun e => (read e.2).toOption := by
  cases htarget : o.target with
  | some target =>
    rw [binding, htarget, hphases] at h
    cases h
  | none =>
    rw [binding, htarget, hphases] at h
    obtain ⟨targets, htargets, h⟩ := Except.of_bind_eq_ok h
    cases h
    have hentries : List.Forall₂ (fun e c => PhaseId.ofText? e.1 = some c.1 ∧ read e.2 = .ok c.2)
        o.phases.entries targets := by
      refine (Except.of_mapM_eq_ok htargets).imp fun e c hc => ?_
      obtain ⟨p, hp, hc⟩ := Except.of_bind_eq_ok hc
      obtain ⟨target, htarget, hc⟩ := Except.of_bind_eq_ok hc
      cases hc
      exact ⟨readPhase_eq_ok_iff.1 hp, htarget⟩
    refine ⟨fun e he => ?_, fun p => ?_⟩
    · obtain ⟨c, -, hp, htarget⟩ := exists_of_mem_forall₂ hentries.flip he
      exact ⟨⟨_, hp⟩, _, htarget⟩
    · rw [PhaseBinding.resolve, SortedMap.get?_ofList, SortedMap.greatest?]
      refine map_find?_of_forall₂ (List.forall₂_reverse_iff.2 hentries) (fun e c hec => ?_)
        fun e c hec => ?_
      · rw [hec.1, Option.some_inj]
      · rw [hec.2, Except.toOption]

variable [Scalar α] {kind : ObjectiveKind α}

theorem resolve_of_bound {τ : Type} {read : TargetSpec α → Except (ConfigError α) τ}
    {bound : PhaseBinding τ → ObjectiveKind α} {make : τ → Target α}
    (h : (o.binding read >>= fun b => pure (bound b)) = .ok kind)
    (hphases : o.phases.isEmpty = false)
    (hbound : ∀ b p, (bound b).resolve p = (b.resolve p).map make)
    (hread : ∀ t, (read t).toOption.map make = t.target? o.kind) :
    (∀ e ∈ o.phases.entries, (∃ p, PhaseId.ofText? e.1 = some p) ∧
      ∃ target, e.2.target? o.kind = some target) ∧
    ∀ p, kind.resolve p =
      (o.phases.greatest? (PhaseId.ofText? · = some p)).bind (·.2.target? o.kind) := by
  obtain ⟨b, hb, h⟩ := Except.of_bind_eq_ok h
  cases h
  obtain ⟨hentries, hresolve⟩ := resolve_of_binding_eq_ok hb hphases
  refine ⟨fun e he => ?_, fun p => ?_⟩
  · obtain ⟨hkey, target, htarget⟩ := hentries e he
    exact ⟨hkey, make target, by rw [← hread, htarget]; rfl⟩
  · rw [hbound, hresolve, Option.map_bind]
    exact congrArg _ (funext fun e => hread e.2)

/-- The targets of an objective whose description has some. -/
theorem resolve_of_objectiveKind_eq_ok (h : o.objectiveKind = .ok kind)
    (hphases : o.phases.isEmpty = false) :
    (∀ e ∈ o.phases.entries, (∃ p, PhaseId.ofText? e.1 = some p) ∧
      ∃ target, e.2.target? o.kind = some target) ∧
    ∀ p, kind.resolve p =
      (o.phases.greatest? (PhaseId.ofText? · = some p)).bind (·.2.target? o.kind) := by
  cases hkind : o.kind with
  | centerOfMass =>
    rw [objectiveKind, hkind, if_neg (by simp [hphases])] at h
    rw [← hkind]
    exact resolve_of_bound h hphases (fun _ _ => rfl) fun t => by rw [hkind]; rfl
  | translationalPoint =>
    rw [objectiveKind, hkind] at h
    rw [← hkind]
    refine resolve_of_bound h hphases (fun _ _ => rfl) fun t => ?_
    cases hbody : t.body <;>
      simp [hkind, TargetSpec.bodyPoint, TargetSpec.target?, hbody, Except.toOption]
  | rotationalFrame =>
    rw [objectiveKind, hkind] at h
    rw [← hkind]
    refine resolve_of_bound h hphases (fun _ _ => rfl) fun t => ?_
    cases hbody : t.body <;>
      simp [hkind, TargetSpec.frame, TargetSpec.target?, hbody, Except.toOption]
  | jointSpace =>
    rw [objectiveKind, hkind] at h
    rw [← hkind]
    refine resolve_of_bound h hphases (fun _ _ => rfl) fun t => ?_
    cases hjoint : t.joint <;>
      simp [hkind, TargetSpec.jointName, TargetSpec.target?, hjoint, Except.toOption]

variable {t t' : TrackingObjective α}

/-- The last scale of a phase stays, and nothing but the scales changes. -/
theorem of_foldlM_withPhaseScale {es : List (String × α)}
    (h : es.foldlM (fun t e => do t.withPhaseScale (← readPhase e.1) e.2) t = .ok t') :
    (∀ e ∈ es, ∃ p, PhaseId.ofText? e.1 = some p) ∧
    t' = { t with phaseScales := t'.phaseScales } ∧
    ∀ p, t'.phaseScales.get? p =
      ((es.reverse.find? (PhaseId.ofText? ·.1 = some p)).map (·.2)).or (t.phaseScales.get? p) := by
  induction es generalizing t with
  | nil =>
    cases h
    exact ⟨List.forall_mem_nil _, rfl, fun p => rfl⟩
  | cons e es ih =>
    rw [List.foldlM_cons] at h
    obtain ⟨t₁, hscale, h⟩ := Except.of_bind_eq_ok h
    obtain ⟨q, hq, hscale⟩ := Except.of_bind_eq_ok hscale
    obtain ⟨-, rfl⟩ := TrackingObjective.withPhaseScale_eq_ok_iff.1 hscale
    obtain ⟨hes, hsame, hget⟩ := ih h
    rw [readPhase_eq_ok_iff] at hq
    refine ⟨List.forall_mem_cons.2 ⟨⟨q, hq⟩, hes⟩, hsame, fun p => ?_⟩
    rw [hget, SortedMap.get?_insert, List.reverse_cons, List.find?_append]
    by_cases hqp : q = p
    · simp [hq, hqp]
    · simp [hq, hqp]

/-- The links of the chain that makes an objective. -/
theorem of_toObjective_eq_ok [Spectrum α] (h : o.toObjective = .ok t) :
    ∃ kind kp kd weight t₁ t₂, o.objectiveKind = .ok kind ∧
      o.matrix .kp o.kp kind.dim = .ok kp ∧ o.matrix .kd o.kd kind.dim = .ok kd ∧
      o.matrix .weight o.weight kind.dim = .ok weight ∧
      TrackingObjective.create o.name kind ⟨kp, kd⟩ weight =
        .ok ⟨o.name, kind, ⟨kp, kd⟩, weight, .empty, none, .trajectory⟩ ∧
      o.applyWindow ⟨o.name, kind, ⟨kp, kd⟩, weight, .empty, none, .trajectory⟩ = .ok t₁ ∧
      o.applyScales t₁ = .ok t₂ ∧ o.applyConstant kind.dim t₂ = .ok t := by
  obtain ⟨kind, hkind, h⟩ := Except.of_bind_eq_ok h
  obtain ⟨kp, hkp, h⟩ := Except.of_bind_eq_ok h
  obtain ⟨kd, hkd, h⟩ := Except.of_bind_eq_ok h
  obtain ⟨weight, hweight, h⟩ := Except.of_bind_eq_ok h
  obtain ⟨t₀, hcreate, h⟩ := Except.of_bind_eq_ok h
  obtain ⟨t₁, hwindow, h⟩ := Except.of_bind_eq_ok h
  obtain ⟨t₂, hscales, hconstant⟩ := Except.of_bind_eq_ok h
  obtain rfl := TrackingObjective.eq_of_create_eq_ok hcreate
  exact ⟨kind, kp, kd, weight, t₁, t₂, Attempt.of_ofExcept_eq_ok hkind,
    Attempt.of_ofExcept_eq_ok hkp, Attempt.of_ofExcept_eq_ok hkd,
    Attempt.of_ofExcept_eq_ok hweight, hcreate, Attempt.of_ofExcept_eq_ok hwindow,
    Attempt.of_ofExcept_eq_ok hscales, Attempt.of_ofExcept_eq_ok hconstant⟩

theorem applyWindow_eq_ok_iff : o.applyWindow t = .ok t' ↔
    (∀ w ∈ o.window, Scalar.isFinite w.1 = true ∧ Scalar.isFinite w.2 = true ∧ ¬ w.2 < w.1) ∧
      t' = { t with window := (o.window.map fun w => ⟨w.1, w.2⟩).or t.window } := by
  rw [applyWindow]
  cases o.window with
  | some w => simp [TrackingObjective.withWindow_eq_ok_iff]
  | none =>
    rw [Except.ok.injEq, eq_comm]
    exact (and_iff_right nofun).symm

/-- The sample of a constant target. -/
def constantSample (c : ConstantSpec α) (dim : ℕ) : TrajectorySample α :=
  let derivative (d : Option (List α)) := (d.map Vec.ofList).getD (.zeros dim)
  ⟨.ofList c.value, derivative c.dot, derivative c.ddot⟩

theorem applyConstant_eq_ok_iff {dim : ℕ} : o.applyConstant dim t = .ok t' ↔
    (∀ c ∈ o.constant, t.checkSample (constantSample c dim) = .ok ()) ∧
      t' = { t with source :=
        (o.constant.map fun c => .constant (constantSample c dim)).getD t.source } := by
  rw [applyConstant]
  cases o.constant with
  | some c => simp [TrackingObjective.withConstantTarget_eq_ok_iff, constantSample]
  | none =>
    rw [Except.ok.injEq, eq_comm]
    exact (and_iff_right nofun).symm

variable [Spectrum α]

/-- The targets of the entries with the greatest texts. -/
theorem resolve_of_toObjective_eq_ok (h : o.toObjective = .ok t)
    (hphases : o.phases.isEmpty = false) :
    (∀ e ∈ o.phases.entries, (∃ p, PhaseId.ofText? e.1 = some p) ∧
      ∃ target, e.2.target? o.kind = some target) ∧
    ∀ p, t.kind.resolve p =
      (o.phases.greatest? (PhaseId.ofText? · = some p)).bind (·.2.target? o.kind) := by
  obtain ⟨kind, kp, kd, weight, t₁, t₂, hkind, -, -, -, -, ht₁, ht₂, ht⟩ :=
    of_toObjective_eq_ok h
  have hsame : t.kind = kind := by
    rw [(applyConstant_eq_ok_iff.1 ht).2, (of_foldlM_withPhaseScale ht₂).2.1,
      (applyWindow_eq_ok_iff.1 ht₁).2]
  rw [hsame]
  exact resolve_of_objectiveKind_eq_ok hkind hphases

/-- The scales of the entries with the greatest texts. -/
theorem effectiveWeight_of_toObjective_eq_ok (h : o.toObjective = .ok t) :
    o.matrix .weight o.weight t.kind.dim = .ok t.weight ∧
    (∀ e ∈ o.phaseScales.entries, ∃ p, PhaseId.ofText? e.1 = some p) ∧
    ∀ p, t.effectiveWeight p =
      ((o.phaseScales.greatest? (PhaseId.ofText? · = some p)).map fun e => e.2 • t.weight).getD
        t.weight := by
  obtain ⟨kind, kp, kd, weight, t₁, t₂, -, -, -, hweight, -, ht₁, ht₂, ht⟩ :=
    of_toObjective_eq_ok h
  have hwindow := (applyWindow_eq_ok_iff.1 ht₁).2
  have hconstant := (applyConstant_eq_ok_iff.1 ht).2
  obtain ⟨hkeys, hscales, hget⟩ := of_foldlM_withPhaseScale ht₂
  have hempty : t₁.phaseScales = .empty := by rw [hwindow]
  have hphaseScales : t.phaseScales = t₂.phaseScales := by rw [hconstant]
  have hkind : t.kind = kind := by rw [hconstant, hscales, hwindow]
  obtain rfl : t.weight = weight := by rw [hconstant, hscales, hwindow]
  rw [← hkind] at hweight
  refine ⟨hweight, hkeys, fun p => ?_⟩
  rw [TrackingObjective.effectiveWeight, hphaseScales, hget, hempty, SortedMap.get?_empty,
    Option.or_none, SortedMap.greatest?]
  cases o.phaseScales.entries.reverse.find? (PhaseId.ofText? ·.1 = some p) with
  | none => rfl
  | some e => rfl

end ObjectiveSpec

variable [Scalar α] [Spectrum α] {o : ObjectiveSpec α} {t : TrackingObjective α}

/-- Of the entries of a description for one phase, the one with the greatest text gives the target
and the scale. A phase without an entry has no target, and the weight as it is. -/
theorem greatest_key_decides (h : o.toObjective = .ok t) :
    (∀ e ∈ o.phases.entries, ∃ p, PhaseId.ofText? e.1 = some p ∧
      ((∀ e' ∈ o.phases.entries, PhaseId.ofText? e'.1 = some p → ¬ e.1 < e'.1) →
        ∃ target, e.2.target? o.kind = some target ∧ t.kind.resolve p = some target)) ∧
    (o.phases.isEmpty = false → ∀ p, (∀ e ∈ o.phases.entries, PhaseId.ofText? e.1 ≠ some p) →
      t.kind.resolve p = none) ∧
    o.matrix .weight o.weight t.kind.dim = .ok t.weight ∧
    (∀ e ∈ o.phaseScales.entries, ∃ p, PhaseId.ofText? e.1 = some p ∧
      ((∀ e' ∈ o.phaseScales.entries, PhaseId.ofText? e'.1 = some p → ¬ e.1 < e'.1) →
        t.effectiveWeight p = e.2 • t.weight)) ∧
    ∀ p, (∀ e ∈ o.phaseScales.entries, PhaseId.ofText? e.1 ≠ some p) →
      t.effectiveWeight p = t.weight := by
  obtain ⟨hweight, hscaleKeys, hscales⟩ := ObjectiveSpec.effectiveWeight_of_toObjective_eq_ok h
  refine ⟨fun e he => ?_, fun hphases p hnone => ?_, hweight, fun e he => ?_, fun p hnone => ?_⟩
  · have hphases : o.phases.isEmpty = false :=
      List.isEmpty_eq_false_iff.2 (List.ne_nil_of_mem he)
    obtain ⟨hentries, hresolve⟩ := ObjectiveSpec.resolve_of_toObjective_eq_ok h hphases
    obtain ⟨⟨p, hp⟩, target, htarget⟩ := hentries e he
    refine ⟨p, hp, fun hgreatest => ⟨target, htarget, ?_⟩⟩
    rw [hresolve, SortedMap.greatest?_eq_some_iff.2 ⟨he, hp, hgreatest⟩, Option.bind_some, htarget]
  · rw [(ObjectiveSpec.resolve_of_toObjective_eq_ok h hphases).2,
      SortedMap.greatest?_eq_none_iff.2 hnone, Option.bind_none]
  · obtain ⟨p, hp⟩ := hscaleKeys e he
    refine ⟨p, hp, fun hgreatest => ?_⟩
    rw [hscales, SortedMap.greatest?_eq_some_iff.2 ⟨he, hp, hgreatest⟩]
    rfl
  · rw [hscales, SortedMap.greatest?_eq_none_iff.2 hnone]
    rfl

/-- A joint objective with two texts for the left stance among its targets and two for the right
stance among its scales. -/
def ambiguousLeg : ObjectiveSpec Float where
  name := "leg"
  kind := .jointSpace
  kp := .scalar 1
  kd := .scalar 1
  weight := .scalar 1
  target := none
  phases := .ofList [("0", ⟨none, none, some "hip"⟩), ("1", ⟨none, none, some "ankle"⟩),
    ("left_stance", ⟨none, none, some "knee"⟩)]
  window := none
  phaseScales := .ofList [("+1", 2), ("1", 3)]
  constant := none

theorem greatest_key_decides_leg :
    ∃ t, ambiguousLeg.toObjective = .ok t ∧
      t.kind.resolve .leftStance = some (.joint "knee") ∧
      t.kind.resolve .doubleStance = none ∧
      t.effectiveWeight .rightStance = (3 : Float) • t.weight ∧
      t.effectiveWeight .leftStance = t.weight := by
  obtain ⟨t, ht⟩ : ∃ t, ambiguousLeg.toObjective = .ok t :=
    Except.exists_of_isOk (by decide +kernel)
  obtain ⟨htargets, hnoTarget, -, hscales, hnoScale⟩ := greatest_key_decides ht
  refine ⟨t, ht, ?_, hnoTarget rfl _ (by decide), ?_, hnoScale _ (by decide)⟩
  · have hknee : ("left_stance", ⟨none, none, some "knee"⟩) ∈ ambiguousLeg.phases.entries :=
      .tail _ (.tail _ (.head _))
    obtain ⟨p, hp, hresolve⟩ := htargets _ hknee
    cases hp
    obtain ⟨_, ⟨⟩, htarget⟩ := hresolve (by decide)
    exact htarget
  · have hthree : ("1", (3 : Float)) ∈ ambiguousLeg.phaseScales.entries := .tail _ (.head _)
    obtain ⟨p, hp, hweight⟩ := hscales _ hthree
    cases hp
    exact hweight (by decide)

/-- The first entry of the same objective is accepted and dropped. -/
theorem not_every_entry_counts :
    ∃ t, ambiguousLeg.toObjective = .ok t ∧ ∃ e ∈ ambiguousLeg.phases.entries,
      PhaseId.ofText? e.1 = some .leftStance ∧
      e.2.target? ambiguousLeg.kind = some (.joint "hip") ∧
      t.kind.resolve .leftStance ≠ some (.joint "hip") := by
  obtain ⟨t, ht⟩ : ∃ t, ambiguousLeg.toObjective = .ok t :=
    Except.exists_of_isOk (by decide +kernel)
  have hresolve := (ObjectiveSpec.resolve_of_toObjective_eq_ok ht rfl).2 .leftStance
  refine ⟨t, ht, ("0", ⟨none, none, some "hip"⟩), .head _, by decide, rfl, fun hhip => ?_⟩
  have hknee : (ambiguousLeg.phases.greatest? (PhaseId.ofText? · = some .leftStance)).bind
      (·.2.target? ambiguousLeg.kind) = some (.joint "knee") := rfl
  simp [hresolve, hknee] at hhip

end WholeBody
