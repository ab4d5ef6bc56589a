import Mathlib
import WholeBody.Proofs.Controller.Solving

/-!
# The objectives of a controller

The checks at the start look at each objective by itself, except that no two may share a name. The
terms of a tick are those of the active objectives, in order, and carry their names.

## Main statements

* `Controller.checkObjectives_eq_ok_iff` — the objectives that a controller can be made with.
* `Controller.activeTerms_eq_ok_iff` — the terms of a tick, objective by objective.
* `Controller.evaluate_eq_find` — the term under the name of an objective.
-/

namespace WholeBody

/-- The first element with a key that no other element has. -/
theorem find?_eq_some_of_nodup {τ κ : Type} [DecidableEq κ] {key : τ → κ} {es : List τ}
    (h : (es.map key).Nodup) {e : τ} (he : e ∈ es) : es.find? (key · = key e) = some e := by
  induction es with
  | nil => cases he
  | cons d rest ih =>
    obtain ⟨hd, hrest⟩ := List.nodup_cons.1 h
    obtain rfl | he := List.mem_cons.1 he
    · simp
    · have hne : key d ≠ key e := fun heq => hd (heq ▸ List.mem_map_of_mem he)
      rw [List.find?_cons_of_neg (by simpa using hne)]
      exact ih hrest he

namespace Controller

variable {σ α : Type}

/-! ### At the start -/

/-- Objectives pass the checks when their names are new and different, and the robot has the targets
of each. -/
theorem checkObjectives_eq_ok_iff {model : RobotModel α} {seen : List String}
    {os : List (TrackingObjective α)} : checkObjectives model seen os = .ok () ↔
      (∀ o ∈ os, o.name ∉ seen) ∧ (os.map (·.name)).Nodup ∧
        ∀ o ∈ os, o.validateAgainst model = .ok () := by
  induction os generalizing seen with
  | nil => simp [checkObjectives]
  | cons o rest ih =>
    simp only [checkObjectives, Except.guard_bind_eq_ok_iff, Except.seq_eq_ok_iff, ih,
      List.forall_mem_cons, List.map_cons, List.nodup_cons]
    constructor
    · rintro ⟨hseen, ho, hnew, hnodup, hrest⟩
      refine ⟨⟨hseen, fun o' ho' hmem => ?_⟩, ⟨fun hmem => ?_, hnodup⟩, ho, hrest⟩
      · exact hnew o' ho' (List.mem_cons_of_mem _ hmem)
      · obtain ⟨o', ho', hname⟩ := List.mem_map.1 hmem
        exact hnew o' ho' (hname ▸ List.mem_cons_self)
    · rintro ⟨⟨hseen, hnew⟩, ⟨hother, hnodup⟩, ho, hrest⟩
      refine ⟨hseen, ho, fun o' ho' hmem => ?_, hnodup, hrest⟩
      obtain hname | hmem := List.mem_cons.1 hmem
      · exact hother (hname ▸ List.mem_map_of_mem ho')
      · exact hnew o' ho' hmem

/-! ### In a tick -/

variable [Scalar α] {c : Controller σ α} {state : RobotState α} {phase : PhaseId} {timeInPhase : α}
  {samples : String → Option (TrajectorySample α)} {os : List (TrackingObjective α)}
  {terms : List (TaskTerm α)}

/-- The terms of a tick are there when every objective can be evaluated. -/
theorem activeTerms_eq_ok_iff : c.activeTerms state phase timeInPhase samples os = .ok terms ↔
    ∃ results, List.Forall₂ (fun o result =>
        o.evaluate c.model state phase timeInPhase (samples o.name) = .ok result) os results ∧
      terms = results.flatMap Option.toList := by
  induction os generalizing terms with
  | nil => simp [activeTerms, eq_comm]
  | cons o rest ih =>
    constructor
    · intro h
      obtain ⟨result, ho, h⟩ := Except.of_bind_eq_ok h
      obtain ⟨terms', hrest, h⟩ := Except.of_bind_eq_ok h
      obtain ⟨results, hresults, rfl⟩ := ih.1 hrest
      cases h
      exact ⟨result :: results, .cons ho hresults, rfl⟩
    · rintro ⟨results, hresults, rfl⟩
      cases hresults with
      | cons ho hrest =>
        rw [activeTerms, ho, Except.bind_of_eq_ok rfl, ih.2 ⟨_, hrest, rfl⟩]
        rfl

/-- The terms of a tick are those of the active objectives. -/
theorem mem_activeTerms_iff (h : c.activeTerms state phase timeInPhase samples os = .ok terms)
    {t : TaskTerm α} : t ∈ terms ↔ ∃ o ∈ os,
      o.evaluate c.model state phase timeInPhase (samples o.name) = .ok (some t) := by
  obtain ⟨results, hresults, rfl⟩ := activeTerms_eq_ok_iff.1 h
  simp only [List.mem_flatMap, Option.mem_toList]
  constructor
  · rintro ⟨result, hresult, rfl⟩
    exact exists_of_mem_forall₂ hresults hresult
  · rintro ⟨o, ho, heval⟩
    obtain ⟨result, hresult, heval'⟩ := exists_of_mem_forall₂ hresults.flip ho
    exact ⟨result, hresult, Except.ok.inj (heval'.symm.trans heval)⟩

/-- The terms carry the names of their objectives, in the same order. -/
theorem sublist_names_activeTerms
    (h : c.activeTerms state phase timeInPhase samples os = .ok terms) :
    (terms.map (·.name)).Sublist (os.map (·.name)) := by
  obtain ⟨results, hresults, rfl⟩ := activeTerms_eq_ok_iff.1 h
  clear h
  induction hresults with
  | nil => exact .slnil
  | cons ho _ ih =>
    rw [List.flatMap_cons, List.map_append, List.map_cons]
    obtain ⟨-, rfl⟩ | ⟨t, s, m, -, rfl⟩ := TrackingObjective.of_evaluate_eq_ok ho
    · exact .cons _ ih
    · exact .cons_cons _ ih

/-- A term of a tick has the name of an active objective. -/
theorem exists_active_of_mem_activeTerms
    (h : c.activeTerms state phase timeInPhase samples os = .ok terms) {t : TaskTerm α}
    (ht : t ∈ terms) : ∃ o ∈ os, o.name = t.name ∧
      ∃ target, o.activeTarget phase timeInPhase = some target := by
  obtain ⟨o, ho, heval⟩ := (mem_activeTerms_iff h).1 ht
  obtain ⟨-, hnone⟩ | ⟨target, s, m, htarget, hterm⟩ := TrackingObjective.of_evaluate_eq_ok heval
  · cases hnone
  · cases hterm
    exact ⟨o, ho, rfl, target, htarget⟩

/-- There is no term under a name exactly when no objective of that name is active. -/
theorem find_eq_none_iff (h : c.activeTerms state phase timeInPhase samples os = .ok terms)
    {name : String} : terms.find? (·.name = name) = none ↔
      ∀ o ∈ os, o.name = name → o.activeTarget phase timeInPhase = none := by
  rw [List.find?_eq_none]
  constructor
  · intro hnone o ho hname
    obtain ⟨results, hresults, -⟩ := activeTerms_eq_ok_iff.1 h
    obtain ⟨result, -, heval⟩ := exists_of_mem_forall₂ hresults.flip ho
    obtain ⟨htarget, -⟩ | ⟨target, s, m, -, rfl⟩ := TrackingObjective.of_evaluate_eq_ok heval
    · exact htarget
    · have hmem := (mem_activeTerms_iff h).2 ⟨o, ho, heval⟩
      exact absurd (decide_eq_true hname) (hnone _ hmem)
  · intro hinactive t ht hname
    obtain ⟨o, ho, honame, target, htarget⟩ := exists_active_of_mem_activeTerms h ht
    rw [hinactive o ho (honame.trans (of_decide_eq_true hname))] at htarget
    cases htarget

/-- The term under the name of an objective is the one it is evaluated to, as long as no two
objectives share a name. -/
theorem evaluate_eq_find (h : c.activeTerms state phase timeInPhase samples os = .ok terms)
    (hnodup : (os.map (·.name)).Nodup) {o : TrackingObjective α} (ho : o ∈ os) :
    o.evaluate c.model state phase timeInPhase (samples o.name) =
      .ok (terms.find? (·.name = o.name)) := by
  obtain ⟨results, hresults, -⟩ := activeTerms_eq_ok_iff.1 h
  obtain ⟨result, -, heval⟩ := exists_of_mem_forall₂ hresults.flip ho
  rw [heval]
  obtain ⟨htarget, rfl⟩ | ⟨target, s, m, -, rfl⟩ := TrackingObjective.of_evaluate_eq_ok heval
  · rw [(find_eq_none_iff h).2 fun o' ho' hname => ?_]
    -- Any objective of that name is the one that is not active.
    rw [List.inj_on_of_nodup_map hnodup ho' ho hname]
    exact htarget
  · have hmem := (mem_activeTerms_iff h).2 ⟨o, ho, heval⟩
    have hterms : (terms.map (·.name)).Nodup := (sublist_names_activeTerms h).nodup hnodup
    exact congrArg Except.ok (find?_eq_some_of_nodup hterms hmem).symm

end Controller

end WholeBody
