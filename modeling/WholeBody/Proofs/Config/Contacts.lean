import Mathlib
import WholeBody.Config.Spec
import WholeBody.Proofs.Contact.Set
import WholeBody.Proofs.Controller.Run
import WholeBody.Proofs.Robot.PointMass

/-!
# Contacts of a description

A description lists its contacts with the phases in which they are on the ground, each phase by
number or by text. The configuration has a contact in a phase once for every key that denotes the
phase. A contact with two keys for one phase is there twice, and no controller starts with it.

## Main statements

* `ContactSpec.active_addTo` — what a contact adds to each phase.
* `contacts_in_named_phases` — the contacts of a configuration, and what becomes of one that names
  a phase twice.
* `not_always_duplicateContact` — a check that fails earlier gives its own error.
-/

namespace WholeBody

variable {α : Type}

/-! ### Keys -/

/-- The phase that a key denotes, if it denotes one. -/
def PhaseKey.phase? : PhaseKey → Option PhaseId
  | id p => some p
  | text s => PhaseId.ofText? s

theorem readPhase_eq_ok_iff {s : String} {p : PhaseId} :
    (readPhase s : Except (ConfigError α) PhaseId) = .ok p ↔ PhaseId.ofText? s = some p := by
  rw [readPhase]
  cases PhaseId.ofText? s with
  | none => simp
  | some q => simp

theorem PhaseKey.phase_eq_ok_iff {key : PhaseKey} {p : PhaseId} :
    (key.phase : Except (ConfigError α) PhaseId) = .ok p ↔ key.phase? = some p := by
  cases key with
  | id q => simp [phase, phase?]
  | text s => exact readPhase_eq_ok_iff

/-! ### Contacts -/

variable [Scalar α]

namespace ContactSpec

variable {c : ContactSpec α} {s s' : ContactSet α} {cs : List (ContactSpec α)}

/-- The copies of a contact in a phase: one for every key that denotes it. -/
def copies (c : ContactSpec α) (p : PhaseId) : List (ContactPoint α) :=
  (c.phases.filter (·.phase? = some p)).map fun _ => c.contactPoint

omit [Scalar α] in
theorem active_foldlM_insert {keys : List PhaseKey} {d : ContactPoint α}
    (h : keys.foldlM (fun s key => do return s.insert (← key.phase) d) s =
      (.ok s' : Except (ConfigError α) (ContactSet α))) :
    (∀ key ∈ keys, ∃ p, key.phase? = some p) ∧
      ∀ p, s'.active p = s.active p ++ (keys.filter (·.phase? = some p)).map fun _ => d := by
  induction keys generalizing s with
  | nil =>
    cases h
    exact ⟨List.forall_mem_nil _, fun p => (List.append_nil _).symm⟩
  | cons key keys ih =>
    rw [List.foldlM_cons] at h
    obtain ⟨_, hinsert, h⟩ := Except.of_bind_eq_ok h
    obtain ⟨q, hq, hinsert⟩ := Except.of_bind_eq_ok hinsert
    cases hinsert
    rw [PhaseKey.phase_eq_ok_iff] at hq
    obtain ⟨hkeys, hactive⟩ := ih h
    refine ⟨List.forall_mem_cons.2 ⟨⟨q, hq⟩, hkeys⟩, fun p => ?_⟩
    rw [hactive, ContactSet.active_insert]
    by_cases hqp : q = p
    · simp [hq, hqp]
    · simp [hq, hqp]

/-- A contact that can be added has a phase, all its keys denote one, and each phase gets a copy for
every key that denotes it. -/
theorem active_addTo (h : c.addTo s = .ok s') :
    c.phases ≠ [] ∧ (∀ key ∈ c.phases, ∃ p, key.phase? = some p) ∧
      ∀ p, s'.active p = s.active p ++ c.copies p := by
  by_cases hphases : c.phases = []
  · simp [addTo, hphases] at h
  · rw [addTo, if_neg (by simpa using hphases)] at h
    exact ⟨hphases, active_foldlM_insert h⟩

theorem active_foldlM_addTo (h : cs.foldlM (fun s c => c.addTo s) s = .ok s') :
    (∀ c ∈ cs, c.phases ≠ [] ∧ ∀ key ∈ c.phases, ∃ p, key.phase? = some p) ∧
      ∀ p, s'.active p = s.active p ++ cs.flatMap (·.copies p) := by
  induction cs generalizing s with
  | nil =>
    cases h
    exact ⟨List.forall_mem_nil _, fun p => (List.append_nil _).symm⟩
  | cons c cs ih =>
    rw [List.foldlM_cons] at h
    obtain ⟨t, ht, h⟩ := Except.of_bind_eq_ok h
    obtain ⟨hphases, hkeys, hactive⟩ := active_addTo ht
    obtain ⟨hrest, hactive'⟩ := ih h
    refine ⟨List.forall_mem_cons.2 ⟨⟨hphases, hkeys⟩, hrest⟩, fun p => ?_⟩
    rw [hactive', hactive, List.flatMap_cons, List.append_assoc]

/-- Copies of a contact that names a phase twice share their name. -/
theorem exists_not_nodup_copies (hkeys : ∀ key ∈ c.phases, ∃ p, key.phase? = some p)
    (htwice : ¬ (c.phases.map PhaseKey.phase?).Nodup) :
    ∃ p, ¬ ((c.copies p).map (·.name)).Nodup := by
  obtain ⟨_, hp⟩ := List.exists_duplicate_iff_not_nodup.2 htwice
  obtain ⟨key, hkey, rfl⟩ := List.mem_map.1 hp.mem
  obtain ⟨p, hkey⟩ := hkeys key hkey
  refine ⟨p, fun hnodup => ?_⟩
  have hcount : 2 ≤ (c.phases.filter (·.phase? = some p)).length := by
    rw [hkey] at hp
    have hpair := ((List.duplicate_iff_sublist.1 hp).filter (· = some p)).length_le
    simpa [List.filter_map, Function.comp_def] using hpair
  have hreplicate : (c.copies p).map (·.name) =
      List.replicate (c.phases.filter (·.phase? = some p)).length c.contactPoint.name := by
    rw [copies, List.map_map, ← List.map_const']
    rfl
  rw [hreplicate, List.nodup_replicate] at hnodup
  omega

end ContactSpec

/-! ### Configurations -/

variable [Spectrum α] {spec : ConfigSpec α} {config : ControllerConfig α}

namespace ConfigSpec

theorem of_toConfig_eq_ok (h : spec.toConfig = .ok config) :
    spec.settings.Valid ∧
      spec.contacts.foldlM (fun s c => c.addTo s) .empty = .ok config.contacts ∧
      List.Forall₂ (fun o t => o.toObjective = .ok t) spec.objectives config.objectives ∧
      config.settings = spec.settings := by
  obtain ⟨u, hsettings, h⟩ := Except.of_bind_eq_ok h
  obtain ⟨contacts, hcontacts, h⟩ := Except.of_bind_eq_ok h
  obtain ⟨objectives, hobjectives, h⟩ := Except.of_bind_eq_ok h
  cases h
  exact ⟨Settings.validate_eq_ok_iff.1 (Attempt.of_ofExcept_eq_ok hsettings),
    Attempt.of_ofExcept_eq_ok hcontacts, Except.of_mapM_eq_ok hobjectives, rfl⟩

end ConfigSpec

section Start

variable {σ : Type} {robot : RobotModel α} {solver : Solver σ α}

omit [Spectrum α] in
/-- With contacts at fault no controller starts. The error is that of the first failing check, of
actuators, objectives and contacts in this order. -/
theorem Controller.exists_create_eq_error (start : σ) (hsettings : config.settings.Valid)
    (hcontacts : config.contacts.validate robot config.settings.defaultFriction
      config.settings.defaultCone solver.supportsSecondOrderCones ≠ .ok ()) :
    ∃ e, create config robot solver start = .error e ∧ (checkActuators robot = .error e ∨
      checkActuators robot = .ok () ∧ (checkObjectives robot [] config.objectives = .error e ∨
        checkObjectives robot [] config.objectives = .ok () ∧
          config.contacts.validate robot config.settings.defaultFriction
            config.settings.defaultCone solver.supportsSecondOrderCones = .error e)) := by
  cases hcreate : create config robot solver start with
  | ok c => exact absurd (create_eq_ok_iff.1 hcreate).2.2.2.1 hcontacts
  | error e =>
    refine ⟨e, rfl, ?_⟩
    obtain hfault | ⟨-, hrest⟩ := Except.of_seq_eq_error hcreate
    · rw [Settings.validate_eq_ok_iff.2 hsettings] at hfault
      cases hfault
    · obtain hactuators | ⟨hactuators, hrest⟩ := Except.of_seq_eq_error hrest
      · exact .inl hactuators
      · obtain hobjectives | ⟨hobjectives, hrest⟩ := Except.of_seq_eq_error hrest
        · exact .inr ⟨hactuators, .inl hobjectives⟩
        · obtain hfault | ⟨hvalid, -⟩ := Except.of_seq_eq_error hrest
          · exact .inr ⟨hactuators, .inr ⟨hobjectives, hfault⟩⟩
          · exact absurd hvalid hcontacts

/-- The contacts of a configuration are in exactly the phases that their keys denote, in the order
of the description, and a contact with two keys for one phase keeps every controller from starting:
it stops at the first failing check, and those before the contacts are of actuators and
objectives. -/
theorem contacts_in_named_phases (h : spec.toConfig = .ok config) :
    (∀ c ∈ spec.contacts, c.phases ≠ [] ∧ ∀ key ∈ c.phases, ∃ p, key.phase? = some p) ∧
    (∀ p, config.contacts.active p = spec.contacts.flatMap fun c =>
      (c.phases.filter (·.phase? = some p)).map fun _ =>
        ⟨c.name, ⟨c.body, c.offset⟩, c.normal.getD .unitZ, c.friction, c.cone⟩) ∧
    (config.contacts.toList.map (·.1.number)).Pairwise (· ≤ ·) ∧
    (∀ p, (config.contacts.toList.filter (·.1 = p)).map (·.2) = config.contacts.active p) ∧
    config.settings = spec.settings ∧
    List.Forall₂ (fun o t => o.toObjective = .ok t) spec.objectives config.objectives ∧
    ∀ c ∈ spec.contacts, ¬ (c.phases.map PhaseKey.phase?).Nodup →
      ∀ {σ : Type} (robot : RobotModel α) (solver : Solver σ α) (start : σ), ∃ e,
        Controller.create config robot solver start = .error e ∧
        (Controller.checkActuators robot = .error e ∨
          Controller.checkActuators robot = .ok () ∧
          (Controller.checkObjectives robot [] config.objectives = .error e ∨
            Controller.checkObjectives robot [] config.objectives = .ok () ∧
            ContactSet.StopsAt robot config.settings.defaultFriction config.settings.defaultCone
              solver.supportsSecondOrderCones config.contacts.toList e)) := by
  obtain ⟨hsettings, hcontacts, hobjectives, hsame⟩ := ConfigSpec.of_toConfig_eq_ok h
  obtain ⟨hkeys, hactive⟩ := ContactSpec.active_foldlM_addTo hcontacts
  refine ⟨hkeys, fun p => hactive p, config.contacts.sorted_toList,
    config.contacts.filter_toList, hsame, hobjectives, fun c hc htwice σ robot solver start => ?_⟩
  obtain ⟨p, hrepeated⟩ := ContactSpec.exists_not_nodup_copies (hkeys c hc).2 htwice
  have hfault : config.contacts.validate robot config.settings.defaultFriction
      config.settings.defaultCone solver.supportsSecondOrderCones ≠ .ok () := by
    intro hvalid
    have hcopies : (c.copies p).Sublist (config.contacts.active p) := by
      rw [hactive]
      exact List.sublist_flatten_of_mem (List.mem_map_of_mem hc)
    exact hrepeated ((ContactSet.nodup_active_of_validate_eq_ok hvalid p).sublist
      (hcopies.map _))
  obtain ⟨e, hcreate, hfirst⟩ :=
    Controller.exists_create_eq_error start (hsame ▸ hsettings) hfault
  exact ⟨e, hcreate, hfirst.imp_right (And.imp_right (Or.imp_right (And.imp_right
    ContactSet.stopsAt_of_validate_eq_error)))⟩

end Start

theorem Settings.validate_standard_float :
    (Settings.standard : Settings Float).validate = .ok () := by
  obtain ⟨⟨⟩, hvalid⟩ := Except.exists_of_isOk
    (show (Settings.standard : Settings Float).validate.isOk = true by decide +kernel)
  exact hvalid

/-- Two feet, one of which names the left stance by number and by name. -/
theorem contacts_in_named_phases_feet :
    let foot : ContactSpec Float :=
      ⟨"foot", "mass", 0, [.id .leftStance, .text "left_stance", .text "+1"], none, none, none⟩
    let heel : ContactSpec Float := ⟨"heel", "mass", 0, [.text "01"], none, none, some .conic⟩
    let spec : ConfigSpec Float := ⟨.standard, [], [foot, heel]⟩
    let robot := (⟨"mass", 1, 10⟩ : PointMass Float).model
    let solver : Solver Unit Float := ⟨true, fun _ _ _ => (.error .nonFinite, ())⟩
    let onFoot : ContactPoint Float := ⟨"foot", ⟨"mass", 0⟩, .unitZ, none, none⟩
    let onHeel : ContactPoint Float := ⟨"heel", ⟨"mass", 0⟩, .unitZ, none, some .conic⟩
    ∃ config, spec.toConfig = .ok config ∧
      config.contacts.active .leftStance = [onFoot, onFoot] ∧
      config.contacts.active .rightStance = [onFoot, onHeel] ∧
      ∃ name p, Controller.create config robot solver () = .error (.duplicateContact name p) := by
  intro foot heel spec robot solver onFoot onHeel
  let left : ContactSet Float :=
    (ContactSet.empty.insert .leftStance onFoot).insert .leftStance onFoot
  let config : ControllerConfig Float :=
    ⟨.standard, [], (left.insert .rightStance onFoot).insert .rightStance onHeel⟩
  have hconfig : spec.toConfig = .ok config := by
    rw [ConfigSpec.toConfig, Attempt.ofExcept_eq_ok Settings.validate_standard_float]
    rfl
  obtain ⟨-, hactive, -, -, -, -, htwice⟩ := contacts_in_named_phases hconfig
  obtain ⟨e, hcreate, hfirst⟩ := htwice foot (by simp [spec]) (by decide) robot solver ()
  refine ⟨config, hconfig, (hactive _).trans rfl, (hactive _).trans rfl, ?_⟩
  have hvalid : config.contacts.toList.all fun x => (x.2.validate robot
      config.settings.defaultFriction config.settings.defaultCone true).isOk := by
    decide +kernel
  -- the robot and both feet pass their own checks, so what is left is a repeated name
  obtain hactuators | ⟨-, hobjectives | ⟨-, before, x, after, hsplit, -, -, hfault⟩⟩ := hfirst
  · cases hactuators
  · cases hobjectives
  · obtain ⟨-, rfl⟩ | ⟨-, hfault⟩ := hfault
    · exact ⟨x.2.name, x.1, hcreate⟩
    · have hx := List.all_eq_true.1 hvalid x (by simp [hsplit])
      rw [hfault] at hx
      cases hx

/-- The first copy of a contact on a body that the robot does not have is already at fault. -/
theorem not_always_duplicateContact :
    let foot : ContactSpec Float :=
      ⟨"foot", "hoof", 0, [.id .leftStance, .text "left_stance"], none, none, none⟩
    let spec : ConfigSpec Float := ⟨.standard, [], [foot]⟩
    let robot := (⟨"mass", 1, 10⟩ : PointMass Float).model
    let solver : Solver Unit Float := ⟨true, fun _ _ _ => (.error .nonFinite, ())⟩
    ∃ config, spec.toConfig = .ok config ∧ ¬ (foot.phases.map PhaseKey.phase?).Nodup ∧
      Controller.create config robot solver () = .error (.unknownBody "hoof") ∧
      ∀ name p, Controller.create config robot solver () ≠ .error (.duplicateContact name p) := by
  intro foot spec robot solver
  let config : ControllerConfig Float := ⟨.standard, [],
    (ContactSet.empty.insert .leftStance foot.contactPoint).insert .leftStance foot.contactPoint⟩
  have hconfig : spec.toConfig = .ok config := by
    rw [ConfigSpec.toConfig, Attempt.ofExcept_eq_ok Settings.validate_standard_float]
    rfl
  have hcreate : Controller.create config robot solver () = .error (.unknownBody "hoof") := by
    rw [Controller.create, Except.bind_of_eq_ok Settings.validate_standard_float]
    rfl
  refine ⟨config, hconfig, by decide, hcreate, fun name p h => ?_⟩
  rw [hcreate] at h
  cases h

end WholeBody
