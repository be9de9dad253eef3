import SignalScript.Proofs.Run.Branch
import SignalScript.Proofs.Run.Questions
import SignalScript.Proofs.Script.ScriptForm
import SignalScript.Signal.Fixed

/-!
# A run goes through a script once

A run comes to points of the script in the order of the text, and to each at most once. At every
point it asks the questions of the terms or tests there, each once; it sets what is stored in
`STATE` and `DRAW_STATE`, and nothing else. So the size of the script bounds the number of its
accesses to the signal. At the first `RETURN` the run ends with what was stored before.

## Main definitions

* `Script.size` — the number of operands, calls and targets
* `Script.RunsOnce` — how a run goes through a script

## Main results

* `Course.length_log` — a course has no more accesses than its points have operands, calls and
  targets
* `runsOnce_of_mem_compile` — every run of a compiled script goes through it once
-/

namespace SignalScript

/-! ### Sizes -/

/-- A chain that is evaluated for its calls has no target. -/
def Target.size : Target → Nat
  | .external _ | .slot _ => 1
  | .discard => 0

/-- The number of operands, calls and targets at a point. -/
def Point.size : Point → Nat
  | .assign assignment => assignment.target.size + assignment.chain.size
  | .guard condition => condition.size

/-- The number of operands, calls and targets in a script. -/
def Script.size (script : Script) : Nat := ((pointsOf script.body).map Point.size).sum

theorem Target.length_settings_le (target : Target) (value : Int32) :
    (target.settings value).length ≤ target.size := by
  cases target with
  | external v => cases v <;> simp [settings, size]
  | slot index => exact Nat.zero_le _
  | discard => exact Nat.le_refl 0

@[simp] theorem Machine.length_log_logQueries {σ : Type} (machine : Machine σ)
    (queries : List Query) :
    (machine.logQueries queries).log.length = machine.log.length + queries.length := by
  rw [logQueries, List.length_append, List.length_map]

/-! ### What was read -/

section Points

variable {P : Assignment → Prop} {Q : Condition → Prop}

/-- The assignment or the condition at a point is such. -/
def Point.Holds (P : Assignment → Prop) (Q : Condition → Prop) : Point → Prop
  | .assign assignment => P assignment
  | .guard condition => Q condition

mutual

/-- What holds of all parts of a statement holds of its points. -/
theorem Statement.All.points {statement : Statement} (h : statement.All P Q) :
    ∀ point ∈ statement.points, point.Holds P Q := by
  match statement, h with
  | .assign assignment, .assign h =>
    rw [Statement.points]
    exact List.forall_mem_singleton.mpr h
  | .choose first, .choose h =>
    rw [Statement.points]
    exact h.points
termination_by structural statement

theorem Arm.All.points {arm : Arm} (h : arm.All P Q) : ∀ point ∈ arm.points, point.Holds P Q := by
  match arm, h with
  | .mk condition body otherwise, .mk hcondition hbody hotherwise =>
    rw [Arm.points]
    exact List.forall_mem_cons.mpr
      ⟨hcondition, List.forall_mem_append.mpr ⟨holds_pointsOf hbody, hotherwise.points⟩⟩
termination_by structural arm

theorem Alternative.All.points {otherwise : Alternative} (h : otherwise.All P Q) :
    ∀ point ∈ otherwise.points, point.Holds P Q := by
  match otherwise, h with
  | .done, .done => exact List.forall_mem_nil _
  | .always body, .always hbody =>
    rw [Alternative.points]
    exact holds_pointsOf hbody
  | .arm next, .arm h =>
    rw [Alternative.points]
    exact h.points
termination_by structural otherwise

/-- What holds of all assignments and conditions in a body holds at all its points. -/
theorem holds_pointsOf {body : List Statement} (h : ∀ statement ∈ body, statement.All P Q) :
    ∀ point ∈ pointsOf body, point.Holds P Q := by
  match body with
  | [] => exact List.forall_mem_nil _
  | statement :: rest =>
    obtain ⟨hfirst, hrest⟩ := List.forall_mem_cons.mp h
    rw [pointsOf]
    exact List.forall_mem_append.mpr ⟨hfirst.points, holds_pointsOf hrest⟩
termination_by structural body

end

end Points

variable {σ : Type} [SignalHost σ]

/-- The chain of an assignment that was read asks the questions of its terms, each once and in
order. -/
theorem Assignment.IsRead.notes_value {locals : List Text} {assignment : Assignment}
    (h : assignment.IsRead locals) (around : Surroundings σ) :
    (Chain.value around assignment.chain 0).notes =
      assignment.chain.flatMap (Term.questions around) := by
  obtain ⟨line, text, h⟩ := h
  obtain ⟨source, hchain⟩ := Assignment.exists_read_chain h
  obtain ⟨last, returned, hform⟩ := Chain.isLevel_read hchain
  exact notes_value_of_isLevel hform around

/-! ### The number of accesses -/

/-- A course has no more accesses than its points have operands, calls and targets. -/
theorem Course.length_log {machine : Machine σ} {events : List Event} {outcome : Outcome σ}
    (h : Course machine events outcome)
    (hchain : ∀ assignment, .assign assignment ∈ events.map Event.point →
      ∀ around : Surroundings σ,
        (Chain.value around assignment.chain 0).notes.length ≤ assignment.chain.size) :
    outcome.machine.log.length ≤
      machine.log.length + ((events.map Event.point).map Point.size).sum := by
  induction h with
  | done => exact Nat.le_refl _
  | @tested machine events outcome condition _ ih =>
    have hrest := ih fun assignment hmem => hchain assignment (List.mem_cons_of_mem _ hmem)
    -- A test is one point, and asks at most what its condition has operands and calls.
    have hcondition := length_questions_condition_le machine.surroundings condition
    rw [← notes_truth] at hcondition
    rw [Machine.length_log_logQueries] at hrest
    change _ ≤ _ + (condition.size + ((events.map Event.point).map Point.size).sum)
    omega
  | @stored machine events outcome assignment value _ _ ih =>
    have hrest := ih fun assignment hmem => hchain assignment (List.mem_cons_of_mem _ hmem)
    have hquestions := hchain assignment List.mem_cons_self machine.surroundings
    -- A stored value adds the questions of the chain and at most one setting for the target.
    have hsettings := assignment.target.length_settings_le value
    rw [Machine.log_store, List.length_append, Machine.length_log_logQueries] at hrest
    change _ ≤ _ + (assignment.target.size + assignment.chain.size +
      ((events.map Event.point).map Point.size).sum)
    omega
  | @stopped machine assignment _ =>
    have hquestions := hchain assignment List.mem_cons_self machine.surroundings
    rw [Machine.length_log_logQueries]
    change _ ≤ _ + (assignment.target.size + assignment.chain.size + 0)
    omega

/-! ### Runs of scripts -/

namespace Script

/-- The machine that a run begins with. -/
def start (script : Script) (host : σ) : Machine σ := ⟨host, script.zeros, []⟩

/-- The trace of a run of the script. -/
def trace (script : Script) (host : σ) : List (Event × Nat) :=
  traceOf (script.start host) 0 script.body

/-- The events of a run of the script. -/
def events (script : Script) (host : σ) : List Event := (script.trace host).map Prod.fst

/-- A run goes through the script once, in order, and stops at `RETURN`. -/
structure RunsOnce (script : Script) (host : σ) : Prop where
  /-- The run consists of the events of its trace, one after another. -/
  course : Course (script.start host) (script.events host) (script.run host)
  /-- The trace comes to points of the script in the order of the text, to each at most once. -/
  inOrder : ((script.trace host).map erased).Sublist (pointsOf script.body).zipIdx
  /-- Of a chain of arms at most one body runs: that of the first branch whose condition holds on
  the machine that the chain is reached with. Only the conditions up to there are tested. -/
  oneBody : ∀ (machine : Machine σ) (arm : Arm),
    arm.run machine =
      match chosen? machine.surroundings arm.branches with
      | some branch => runStatements (machine.logQueries
          ((tried machine.surroundings arm.branches).flatMap fun branch =>
            (branch.truth machine.surroundings).notes)) branch.body
      | none => ⟨.proceed, machine.logQueries
          ((tried machine.surroundings arm.branches).flatMap fun branch =>
            (branch.truth machine.surroundings).notes)⟩
  /-- Evaluating a chain asks the questions of each of its terms once. -/
  chainOnce : ∀ assignment, .assign assignment ∈ pointsOf script.body →
    ∀ around : Surroundings σ, (Chain.value around assignment.chain 0).notes =
      assignment.chain.flatMap (Term.questions around)
  /-- Testing a condition asks the questions of each of its tests once. -/
  conditionOnce : ∀ condition, .guard condition ∈ pointsOf script.body →
    ∀ around : Surroundings σ, (condition.truth around).notes =
      condition.tests.flatMap (Test.questions around)
  /-- There are no more accesses to the signal than operands, calls and targets. -/
  bounded : (script.run host).machine.log.length ≤ script.size
  /-- The signal is set for the values stored in `STATE` and `DRAW_STATE`, and for nothing else. -/
  settings : (script.run host).machine.log.filter Access.isSetting =
    (script.events host).flatMap Event.settings
  /-- Nothing but these settings changes the signal. -/
  signal : (script.run host).machine.host =
    ((script.run host).machine.log.filter Access.isSetting).foldl Access.apply host
  /-- Signal and variables are left as the stored values make them, one after another. -/
  surroundings : (script.run host).machine.surroundings =
    ((script.events host).filterMap Event.store?).foldl Surroundings.put ⟨host, script.zeros⟩
  /-- Nothing happens behind a `RETURN`. -/
  stops : ∀ before assignment after, script.events host = before ++ .stopped assignment :: after →
    after = [] ∧ (script.run host).flow = .returned
  /-- A run that returns leaves signal and variables as the assignments before the one that returns
  have made them. Whatever stands behind this one, in its own body or in those around it, the run
  is the same. -/
  returned : (script.run host).flow = .returned →
    ∃ (before : List (Event × Nat)) (assignment : Assignment) (way : Way) (middle : Machine σ),
    script.trace host = before ++ [(.stopped assignment, way.place)] ∧
    way.Leads assignment script.body ∧
    Course (script.start host) (before.map Prod.fst) ⟨.proceed, middle⟩ ∧
    (script.run host).machine.surroundings = middle.surroundings ∧
    ∀ other, way.Leads assignment other →
      ({ script with body := other } : Script).run host = script.run host

end Script

variable {file : String} {bytes : List UInt8} {script : Script}

/-- Every run of a compiled script goes through it once. -/
theorem runsOnce_of_mem_compile (h : script ∈ (compile file bytes).value) (host : σ) :
    script.RunsOnce host := by
  have hread := holds_pointsOf (isRead_of_mem_compile h)
  have hcourse : Course (script.start host) (script.events host) (script.run host) :=
    course_traceOf _ 0 script.body
  have hsublist : ((script.trace host).map erased).Sublist (pointsOf script.body).zipIdx :=
    trace_sublist _ 0 script.body
  have hpoints : ((script.events host).map Event.point).Sublist (pointsOf script.body) := by
    have := hsublist.map Prod.fst
    rw [List.zipIdx_map_fst, List.map_map] at this
    rwa [Script.events, List.map_map]
  have hchain (assignment : Assignment) (hmem : .assign assignment ∈ pointsOf script.body)
      (around : Surroundings σ) : (Chain.value around assignment.chain 0).notes =
        assignment.chain.flatMap (Term.questions around) := by
    have hassignment : assignment.IsRead script.locals := hread _ hmem
    exact hassignment.notes_value around
  have hsettings := hcourse.settings
  refine
    { course := hcourse
      inOrder := hsublist
      oneBody := fun machine arm => arm.run_eq_chosen machine
      chainOnce := hchain
      conditionOnce := fun condition _ around => notes_truth around condition
      bounded := ?_
      settings := hsettings
      signal := by rw [hcourse.host, hsettings]; rfl
      surroundings := hcourse.surroundings
      stops := fun before assignment after hevents => Course.eq_stopped (hevents ▸ hcourse)
      returned := fun hflow => ?_ }
  · -- Only points of the script are come to, so their sizes add up to no more than all sizes.
    have hlog := hcourse.length_log fun assignment hmem around => by
      rw [hchain assignment (hpoints.subset hmem) around]
      exact length_questions_chain_le around assignment.chain
    have hsize := (hpoints.map Point.size).sum_le_sum fun _ _ => Nat.zero_le _
    exact Nat.le_trans hlog (Nat.zero_add _ ▸ hsize)
  · obtain ⟨assignment, way, hway⟩ := exists_way_of_returned (script.start host) 0 script.body hflow
    obtain ⟨before, hbefore⟩ := List.getLast?_eq_some_iff.mp hway.last
    -- The course before its last event goes on.
    obtain ⟨events, stopped, middle, hevents, hmiddle, hsame⟩ := hcourse.returned hflow
    have htrace : script.trace host = before ++ [(.stopped assignment, way.place)] := by
      rw [Script.trace, hbefore, Nat.zero_add]
    rw [Script.events, htrace, List.map_append] at hevents
    obtain rfl := (List.append_inj' hevents rfl).1
    exact ⟨before, assignment, way, middle, htrace, hway.leads, hmiddle, hsame, hway.same⟩

/-- A signal ahead of which the next two show their second aspect. -/
def restrictedAhead : FixedSignal :=
  { FixedSignal.blank with state := 3, nextSignals := Vector.replicate 5 2 }

/-- At such a signal the sample asks for what its first two terms and its first condition name,
once each, chooses the first body and leaves from it. -/
theorem runsOnce_of_mem_compile_sample :
    sampleSection.compile.value ∈ (compile "A.TXT" sampleFile).value ∧
      (sampleSection.compile.value.run restrictedAhead).flow = .returned ∧
      (sampleSection.compile.value.run restrictedAhead).machine.log =
        [.query (.nextSignal .least 1), .query .state, .query .enabled, .query .routeSet] ∧
      sampleSection.compile.value.RunsOnce restrictedAhead :=
  ⟨mem_compile_sampleFile, by decide +kernel, by decide +kernel,
    runsOnce_of_mem_compile mem_compile_sampleFile restrictedAhead⟩

end SignalScript
