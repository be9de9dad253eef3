import SignalScript.Run.Execution

/-!
# Traces of runs

A script has points, its assignments and conditions, and places for them, counted in the order of
the text. The trace of a run lists the points that the run comes to, with their places and what
happened there. It goes through the places upwards, so no point is come to twice. The events of the
trace alone, one after another, take the machine from the beginning of the run to its outcome.

## Main definitions

* `Point`, `pointsOf` — the assignments and conditions of a body, in the order of the text
* `Event`, `traceOf` — what happens in a run, and where
* `Course` — events that take a machine to an outcome

## Main results

* `course_traceOf` — a run is the course of the events of its trace
* `trace_sublist` — the points of a trace are points of the text, in order
* `Course.surroundings`, `Course.settings`, `Course.host` — only what is stored changes anything
* `Course.eq_stopped` — a course ends where it is stopped
-/

namespace SignalScript

/-- What a run can come to. -/
inductive Point
  | assign (assignment : Assignment)
  | guard (condition : Condition)

mutual

/-- The points of a statement, in the order of the text. -/
def Statement.points : Statement → List Point
  | .assign assignment => [.assign assignment]
  | .choose first => first.points

/-- The points of an arm and of what stands behind it: its condition comes first. -/
def Arm.points : Arm → List Point
  | .mk condition body otherwise => .guard condition :: (pointsOf body ++ otherwise.points)

/-- The points of what stands behind an arm. -/
def Alternative.points : Alternative → List Point
  | .done => []
  | .always body => pointsOf body
  | .arm next => next.points

/-- The points of a body, in the order of the text. -/
def pointsOf : List Statement → List Point
  | [] => []
  | statement :: rest => statement.points ++ pointsOf rest

end

/-- What happens at a point. -/
inductive Event
  /-- A condition was found to hold or not. -/
  | tested (condition : Condition) (held : Bool)
  /-- The value of an assignment was put in its place. -/
  | stored (assignment : Assignment) (value : Int32)
  /-- A `RETURN` was reached in an assignment. -/
  | stopped (assignment : Assignment)

/-- The point where an event happens. -/
def Event.point : Event → Point
  | .tested condition _ => .guard condition
  | .stored assignment _ => .assign assignment
  | .stopped assignment => .assign assignment

/-- The signal is set, not asked. -/
def Access.isSetting : Access → Bool
  | .query _ => false
  | .setState _ | .setDrawState _ => true

variable {σ : Type}

@[simp] theorem Machine.logQueries_nil (machine : Machine σ) : machine.logQueries [] = machine := by
  rw [logQueries, List.map_nil, List.append_nil]

theorem Machine.logQueries_logQueries (machine : Machine σ) (first second : List Query) :
    (machine.logQueries first).logQueries second = machine.logQueries (first ++ second) := by
  simp [logQueries]

/-- Questions set nothing. -/
theorem Machine.settings_logQueries (machine : Machine σ) (queries : List Query) :
    (machine.logQueries queries).log.filter Access.isSetting =
      machine.log.filter Access.isSetting := by
  rw [logQueries, List.filter_append, List.append_right_eq_self, List.filter_eq_nil_iff]
  intro access haccess
  obtain ⟨query, -, rfl⟩ := List.mem_map.mp haccess
  exact Bool.false_ne_true

variable [SignalHost σ]

/-! ### The trace of a run -/

/-- What happens at an assignment. -/
def Assignment.event (assignment : Assignment) (machine : Machine σ) : Event :=
  match (Chain.value machine.surroundings assignment.chain 0).value with
  | some value => .stored assignment value
  | none => .stopped assignment

mutual

/-- The trace of a statement whose first point has a given place. -/
def Statement.trace (machine : Machine σ) (place : Nat) : Statement → List (Event × Nat)
  | .assign assignment => [(assignment.event machine, place)]
  | .choose first => first.trace machine place

/-- The trace of an arm whose condition has a given place. If the body is passed over, so are the
places of its points. -/
def Arm.trace (machine : Machine σ) (place : Nat) : Arm → List (Event × Nat)
  | .mk condition body otherwise =>
    let truth := Condition.truth machine.surroundings condition
    let machine := machine.logQueries truth.notes
    (.tested condition truth.value, place) ::
      if truth.value then traceOf machine (place + 1) body
      else otherwise.trace machine (place + 1 + (pointsOf body).length)

/-- The trace of what stands behind an arm, when its first point has a given place. -/
def Alternative.trace (machine : Machine σ) (place : Nat) : Alternative → List (Event × Nat)
  | .done => []
  | .always body => traceOf machine place body
  | .arm next => next.trace machine place

/-- The trace of a body whose first point has a given place. -/
def traceOf (machine : Machine σ) (place : Nat) : List Statement → List (Event × Nat)
  | [] => []
  | statement :: rest =>
    let outcome := statement.run machine
    statement.trace machine place ++
      match outcome.flow with
      | .proceed => traceOf outcome.machine (place + statement.points.length) rest
      | .returned => []

end

/-- The point and the place of an entry of a trace. -/
def erased (entry : Event × Nat) : Point × Nat := (entry.1.point, entry.2)

theorem Assignment.point_event (assignment : Assignment) (machine : Machine σ) :
    (assignment.event machine).point = .assign assignment := by
  rw [event]
  split <;> rfl

mutual

/-- The events of a statement are at its points, in order, and at none twice. -/
theorem Statement.trace_sublist (machine : Machine σ) (place : Nat) (statement : Statement) :
    ((statement.trace machine place).map erased).Sublist (statement.points.zipIdx place) := by
  match statement with
  | .assign assignment =>
    rw [Statement.trace, Statement.points]
    simp only [List.map_cons, List.map_nil, erased, assignment.point_event]
    exact List.Sublist.refl _
  | .choose first =>
    rw [Statement.trace, Statement.points]
    exact first.trace_sublist machine place
termination_by structural statement

theorem Arm.trace_sublist (machine : Machine σ) (place : Nat) (arm : Arm) :
    ((arm.trace machine place).map erased).Sublist (arm.points.zipIdx place) := by
  match arm with
  | .mk condition body otherwise =>
    rw [Arm.trace, Arm.points, List.zipIdx_cons, List.zipIdx_append, List.map_cons]
    refine List.Sublist.cons_cons _ ?_
    split
    · exact (trace_sublist _ _ body).trans (List.sublist_append_left _ _)
    · exact (otherwise.trace_sublist _ _).trans (List.sublist_append_right _ _)
termination_by structural arm

theorem Alternative.trace_sublist (machine : Machine σ) (place : Nat) (otherwise : Alternative) :
    ((otherwise.trace machine place).map erased).Sublist (otherwise.points.zipIdx place) := by
  match otherwise with
  | .done => exact List.Sublist.refl _
  | .always body =>
    rw [Alternative.trace, Alternative.points]
    exact SignalScript.trace_sublist machine place body
  | .arm next =>
    rw [Alternative.trace, Alternative.points]
    exact next.trace_sublist machine place
termination_by structural otherwise

/-- The points of a trace are points of the text, in order and each at most once. -/
theorem trace_sublist (machine : Machine σ) (place : Nat) (body : List Statement) :
    ((traceOf machine place body).map erased).Sublist ((pointsOf body).zipIdx place) := by
  match body with
  | [] => exact List.Sublist.refl _
  | statement :: rest =>
    rw [traceOf, pointsOf, List.zipIdx_append, List.map_append]
    refine (statement.trace_sublist machine place).append ?_
    split
    · exact trace_sublist _ _ rest
    · exact List.nil_sublist _
termination_by structural body

end

/-! ### The course of events -/

/-- Events that take a machine to an outcome, one after another. -/
inductive Course : Machine σ → List Event → Outcome σ → Prop
  | done {machine : Machine σ} : Course machine [] ⟨.proceed, machine⟩
  | tested {machine : Machine σ} {events : List Event} {outcome : Outcome σ} (condition : Condition)
    (more : Course
      (machine.logQueries (Condition.truth machine.surroundings condition).notes) events outcome) :
    Course machine
      (.tested condition (Condition.truth machine.surroundings condition).value :: events) outcome
  | stored {machine : Machine σ} {events : List Event} {outcome : Outcome σ}
    {assignment : Assignment} {value : Int32}
    (hvalue : (Chain.value machine.surroundings assignment.chain 0).value = some value)
    (more : Course
      ((machine.logQueries (Chain.value machine.surroundings assignment.chain 0).notes).store value
        assignment.target) events outcome) :
    Course machine (.stored assignment value :: events) outcome
  | stopped {machine : Machine σ} {assignment : Assignment}
    (hvalue : (Chain.value machine.surroundings assignment.chain 0).value = none) :
    Course machine [.stopped assignment]
      ⟨.returned,
        machine.logQueries (Chain.value machine.surroundings assignment.chain 0).notes⟩

namespace Course

variable {machine middle : Machine σ} {events later before after : List Event}
  {outcome : Outcome σ}

/-- A course can be followed by another if it does not stop. -/
theorem append (h : Course machine events ⟨.proceed, middle⟩)
    (hlater : Course middle later outcome) : Course machine (events ++ later) outcome := by
  generalize hend : (⟨.proceed, middle⟩ : Outcome σ) = reached at h
  induction h with
  | done =>
    cases hend
    exact hlater
  | tested condition _ ih => exact .tested condition (ih hend)
  | stored hvalue _ ih => exact .stored hvalue (ih hend)
  | stopped _ => cases hend

/-- What happens at an assignment is all that its run consists of. -/
theorem assignment (assignment : Assignment) (machine : Machine σ) :
    Course machine [assignment.event machine] (assignment.run machine) := by
  rw [Assignment.event, Assignment.run]
  cases hvalue : (Chain.value machine.surroundings assignment.chain 0).value with
  | some value => exact .stored hvalue .done
  | none => exact .stopped hvalue

end Course

mutual

/-- The trace of a statement is the course of its run. -/
theorem Statement.course_trace (machine : Machine σ) (place : Nat) (statement : Statement) :
    Course machine ((statement.trace machine place).map Prod.fst) (statement.run machine) := by
  match statement with
  | .assign assignment =>
    rw [Statement.trace, Statement.run]
    exact .assignment assignment machine
  | .choose first =>
    rw [Statement.trace, Statement.run]
    exact first.course_trace machine place
termination_by structural statement

theorem Arm.course_trace (machine : Machine σ) (place : Nat) (arm : Arm) :
    Course machine ((arm.trace machine place).map Prod.fst) (arm.run machine) := by
  match arm with
  | .mk condition body otherwise =>
    rw [Arm.trace, Arm.run, List.map_cons]
    refine .tested condition ?_
    split
    · exact course_traceOf _ _ body
    · exact otherwise.course_trace _ _
termination_by structural arm

theorem Alternative.course_trace (machine : Machine σ) (place : Nat) (otherwise : Alternative) :
    Course machine ((otherwise.trace machine place).map Prod.fst) (otherwise.run machine) := by
  match otherwise with
  | .done => exact .done
  | .always body =>
    rw [Alternative.trace, Alternative.run]
    exact course_traceOf machine place body
  | .arm next =>
    rw [Alternative.trace, Alternative.run]
    exact next.course_trace machine place
termination_by structural otherwise

/-- A run is the course of the events of its trace. -/
theorem course_traceOf (machine : Machine σ) (place : Nat) (body : List Statement) :
    Course machine ((traceOf machine place body).map Prod.fst) (runStatements machine body) := by
  match body with
  | [] => exact .done
  | statement :: rest =>
    have hfirst := statement.course_trace machine place
    rw [traceOf, runStatements, List.map_append]
    cases hflow : (statement.run machine).flow with
    | proceed =>
      have hend : statement.run machine = ⟨.proceed, (statement.run machine).machine⟩ := by
        rw [← hflow]
      rw [hend] at hfirst
      exact hfirst.append (course_traceOf _ _ rest)
    | returned =>
      simp only [List.map_nil, List.append_nil]
      exact hfirst
termination_by structural body

end

/-! ### What events change -/

/-- A value with the place that it is put in. -/
def Event.store? : Event → Option (Target × Int32)
  | .stored assignment value => some (assignment.target, value)
  | .tested _ _ | .stopped _ => none

/-- What a value sets at the signal when it is put in its place: only `STATE` and `DRAW_STATE` are
settings of the signal. -/
def Target.settings (value : Int32) : Target → List Access
  | .external .state => [.setState value]
  | .external .drawState => [.setDrawState value]
  | .external .enabled | .external .blockState | .slot _ | .discard => []

/-- What an event sets at the signal. -/
def Event.settings : Event → List Access
  | .stored assignment value => assignment.target.settings value
  | .tested _ _ | .stopped _ => []

/-- The signal after an access. -/
def Access.apply (host : σ) : Access → σ
  | .query _ => host
  | .setState value => SignalHost.setState host value
  | .setDrawState value => SignalHost.setDrawState host value

/-- The variables after a value is put in its place. -/
def Surroundings.put (around : Surroundings σ) (store : Target × Int32) : Surroundings σ :=
  match store.1 with
  | .external .state => { around with host := SignalHost.setState around.host store.2 }
  | .external .drawState => { around with host := SignalHost.setDrawState around.host store.2 }
  | .external .enabled | .external .blockState | .discard => around
  | .slot index => { around with locals := around.locals.set index store.2 }

section Stores

variable (machine : Machine σ) (value : Int32) (target : Target)

theorem Machine.surroundings_store :
    (machine.store value target).surroundings = machine.surroundings.put (target, value) := by
  cases target with
  | external v => cases v <;> rfl
  | slot index => rfl
  | discard => rfl

theorem Machine.log_store :
    (machine.store value target).log = machine.log ++ target.settings value := by
  cases target with
  | external v =>
    cases v <;> simp [store, setExternal, ExternalVariable.isWritable, Target.settings]
  | slot index => exact (List.append_nil _).symm
  | discard => exact (List.append_nil _).symm

theorem Machine.host_store : (machine.store value target).host =
    (target.settings value).foldl Access.apply machine.host := by
  cases target with
  | external v => cases v <;> rfl
  | slot index => rfl
  | discard => rfl

theorem Target.filter_settings :
    (target.settings value).filter Access.isSetting = target.settings value := by
  cases target with
  | external v => cases v <;> rfl
  | slot index => rfl
  | discard => rfl

/-- To the settings in the log, storing a value adds those of the target. -/
theorem Machine.settings_store :
    (machine.store value target).log.filter Access.isSetting =
      machine.log.filter Access.isSetting ++ target.settings value := by
  rw [log_store, List.filter_append, Target.filter_settings]

end Stores

namespace Course

variable {machine : Machine σ} {events before after : List Event} {outcome : Outcome σ}

/-- Variables and signal are left as the stored values make them. -/
theorem surroundings (h : Course machine events outcome) : outcome.machine.surroundings =
    (events.filterMap Event.store?).foldl Surroundings.put machine.surroundings := by
  induction h with
  | done => rfl
  | tested condition _ ih => exact ih
  | stored hvalue _ ih =>
    rw [ih, Machine.surroundings_store]
    rfl
  | stopped _ => rfl

/-- The signal is set for the values stored in `STATE` and `DRAW_STATE`, and for nothing else. -/
theorem settings (h : Course machine events outcome) :
    outcome.machine.log.filter Access.isSetting =
      machine.log.filter Access.isSetting ++ events.flatMap Event.settings := by
  induction h with
  | done => exact (List.append_nil _).symm
  | tested condition _ ih =>
    rw [ih, Machine.settings_logQueries]
    rfl
  | stored _ _ ih =>
    rw [ih, Machine.settings_store, Machine.settings_logQueries, List.append_assoc]
    rfl
  | stopped _ =>
    rw [Machine.settings_logQueries]
    exact (List.append_nil _).symm

/-- Nothing changes the signal but what is set there. -/
theorem host (h : Course machine events outcome) : outcome.machine.host =
    (events.flatMap Event.settings).foldl Access.apply machine.host := by
  induction h with
  | done => rfl
  | tested condition _ ih => exact ih
  | stored _ _ ih =>
    rw [ih, Machine.host_store, ← List.foldl_append]
    rfl
  | stopped _ => rfl

/-- A course that is stopped ends there. -/
theorem eq_stopped {assignment : Assignment}
    (h : Course machine (before ++ .stopped assignment :: after) outcome) :
    after = [] ∧ outcome.flow = .returned := by
  generalize hevents : before ++ .stopped assignment :: after = events at h
  induction h generalizing before with
  | done => simp at hevents
  | tested condition _ ih =>
    cases before with
    | nil => cases hevents
    | cons event before => exact ih (List.cons.inj hevents).2
  | stored hvalue _ ih =>
    cases before with
    | nil => cases hevents
    | cons event before => exact ih (List.cons.inj hevents).2
  | stopped _ =>
    cases before with
    | nil => exact ⟨(List.cons.inj hevents).2, rfl⟩
    | cons event before => simp at hevents

/-- A course that ends at a `RETURN` comes to an assignment that is stopped, and leaves variables
and signal as they are before it. -/
theorem returned (h : Course machine events outcome) (hflow : outcome.flow = .returned) :
    ∃ before assignment middle, events = before ++ [.stopped assignment] ∧
      Course machine before ⟨.proceed, middle⟩ ∧
      outcome.machine.surroundings = middle.surroundings := by
  induction h with
  | done => cases hflow
  | tested condition _ ih =>
    obtain ⟨before, assignment, middle, rfl, hbefore, hsame⟩ := ih hflow
    exact ⟨_ :: before, assignment, middle, rfl, .tested condition hbefore, hsame⟩
  | stored hvalue _ ih =>
    obtain ⟨before, assignment, middle, rfl, hbefore, hsame⟩ := ih hflow
    exact ⟨_ :: before, assignment, middle, rfl, .stored hvalue hbefore, hsame⟩
  | @stopped machine assignment hvalue => exact ⟨[], assignment, machine, rfl, .done, rfl⟩

end Course

end SignalScript
