import SignalScript.Proofs.Run.Trace

/-!
# Bodies that run and bodies that do not

Of a chain of arms at most one body runs: the first whose condition holds on the machine that the
chain was reached with. The conditions before it are tested, and those behind it are not. A run that
ends at a `RETURN` has come there on a way into bodies inside bodies. Whatever stands behind the
way, in the innermost body or in those around it, and in the arms behind the ones it enters, is not
looked at.

## Main definitions

* `Branch`, `Arm.branches` — the arms of a chain and its `ELSE` as a list
* `Way`, `Way.Leads` — a way to a statement in a body

## Main results

* `Arm.run_eq_chosen` — an arm does what the first body whose condition holds does
* `exists_way_of_returned` — a run that returns does so at the end of a way, and nothing behind the
  way matters
-/

namespace SignalScript

/-- An arm of a chain, or its `ELSE`, which has no condition. -/
structure Branch where
  guard : Option Condition
  body : List Statement

mutual

/-- The arms of a chain in order, with its `ELSE`. -/
def Arm.branches : Arm → List Branch
  | .mk condition body otherwise => ⟨some condition, body⟩ :: otherwise.branches

/-- The branches behind an arm; an `ELSE` is the last. -/
def Alternative.branches : Alternative → List Branch
  | .done => []
  | .always body => [⟨none, body⟩]
  | .arm next => next.branches

end

/-- The points of a branch, in the order of the text. -/
def Branch.points (branch : Branch) : List Point :=
  branch.guard.toList.map .guard ++ pointsOf branch.body

variable {σ : Type} [SignalHost σ]

/-- The condition of a branch holds; an `ELSE` always does. -/
def Branch.truth (around : Surroundings σ) (branch : Branch) : Asked Bool :=
  match branch.guard with
  | some condition => condition.truth around
  | none => pure true

/-- The branches of which the conditions are tested: those up to the first that holds. -/
def tried (around : Surroundings σ) (branches : List Branch) : List Branch :=
  branches.take (branches.findIdx (fun branch => (branch.truth around).value) + 1)

/-- The branch whose body runs. -/
def chosen? (around : Surroundings σ) (branches : List Branch) : Option Branch :=
  branches.find? fun branch => (branch.truth around).value

/-- Runs the body of the first branch that holds. -/
def runBranches (machine : Machine σ) : List Branch → Outcome σ
  | [] => ⟨.proceed, machine⟩
  | branch :: later =>
    let truth := branch.truth machine.surroundings
    let machine := machine.logQueries truth.notes
    if truth.value then runStatements machine branch.body else runBranches machine later

/-! ### The body that runs -/

section Branches

variable {machine : Machine σ} {branch : Branch}

/-- The first branch is run if its condition holds. -/
theorem runBranches_of_holds (h : (branch.truth machine.surroundings).value = true)
    (later : List Branch) : runBranches machine (branch :: later) =
      runStatements (machine.logQueries (branch.truth machine.surroundings).notes) branch.body :=
  if_pos h

/-- Otherwise its questions are asked, and the later branches are tried. -/
theorem runBranches_of_fails (h : (branch.truth machine.surroundings).value = false)
    (later : List Branch) : runBranches machine (branch :: later) =
      runBranches (machine.logQueries (branch.truth machine.surroundings).notes) later :=
  if_neg (Bool.not_eq_true _ ▸ h)

end Branches

mutual

/-- A chain of arms runs as its branches do. -/
theorem Arm.run_eq_runBranches (machine : Machine σ) (arm : Arm) :
    arm.run machine = runBranches machine arm.branches := by
  match arm with
  | .mk condition body otherwise =>
    rw [Arm.run, Arm.branches, runBranches, otherwise.run_eq_runBranches]
    rfl
termination_by structural arm

theorem Alternative.run_eq_runBranches (machine : Machine σ) (otherwise : Alternative) :
    otherwise.run machine = runBranches machine otherwise.branches := by
  match otherwise with
  | .done => rfl
  | .always body =>
    rw [Alternative.run, Alternative.branches, runBranches]
    exact congrArg (runStatements · body) machine.logQueries_nil.symm
  | .arm next =>
    rw [Alternative.run, Alternative.branches]
    exact next.run_eq_runBranches machine
termination_by structural otherwise

end

/-- Branches run as the chosen one, behind the questions of all that were tried. -/
theorem runBranches_eq_chosen (machine : Machine σ) (branches : List Branch) :
    runBranches machine branches =
      match chosen? machine.surroundings branches with
      | some branch => runStatements (machine.logQueries
          ((tried machine.surroundings branches).flatMap fun branch =>
            (branch.truth machine.surroundings).notes)) branch.body
      | none => ⟨.proceed, machine.logQueries
          ((tried machine.surroundings branches).flatMap fun branch =>
            (branch.truth machine.surroundings).notes)⟩ := by
  induction branches generalizing machine with
  | nil => rw [runBranches]; exact congrArg (Outcome.mk _) machine.logQueries_nil.symm
  | cons branch later ih =>
    rw [chosen?, tried, List.find?_cons, List.findIdx_cons]
    cases hholds : (branch.truth machine.surroundings).value with
    | true =>
      rw [runBranches_of_holds hholds]
      simp
    | false =>
      -- The questions of a test leave variables and signal as they are for the next one.
      rw [runBranches_of_fails hholds]
      simp only [cond_false, List.take_succ_cons, List.flatMap_cons,
        ← Machine.logQueries_logQueries]
      rw [ih]
      rfl

/-- An arm does what the body of the first branch that holds does, once the conditions up to that
branch have been tested. -/
theorem Arm.run_eq_chosen (machine : Machine σ) (arm : Arm) :
    arm.run machine =
      match chosen? machine.surroundings arm.branches with
      | some branch => runStatements (machine.logQueries
          ((tried machine.surroundings arm.branches).flatMap fun branch =>
            (branch.truth machine.surroundings).notes)) branch.body
      | none => ⟨.proceed, machine.logQueries
          ((tried machine.surroundings arm.branches).flatMap fun branch =>
            (branch.truth machine.surroundings).notes)⟩ := by
  rw [arm.run_eq_runBranches, runBranches_eq_chosen]

/-! ### Ways to a `RETURN` -/

/-- A way to a statement in a body. -/
inductive Way
  /-- It is the first statement. -/
  | here
  /-- The way goes past a statement. -/
  | behind (statement : Statement) (way : Way)
  /-- The way goes past branches of the chain that comes first, and into the body of the next. -/
  | into (passed : List Branch) (guard : Option Condition) (way : Way)

namespace Way

/-- The number of points that a way goes past. -/
def place : Way → Nat
  | here => 0
  | behind statement way => statement.points.length + way.place
  | into passed guard way =>
    (passed.flatMap Branch.points).length + guard.toList.length + way.place

/-- The way leads to an assignment in a body. What stands behind the way may be anything. -/
inductive Leads (assignment : Assignment) : Way → List Statement → Prop
  | here {back : List Statement} : Leads assignment .here (.assign assignment :: back)
  | behind {way : Way} {statement : Statement} {rest : List Statement}
    (h : Leads assignment way rest) : Leads assignment (.behind statement way) (statement :: rest)
  | into {way : Way} {arm : Arm} {passed later : List Branch} {guard : Option Condition}
    {inner back : List Statement} (h : Leads assignment way inner)
    (hbranches : arm.branches = passed ++ ⟨guard, inner⟩ :: later) :
    Leads assignment (.into passed guard way) (.choose arm :: back)

end Way

/-- The run of a body that traces its points from `place` on returns at the end of a way, and does
the same in every body that the way leads through. -/
structure Way.Ends (machine : Machine σ) (place : Nat) (assignment : Assignment) (way : Way)
    (body : List Statement) : Prop where
  leads : way.Leads assignment body
  last : (traceOf machine place body).getLast? = some (.stopped assignment, place + way.place)
  same : ∀ other, way.Leads assignment other →
    runStatements machine other = runStatements machine body

/-- The run of branches, with a given trace, returns at the end of a way into one of them. -/
structure Way.EndsIn (machine : Machine σ) (place : Nat) (assignment : Assignment)
    (passed : List Branch) (guard : Option Condition) (way : Way) (branches : List Branch)
    (trace : List (Event × Nat)) : Prop where
  leads : ∃ inner later, branches = passed ++ ⟨guard, inner⟩ :: later ∧ way.Leads assignment inner
  last : trace.getLast? = some (.stopped assignment, place + (Way.into passed guard way).place)
  same : ∀ inner later, way.Leads assignment inner →
    runBranches machine (passed ++ ⟨guard, inner⟩ :: later) = runBranches machine branches

namespace Way

variable {machine : Machine σ} {place : Nat} {assignment : Assignment} {way : Way}
  {body rest : List Statement} {condition : Condition} {guard : Option Condition}
  {branches passed : List Branch} {trace : List (Event × Nat)} {arm : Arm}

theorem getLast?_cons {last : Event × Nat} (h : trace.getLast? = some last) (entry : Event × Nat) :
    (entry :: trace).getLast? = some last := by
  rw [List.getLast?_cons, h, Option.getD_some]

/-! How a way out of an inner body goes on. -/

theorem Ends.ofElse (h : way.Ends machine place assignment body) :
    EndsIn machine place assignment [] none way [⟨none, body⟩] (traceOf machine place body) where
  leads := ⟨body, [], rfl, h.leads⟩
  last := by
    rw [h.last]
    simp [Way.place]
  same inner later hinner := by
    have hnone (inner : List Statement) (later : List Branch) :
        runBranches machine (⟨none, inner⟩ :: later) = runStatements machine inner := by
      rw [runBranches_of_holds rfl]
      exact congrArg (runStatements · inner) machine.logQueries_nil
    rw [List.nil_append, hnone, hnone, h.same inner hinner]

theorem Ends.ofArm (hholds : (condition.truth machine.surroundings).value = true)
    (h : way.Ends (machine.logQueries (condition.truth machine.surroundings).notes) (place + 1)
      assignment body) (entry : Event × Nat) :
    EndsIn machine place assignment [] (some condition) way (⟨some condition, body⟩ :: branches)
      (entry :: traceOf (machine.logQueries (condition.truth machine.surroundings).notes)
        (place + 1) body) where
  leads := ⟨body, branches, rfl, h.leads⟩
  last := by
    rw [getLast?_cons h.last]
    simp [Way.place, Nat.add_assoc]
  same inner later hinner := by
    have hbranch (inner : List Statement) :
        (Branch.truth machine.surroundings ⟨some condition, inner⟩).value = true := hholds
    rw [List.nil_append, runBranches_of_holds (hbranch inner), runBranches_of_holds (hbranch body)]
    exact h.same inner hinner

/-- A branch whose condition fails is passed, and its points with it. -/
theorem EndsIn.behind (hfails : (condition.truth machine.surroundings).value = false)
    (h : EndsIn (machine.logQueries (condition.truth machine.surroundings).notes)
      (place + 1 + (pointsOf body).length) assignment passed guard way branches trace)
    (entry : Event × Nat) :
    EndsIn machine place assignment (⟨some condition, body⟩ :: passed) guard way
      (⟨some condition, body⟩ :: branches) (entry :: trace) where
  leads := by
    obtain ⟨inner, later, rfl, hinner⟩ := h.leads
    exact ⟨inner, later, rfl, hinner⟩
  last := by
    rw [getLast?_cons h.last]
    simp [Way.place, Branch.points]
    omega
  same inner later hinner := by
    have hbranch : (Branch.truth machine.surroundings ⟨some condition, body⟩).value = false :=
      hfails
    rw [List.cons_append, runBranches_of_fails hbranch, runBranches_of_fails hbranch]
    exact h.same inner later hinner

theorem Ends.here (hstopped : assignment.event machine = .stopped assignment)
    (hflow : (assignment.run machine).flow = .returned) :
    Way.here.Ends machine place assignment (.assign assignment :: rest) where
  leads := .here
  last := by
    simp [traceOf, Statement.trace, Statement.run, hflow, hstopped, Way.place]
  same other hother := by
    cases hother with
    | here => simp only [runStatements, Statement.run, hflow]

theorem EndsIn.into (hflow : (arm.run machine).flow = .returned)
    (h : EndsIn machine place assignment passed guard way arm.branches (arm.trace machine place)) :
    (Way.into passed guard way).Ends machine place assignment (.choose arm :: rest) where
  leads := by
    obtain ⟨inner, later, hbranches, hinner⟩ := h.leads
    exact .into hinner hbranches
  last := by
    simp only [traceOf, Statement.trace, Statement.run, hflow, List.append_nil]
    exact h.last
  same other hother := by
    cases hother with
    | @into _ arm' _ later _ inner _ hinner hbranches =>
      have hsame : arm'.run machine = arm.run machine := by
        rw [arm'.run_eq_runBranches, hbranches, h.same inner later hinner, arm.run_eq_runBranches]
      simp only [runStatements, Statement.run, hsame, hflow]

theorem Ends.behind {statement : Statement} (hflow : (statement.run machine).flow = .proceed)
    (h : way.Ends (statement.run machine).machine (place + statement.points.length) assignment
      rest) :
    (Way.behind statement way).Ends machine place assignment (statement :: rest) where
  leads := .behind h.leads
  last := by
    simp only [traceOf, hflow]
    rw [List.getLast?_append, h.last, Option.some_or, Way.place, Nat.add_assoc]
  same other hother := by
    cases hother with
    | behind hrest =>
      simp only [runStatements, hflow]
      exact h.same _ hrest

end Way

/-- An assignment at which a run returns was stopped. -/
theorem Assignment.event_of_returned {machine : Machine σ} {assignment : Assignment}
    (h : (assignment.run machine).flow = .returned) :
    assignment.event machine = .stopped assignment := by
  rw [Assignment.run] at h
  rw [Assignment.event]
  cases hvalue : (Chain.value machine.surroundings assignment.chain 0).value with
  | some value =>
    rw [hvalue] at h
    cases h
  | none => rfl

mutual

/-- If a chain of arms returns, a way leads into one of its branches and ends there. -/
theorem Arm.exists_way_of_returned (machine : Machine σ) (place : Nat) (arm : Arm)
    (h : (arm.run machine).flow = .returned) : ∃ assignment passed guard way,
      Way.EndsIn machine place assignment passed guard way arm.branches
        (arm.trace machine place) := by
  match arm with
  | .mk condition body otherwise =>
    rw [Arm.run] at h
    rw [Arm.branches, Arm.trace]
    cases hholds : (condition.truth machine.surroundings).value with
    | true =>
      rw [hholds] at h
      obtain ⟨assignment, way, hway⟩ := exists_way_of_returned _ (place + 1) body h
      exact ⟨assignment, [], some condition, way, hway.ofArm hholds _⟩
    | false =>
      rw [hholds] at h
      obtain ⟨assignment, passed, guard, way, hway⟩ :=
        otherwise.exists_way_of_returned _ (place + 1 + (pointsOf body).length) h
      exact ⟨assignment, _, guard, way, hway.behind hholds _⟩
termination_by structural arm

theorem Alternative.exists_way_of_returned (machine : Machine σ) (place : Nat)
    (otherwise : Alternative) (h : (otherwise.run machine).flow = .returned) :
    ∃ assignment passed guard way, Way.EndsIn machine place assignment passed guard way
      otherwise.branches (otherwise.trace machine place) := by
  match otherwise with
  | .done => cases h
  | .always body =>
    obtain ⟨assignment, way, hway⟩ := SignalScript.exists_way_of_returned machine place body h
    exact ⟨assignment, [], none, way, hway.ofElse⟩
  | .arm next => exact next.exists_way_of_returned machine place h
termination_by structural otherwise

/-- A run that returns does so at the end of a way, and nothing behind the way matters. -/
theorem exists_way_of_returned (machine : Machine σ) (place : Nat) (body : List Statement)
    (h : (runStatements machine body).flow = .returned) :
    ∃ assignment way, Way.Ends machine place assignment way body := by
  match body with
  | [] => cases h
  | statement :: rest =>
    rw [runStatements] at h
    cases hflow : (statement.run machine).flow with
    | proceed =>
      rw [hflow] at h
      obtain ⟨assignment, way, hway⟩ := exists_way_of_returned _ _ rest h
      exact ⟨assignment, .behind statement way, hway.behind hflow⟩
    | returned =>
      match statement with
      | .assign assignment =>
        exact ⟨assignment, .here, .here (Assignment.event_of_returned hflow) hflow⟩
      | .choose arm =>
        obtain ⟨assignment, passed, guard, way, hway⟩ :=
          arm.exists_way_of_returned machine place hflow
        exact ⟨assignment, .into passed guard way, hway.into hflow⟩
termination_by structural body

end

end SignalScript
