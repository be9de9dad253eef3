import SignalScript.Statement
import SignalScript.Run.Truth

/-!
# Running scripts

A run goes through the statements of a script once, in order. Of every chain of arms at most one
body runs: the first whose condition holds. A `RETURN` ends the run before the value of its
statement goes anywhere. Local variables start at zero.

## Main definitions

* `Flow` — whether a run goes on
* `Machine` — signal, local variables and log of a run
* `runStatements` — runs statements in order
* `Script.run` — runs a script once
-/

namespace SignalScript

/-- Whether a run goes on behind a statement. -/
inductive Flow
  | proceed
  /-- A `RETURN` was reached. -/
  | returned
  deriving DecidableEq, Repr

/-- A run under way. -/
structure Machine (σ : Type) where
  host : σ
  locals : List Int32
  /-- All accesses to the signal so far, oldest first. -/
  log : List Access
  deriving DecidableEq, Repr

/-- How a run ended, and what it left behind. -/
structure Outcome (σ : Type) where
  flow : Flow
  machine : Machine σ
  deriving DecidableEq, Repr

variable {σ : Type} [SignalHost σ]

namespace Machine

/-- What expressions see of a run. -/
def surroundings (machine : Machine σ) : Surroundings σ := ⟨machine.host, machine.locals⟩

/-- The run with further questions in its log. -/
def logQueries (machine : Machine σ) (queries : List Query) : Machine σ :=
  { machine with log := machine.log ++ queries.map .query }

/-- Sets the draw state or the aspect of the signal. -/
def setExternal (machine : Machine σ) (value : Int32) : ExternalVariable → Machine σ
  | .drawState =>
    { machine with
      host := SignalHost.setDrawState machine.host value
      log := machine.log ++ [.setDrawState value] }
  | _ =>
    { machine with
      host := SignalHost.setState machine.host value, log := machine.log ++ [.setState value] }

/-- Puts a value in its place. What a script may not set, and slots that do not exist, keep their
value. -/
def store (machine : Machine σ) (value : Int32) : Target → Machine σ
  | .external v => if v.isWritable then machine.setExternal value v else machine
  | .slot index => { machine with locals := machine.locals.set index value }
  | .discard => machine

end Machine

/-- Evaluates an assignment and puts its value in its place. -/
def Assignment.run (assignment : Assignment) (machine : Machine σ) : Outcome σ :=
  let value := Chain.value machine.surroundings assignment.chain 0
  let machine := machine.logQueries value.notes
  match value.value with
  | some value => ⟨.proceed, machine.store value assignment.target⟩
  | none => ⟨.returned, machine⟩

mutual

/-- Runs a statement. -/
def Statement.run (machine : Machine σ) : Statement → Outcome σ
  | .assign assignment => assignment.run machine
  | .choose first => first.run machine

/-- Runs the body of an arm if its condition holds, and what follows the arm otherwise. -/
def Arm.run (machine : Machine σ) : Arm → Outcome σ
  | .mk condition body otherwise =>
    let truth := Condition.truth machine.surroundings condition
    let machine := machine.logQueries truth.notes
    if truth.value then runStatements machine body else otherwise.run machine

/-- Runs what follows an arm whose condition does not hold. -/
def Alternative.run (machine : Machine σ) : Alternative → Outcome σ
  | .done => ⟨.proceed, machine⟩
  | .always body => runStatements machine body
  | .arm next => next.run machine

/-- Runs statements in order, up to a `RETURN`. -/
def runStatements (machine : Machine σ) : List Statement → Outcome σ
  | [] => ⟨.proceed, machine⟩
  | statement :: rest =>
    let outcome := statement.run machine
    match outcome.flow with
    | .proceed => runStatements outcome.machine rest
    | .returned => outcome

end

/-- Local variables that are all zero. -/
def Script.zeros (script : Script) : List Int32 := List.replicate script.locals.length 0

/-- Runs a script with given values of its local variables. -/
def Script.runWith (script : Script) (locals : List Int32) (host : σ) : Outcome σ :=
  runStatements ⟨host, locals, []⟩ script.body

/-- Runs a script once. -/
def Script.run (script : Script) (host : σ) : Outcome σ := script.runWith script.zeros host

end SignalScript
