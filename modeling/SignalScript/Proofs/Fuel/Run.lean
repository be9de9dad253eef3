import SignalScript.Proofs.Fuel.Procedure
import SignalScript.Proofs.Run.Once

/-!
# Runs within fuel

The only recursion of a run that does not follow the tree of statements is that into the levels of a
chain: a term names the level to go on with. In a chain that was read, that level is higher than the
one that names it and no higher than the number of terms, so fuel above the number of terms is
enough, without a look at the level before it is entered.

## Main definitions

* `levelFolding` — folds a level of a chain, when someone else evaluates the levels it names
* `Script.runWithin` — runs a script within some fuel

## Main results

* `Chain.valueWithin_eq` — fuel above the number of terms is enough to evaluate a chain
* `Script.runWithin_eq` — fuel above the number of terms is enough to run a script
-/

namespace SignalScript

variable {σ : Type} [SignalHost σ]

/-! ### Chains -/

section Chains

/-- Folds terms, when the evaluation of a factor may run out of fuel. -/
def foldTermsWithin (factor : Factor → Limited Query (Option Int32)) (total : Int32) :
    List Term → Limited Query (Option Int32)
  | [] => pure (some total)
  | term :: rest => do
    match ← factor term.factor with
    | none => pure none
    | some value =>
      let value := if term.negated then flipped value else value
      foldTermsWithin factor (combined term.operator total value) rest

/-- Folds a level of a chain, when `self` evaluates the levels that its terms name. -/
def levelFolding (around : Surroundings σ) (chain : Chain) :
    Procedure Query Nat fun _ => Option Int32 :=
  fun self level =>
    foldTermsWithin
      (fun factor =>
        match factor with
        | .atom atom => do
          let value ← Limited.done (atom.value around)
          pure (some value)
        | .ret => pure none
        | .group id => self id)
      0 (chain.filter fun term => term.level = level)

/-- The value of a chain within some fuel. -/
def Chain.valueWithin (fuel : Nat) (around : Surroundings σ) (chain : Chain) :
    Limited Query (Option Int32) :=
  (levelFolding around chain).within fuel 0

/-- The levels that terms name are above their own and no more than there are terms. -/
def Chain.Descends (chain : Chain) : Prop :=
  ∀ term ∈ chain, ∀ id, term.factor = .group id → term.level < id ∧ id ≤ chain.length

variable {fuel : Nat} {around : Surroundings σ} {chain : Chain}

/-- Terms are folded within fuel, if each factor is evaluated within it. -/
theorem foldTermsWithin_eq {factorWithin : Factor → Limited Query (Option Int32)}
    {factor : Factor → Asked (Option Int32)} {terms : List Term}
    (h : ∀ term ∈ terms, factorWithin term.factor = .done (factor term.factor)) (total : Int32) :
    foldTermsWithin factorWithin total terms = .done (foldTerms factor total terms) := by
  induction terms generalizing total with
  | nil => rfl
  | cons term terms ih =>
    obtain ⟨hterm, hterms⟩ := List.forall_mem_cons.mp h
    rw [foldTermsWithin, foldTerms, hterm]
    refine Limited.done_bind_all fun value => ?_
    cases value with
    | none => rfl
    | some value => exact ih hterms _

/-- The groups of a chain descend, so fuel above the number of its terms is enough. -/
theorem Chain.valueWithin_eq (hchain : chain.Descends) (h : chain.length < fuel) :
    Chain.valueWithin fuel around chain = .done (Chain.value around chain 0) := by
  refine Procedure.within_eq (Chain.value around chain) (fun level => chain.length - level) ?_ 0 h h
  rintro level self - hself
  rw [levelFolding, Written.value_eq_foldTerms]
  refine foldTermsWithin_eq (fun term hterm => ?_) 0
  obtain ⟨hmem, hlevel⟩ := List.mem_filter.mp hterm
  cases hfactor : term.factor with
  | atom atom => exact Limited.done_bind_all fun _ => rfl
  | ret => rfl
  | group id =>
    obtain ⟨habove, hfit⟩ := hchain term hmem id hfactor
    rw [of_decide_eq_true hlevel] at habove
    rw [Written.factorValue, if_pos ⟨habove, hfit⟩]
    exact hself id (by omega)

/-- What is promised of a chain makes its levels descend. -/
theorem Chain.WellFormed.descends {locals : List Text} (h : chain.WellFormed locals) :
    chain.Descends := by
  intro term hterm id hfactor
  have hopens : term.opens? = some id := by rw [Term.opens?, hfactor]
  obtain ⟨count, hcount⟩ := h.opened
  have hlength := List.length_filterMap_le Term.opens? chain
  have hid : id ∈ chain.filterMap Term.opens? := List.mem_filterMap.mpr ⟨term, hterm, hopens⟩
  rw [hcount, List.length_range'] at hlength
  rw [hcount, List.mem_range'_1] at hid
  exact ⟨h.level_lt term hterm id hopens, by omega⟩

end Chains

/-! ### Statements -/

section Statements

variable (fuel : Nat)

/-- Runs an assignment, within some fuel for its chain. -/
def Assignment.runWithin (assignment : Assignment) (machine : Machine σ) : Option (Outcome σ) :=
  (Chain.valueWithin fuel machine.surroundings assignment.chain).noted?.map fun value =>
    let machine := machine.logQueries value.notes
    match value.value with
    | some value => ⟨.proceed, machine.store value assignment.target⟩
    | none => ⟨.returned, machine⟩

mutual

/-- Runs a statement within some fuel for each chain in it. -/
def Statement.runWithin (machine : Machine σ) : Statement → Option (Outcome σ)
  | .assign assignment => assignment.runWithin fuel machine
  | .choose first => first.runWithin machine

/-- Runs an arm, or what stands behind it. A condition has no chains and needs no fuel. -/
def Arm.runWithin (machine : Machine σ) : Arm → Option (Outcome σ)
  | .mk condition body otherwise =>
    let truth := Condition.truth machine.surroundings condition
    let machine := machine.logQueries truth.notes
    if truth.value then runStatementsWithin machine body else otherwise.runWithin machine

/-- Runs what stands behind an arm whose condition does not hold. -/
def Alternative.runWithin (machine : Machine σ) : Alternative → Option (Outcome σ)
  | .done => some ⟨.proceed, machine⟩
  | .always body => runStatementsWithin machine body
  | .arm next => next.runWithin machine

/-- Runs statements within some fuel for each chain in them. -/
def runStatementsWithin (machine : Machine σ) : List Statement → Option (Outcome σ)
  | [] => some ⟨.proceed, machine⟩
  | statement :: rest => do
    let outcome ← statement.runWithin machine
    match outcome.flow with
    | .proceed => runStatementsWithin outcome.machine rest
    | .returned => some outcome

end

/-- Runs a script within some fuel for each chain in it. -/
def Script.runWithin (script : Script) (host : σ) : Option (Outcome σ) :=
  runStatementsWithin fuel (script.start host) script.body

variable {fuel : Nat}

/-- Fuel is enough for the chain of an assignment. -/
def Assignment.FitsIn (fuel : Nat) (assignment : Assignment) : Prop :=
  assignment.chain.Descends ∧ assignment.chain.length < fuel

/-- Fuel is enough for all chains at the points of a script. -/
abbrev FitIn (fuel : Nat) (points : List Point) : Prop :=
  ∀ point ∈ points, point.Holds (Assignment.FitsIn fuel) fun _ => True

theorem Assignment.runWithin_eq {assignment : Assignment} (h : assignment.FitsIn fuel)
    (machine : Machine σ) : assignment.runWithin fuel machine = some (assignment.run machine) := by
  rw [Assignment.runWithin, Chain.valueWithin_eq h.1 h.2]
  rfl

mutual

/-- A statement runs within fuel that is enough for every chain in it. -/
theorem Statement.runWithin_eq (machine : Machine σ) (statement : Statement)
    (h : FitIn fuel statement.points) :
    statement.runWithin fuel machine = some (statement.run machine) := by
  match statement with
  | .assign assignment =>
    rw [Statement.points] at h
    rw [Statement.runWithin, Statement.run]
    exact Assignment.runWithin_eq (h _ List.mem_cons_self) machine
  | .choose first =>
    rw [Statement.points] at h
    rw [Statement.runWithin, Statement.run]
    exact first.runWithin_eq machine h
termination_by structural statement

theorem Arm.runWithin_eq (machine : Machine σ) (arm : Arm) (h : FitIn fuel arm.points) :
    arm.runWithin fuel machine = some (arm.run machine) := by
  match arm with
  | .mk condition body otherwise =>
    rw [Arm.points] at h
    obtain ⟨hbody, hotherwise⟩ := List.forall_mem_append.mp (List.forall_mem_cons.mp h).2
    rw [Arm.runWithin, Arm.run]
    split
    · exact runStatementsWithin_eq _ body hbody
    · exact otherwise.runWithin_eq _ hotherwise
termination_by structural arm

theorem Alternative.runWithin_eq (machine : Machine σ) (otherwise : Alternative)
    (h : FitIn fuel otherwise.points) :
    otherwise.runWithin fuel machine = some (otherwise.run machine) := by
  match otherwise with
  | .done => rfl
  | .always body =>
    rw [Alternative.points] at h
    rw [Alternative.runWithin, Alternative.run]
    exact runStatementsWithin_eq machine body h
  | .arm next =>
    rw [Alternative.points] at h
    rw [Alternative.runWithin, Alternative.run]
    exact next.runWithin_eq machine h
termination_by structural otherwise

/-- The statements of a body follow its tree, so fuel for each chain is enough for all. -/
theorem runStatementsWithin_eq (machine : Machine σ) (body : List Statement)
    (h : FitIn fuel (pointsOf body)) :
    runStatementsWithin fuel machine body = some (runStatements machine body) := by
  match body with
  | [] => rfl
  | statement :: rest =>
    rw [pointsOf] at h
    obtain ⟨hfirst, hrest⟩ := List.forall_mem_append.mp h
    rw [runStatementsWithin, runStatements, statement.runWithin_eq machine hfirst]
    simp only [Option.bind_eq_bind, Option.bind_some]
    cases hflow : (statement.run machine).flow with
    | proceed => exact runStatementsWithin_eq _ rest hrest
    | returned => rfl
termination_by structural body

end

end Statements

/-! ### Scripts -/

/-- The number of terms at a point. -/
def Point.terms : Point → Nat
  | .assign assignment => assignment.chain.length
  | .guard _ => 0

/-- The number of terms in the chains of a script. -/
def Script.terms (script : Script) : Nat := ((pointsOf script.body).map Point.terms).sum

/-- Fuel above the number of terms is enough to run a script whose chains were read. -/
theorem Script.runWithin_eq {script : Script} {locals : List Text} {fuel : Nat}
    (h : ∀ statement ∈ script.body, statement.IsRead locals) (hfuel : script.terms < fuel)
    (host : σ) : script.runWithin fuel host = some (script.run host) := by
  refine runStatementsWithin_eq _ _ fun point hpoint => ?_
  have hread := holds_pointsOf h point hpoint
  have hterms : point.terms ≤ script.terms := List.le_sum_of_mem (List.mem_map_of_mem hpoint)
  cases point with
  | guard condition => trivial
  | assign assignment =>
    obtain ⟨line, text, hassignment⟩ := hread
    exact ⟨(Assignment.wellFormed_read hassignment).chain.descends,
      Nat.lt_of_le_of_lt hterms hfuel⟩

end SignalScript
