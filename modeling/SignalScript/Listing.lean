import SignalScript.Statement
import SignalScript.Text.Decimal

/-!
# Listings

The listing of a script shows what the compiler understood: names resolved, groups in brackets,
one statement on a line. Statements are indented by the depth at which they stand.

## Main definitions

* `Chain.listing` — the terms of a level, with the groups in them
* `Condition.listing`, `listStatements` — conditions and statements
* `Script.listing` — the listing of a script
-/

namespace SignalScript

/-- The name of the variable in a slot. -/
def slotName (locals : List Text) (index : Nat) : Text :=
  match locals[index]? with
  | some name => name
  | none => '#' :: Decimal.writeNat index

/-- The listing of an operand. -/
def Operand.listing (locals : List Text) : Operand → Text
  | .constant value => Decimal.write value.toInt
  | .slot index => slotName locals index
  | .external v => v.name.toList
  | .named family value =>
    match family.memberName? value with
    | some member => family.stem.toList ++ member.toList
    | none => Decimal.write value.toInt

/-- The listing of a call. -/
def Call.listing (locals : List Text) (call : Call) : Text :=
  call.function.name.toList ++
    '(' :: Text.joinedBy ", ".toList (call.arguments.map (Operand.listing locals)) ++ [')']

/-- The listing of an atom. -/
def Atom.listing (locals : List Text) : Atom → Text
  | .operand o => o.listing locals
  | .call c => c.listing locals

/-- The operator of a term, between spaces unless the term is the first. -/
def operatorListing (isFirst : Bool) : Option Operator → Text
  | none => []
  | some op => if isFirst then [op.symbol] else [' ', op.symbol, ' ']

/-- An exclamation mark for what is negated. -/
def negationListing (negated : Bool) : Text := if negated then ['!'] else []

/-- The listing of terms side by side, when `factor` lists what a term contributes. -/
def listTerms (factor : Factor → Text) (isFirst : Bool) : List Term → Text
  | [] => []
  | term :: rest =>
    operatorListing isFirst term.operator ++ negationListing term.negated ++ factor term.factor ++
      listTerms factor false rest

/-- The listing of a level of a chain. Groups of a higher level are listed in their place; the
levels of a chain do not exceed its length. -/
def Chain.listing (locals : List Text) (chain : Chain) (level : Nat) : Text :=
  listTerms
    (fun factor =>
      match factor with
      | .atom atom => atom.listing locals
      | .ret => "RETURN".toList
      | .group id =>
        if level < id ∧ id ≤ chain.length then '(' :: Chain.listing locals chain id ++ [')']
        else "()".toList)
    true (chain.filter fun term => term.level = level)
termination_by chain.length - level

/-- The listing of one side of a test. -/
def Side.listing (locals : List Text) (side : Side) : Text :=
  negationListing side.negated ++ side.atom.listing locals

/-- The listing of a test. -/
def Test.listing (locals : List Text) : Test → Text
  | .single side => side.listing locals
  | .compare left comparator right =>
    left.listing locals ++ ' ' :: comparator.symbol.toList ++ ' ' :: right.listing locals

/-- The listing of a join. -/
def Join.listing : Join → Text
  | .and => "AND".toList
  | .or => "OR".toList

mutual

/-- The listing of an element of a condition. -/
def ConditionItem.listing (locals : List Text) : ConditionItem → Text
  | .test t => t.listing locals
  | .join j => j.listing
  | .negation => "NOT".toList
  | .group items => '(' :: Text.joinedBy [' '] (listItems locals items) ++ [')']

/-- The listings of the elements of a condition. -/
def listItems (locals : List Text) : List ConditionItem → List Text
  | [] => []
  | item :: rest => item.listing locals :: listItems locals rest

end

/-- The listing of a condition: its elements with spaces between them. -/
def Condition.listing (locals : List Text) (condition : Condition) : Text :=
  Text.joinedBy [' '] (listItems locals condition)

/-- A line at a depth, with its line feed. -/
def indented (depth : Nat) (line : Text) : Text := List.replicate (4 * depth) ' ' ++ line ++ ['\n']

/-- The listing of an assignment. -/
def Assignment.listing (locals : List Text) (assignment : Assignment) : Text :=
  (match assignment.target with
    | .external v => v.name.toList ++ " = ".toList
    | .slot index => slotName locals index ++ " = ".toList
    | .discard => []) ++
    Chain.listing locals assignment.chain 0

mutual

/-- The listing of a statement at a depth. -/
def Statement.listing (locals : List Text) (depth : Nat) : Statement → Text
  | .assign assignment => indented depth (assignment.listing locals)
  | .choose first =>
    first.listing locals depth "IF (" ++ indented depth "ENDIF".toList

/-- The listing of an arm and of what follows it; `opening` stands in front of its condition. -/
def Arm.listing (locals : List Text) (depth : Nat) (opening : String) : Arm → Text
  | .mk condition body otherwise =>
    indented depth (opening.toList ++ Condition.listing locals condition ++ [')']) ++
      listStatements locals (depth + 1) body ++ otherwise.listing locals depth

/-- The listing of what follows an arm. -/
def Alternative.listing (locals : List Text) (depth : Nat) : Alternative → Text
  | .done => []
  | .always body => indented depth "ELSE".toList ++ listStatements locals (depth + 1) body
  | .arm next => next.listing locals depth "ELSEIF ("

/-- The listing of statements at a depth. -/
def listStatements (locals : List Text) (depth : Nat) : List Statement → Text
  | [] => []
  | statement :: rest =>
    statement.listing locals depth ++ listStatements locals depth rest

end

/-- The declarations of local variables, from a slot on. -/
def listLocals (slot : Nat) : List Text → Text
  | [] => []
  | name :: rest =>
    indented 1 ("FLOAT ".toList ++ name ++ "  ; slot ".toList ++ Decimal.writeNat slot) ++
      listLocals (slot + 1) rest

/-- The listing of a script. -/
def Script.listing (script : Script) : Text :=
  indented 0 ("SCRIPT ".toList ++ script.name) ++ listLocals 0 script.locals ++
    listStatements script.locals 1 script.body

end SignalScript
