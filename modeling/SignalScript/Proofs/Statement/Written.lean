import SignalScript.Proofs.Text.Trimming
import SignalScript.Proofs.Text.Bracket
import SignalScript.Statement.Reading

/-!
# Written programs

A program as its author writes it: sentences, blocks in braces, and chains of arms, together with
every choice that the layout leaves open. A sentence or a guard may be broken over lines at single
spaces, the body of an arm may be braced or a single sentence or chain, which then stands behind the
head or on the next line, and there are three ways to write a further arm. From such a program
follow both the lines that it fills and the statements that it means.

## Main definitions

* `Written.Sentence`, `Written.Guard` — statements and conditions broken over lines
* `Written.Item`, `Written.Arm`, `Written.Body`, `Written.Otherwise` — the tree
* `Written.linesOf` — the lines of a program
* `Written.meaningOf` — the statements that a program means, with the causes of complaint in it
* `Written.isClear` — every `ELSE` has one arm it can belong to
-/

namespace SignalScript

namespace Written

/-- Brings a text up behind the last of some lines. -/
def extendLast (tail : Text) : List Text → List Text
  | [] => [tail]
  | [line] => [line ++ tail]
  | line :: next :: more => line :: extendLast tail (next :: more)

/-- Where a body stands that has no braces. -/
inductive Place
  /-- Behind the head of its arm. -/
  | sameLine
  | nextLine
  deriving DecidableEq, Repr

/-- The lines in front with further lines in this place behind them. -/
def Place.attach (front : List Text) : Place → List Text → List Text
  | .sameLine, first :: later => extendLast (' ' :: first) front ++ later
  | .sameLine, [] => front
  | .nextLine, lines => front ++ lines

/-- A text that is broken over lines at single spaces. -/
structure Broken where
  first : Text
  later : List Text
  tight : ∀ piece ∈ first :: later, piece.IsTight

namespace Broken

/-- The parts of the text, one for each line. -/
def pieces (broken : Broken) : List Text := broken.first :: broken.later

/-- The text with its spaces put back. -/
def text (broken : Broken) : Text := Text.joinedBy [' '] broken.pieces

end Broken

/-- The character is a semicolon or a brace. -/
def isDelimiter (c : Char) : Bool := c = ';' || c = '{' || c = '}'

theorem plain_of_all {text : Text} (h : text.all (fun c => !isDelimiter c) = true) :
    ∀ c ∈ text, isDelimiter c = false := by
  simpa using h

/-- A statement, without the semicolon behind it. -/
structure Sentence extends Broken where
  plain : ∀ c ∈ toBroken.text, isDelimiter c = false
  not_if : isIf toBroken.text = false
  not_else : "ELSE".toList.isPrefixOf toBroken.text = false
  continues : ∀ line ∈ (extendLast [';'] toBroken.pieces).tail, isStructural line = false

/-- The lines of a statement with its semicolon. -/
def Sentence.lines (sentence : Sentence) : List Text := extendLast [';'] sentence.pieces

/-- The condition of an arm with the brackets around it. -/
structure Guard extends Broken where
  condition : Text
  spells : toBroken.text = '(' :: (condition ++ [')'])
  balanced : condition.IsBalanced
  plain : ∀ c ∈ condition, isDelimiter c = false

/-- The ways to begin a further arm. -/
inductive Spelling
  /-- `ELSEIF` -/
  | joined
  /-- `ELSE IF` -/
  | spaced
  /-- `ELSE`, and `IF` on the next line -/
  | stacked
  deriving DecidableEq, Repr

/-- The lines in front of the guard of a further arm. -/
def Spelling.opening : Spelling → List Text
  | .joined => ["ELSEIF".toList]
  | .spaced => ["ELSE IF".toList]
  | .stacked => ["ELSE".toList, "IF".toList]

mutual

/-- An element of a program. -/
inductive Item
  | sentence (sentence : Sentence)
  /-- A block that belongs to no arm. -/
  | block (items : List Item)
  | choose (first : Arm)

/-- A guard with its body and what follows them. -/
inductive Arm
  | mk (guard : Guard) (body : Body) (otherwise : Otherwise)

/-- The body of an arm or of an `ELSE`. -/
inductive Body
  | braced (items : List Item)
  | sentence (place : Place) (sentence : Sentence)
  | choose (place : Place) (first : Arm)

/-- What follows an arm. -/
inductive Otherwise
  | done
  | always (body : Body)
  | arm (spelling : Spelling) (next : Arm)

end

/-- Where the body stands; the brace of a block is on a line of its own. -/
def Body.place : Body → Place
  | .braced _ => .nextLine
  | .sentence place _ => place
  | .choose place _ => place

mutual

/-- The lines of an element. -/
def Item.lines : Item → List Text
  | .sentence sentence => sentence.lines
  | .block items => ['{'] :: (linesOf items ++ [['}']])
  | .choose first => first.lines ["IF".toList]

/-- The lines of an arm whose guard stands behind `opening`. -/
def Arm.lines (opening : List Text) : Arm → List Text
  | .mk guard body otherwise =>
    body.place.attach (Place.sameLine.attach opening guard.pieces) body.lines ++ otherwise.lines

/-- The lines of a body. -/
def Body.lines : Body → List Text
  | .braced items => ['{'] :: (linesOf items ++ [['}']])
  | .sentence _ sentence => sentence.lines
  | .choose _ first => first.lines ["IF".toList]

/-- The lines of what follows an arm. -/
def Otherwise.lines : Otherwise → List Text
  | .done => []
  | .always body => body.place.attach ["ELSE".toList] body.lines
  | .arm spelling next => next.lines spelling.opening

/-- The lines of a program. -/
def linesOf : List Item → List Text
  | [] => []
  | item :: more => item.lines ++ linesOf more

end

mutual

/-- The statements that an element means. -/
def Item.meaning (locals : List Text) : Item → Checked (List Statement)
  | .sentence sentence => do
    let assignment ← Assignment.read locals 0 sentence.text
    pure (assignment.toList.map .assign)
  | .block items => meaningOf locals items
  | .choose first => do
    let arm ← first.meaning locals
    pure [.choose arm]

/-- The arm that is meant. -/
def Arm.meaning (locals : List Text) : Arm → Checked SignalScript.Arm
  | .mk guard body otherwise => do
    let condition ← Condition.read locals ("IF ".toList ++ guard.text)
    let statements ← body.meaning locals
    let alternative ← otherwise.meaning locals
    pure (.mk condition statements alternative)

/-- The statements that a body means. -/
def Body.meaning (locals : List Text) : Body → Checked (List Statement)
  | .braced items => meaningOf locals items
  | .sentence _ sentence => do
    let assignment ← Assignment.read locals 0 sentence.text
    pure (assignment.toList.map .assign)
  | .choose _ first => do
    let arm ← first.meaning locals
    pure [.choose arm]

/-- What is meant to follow an arm. -/
def Otherwise.meaning (locals : List Text) : Otherwise → Checked Alternative
  | .done => pure .done
  | .always body => do
    let statements ← body.meaning locals
    pure (.always statements)
  | .arm _ next => do
    let arm ← next.meaning locals
    pure (.arm arm)

/-- The statements that a program means, with the causes of complaint in it. A block stands for the
statements in it. -/
def meaningOf (locals : List Text) : List Item → Checked (List Statement)
  | [] => pure []
  | item :: more => do
    let first ← item.meaning locals
    let later ← meaningOf locals more
    pure (first ++ later)

end

mutual

/-- The arms that begin here end with an `ELSE`. -/
def Arm.endsWithElse : Arm → Bool
  | .mk _ _ otherwise => otherwise.endsWithElse

/-- What follows the arm ends with an `ELSE`. -/
def Otherwise.endsWithElse : Otherwise → Bool
  | .done => false
  | .always _ => true
  | .arm _ next => next.endsWithElse

end

/-- An `ELSE` behind the body would belong to an arm in it. -/
def Body.takesElse : Body → Bool
  | .choose _ first => !first.endsWithElse
  | _ => false

/-- Nothing more belongs to the arm. -/
def Otherwise.isDone : Otherwise → Bool
  | .done => true
  | _ => false

/-- The body is a chain of arms without braces. -/
def Body.isChoice : Body → Bool
  | .choose _ _ => true
  | _ => false

mutual

/-- Every `ELSE` in the element has one arm it can belong to. -/
def Item.isClear : Item → Bool
  | .sentence _ => true
  | .block items => isClear items
  | .choose first => first.isClear

/-- No body takes an `ELSE` away from the arm around it. -/
def Arm.isClear : Arm → Bool
  | .mk _ body otherwise =>
    body.isClear && otherwise.isClear && (otherwise.isDone || !body.takesElse)

/-- Every `ELSE` in the body has one arm it can belong to. -/
def Body.isClear : Body → Bool
  | .braced items => isClear items
  | .sentence _ _ => true
  | .choose _ first => first.isClear

/-- A chain of arms behind `ELSE` has braces around it; without them it would be a further arm. -/
def Otherwise.isClear : Otherwise → Bool
  | .done => true
  | .always body => body.isClear && !body.isChoice
  | .arm _ next => next.isClear

/-- Every `ELSE` in the program has one arm it can belong to. -/
def isClear : List Item → Bool
  | [] => true
  | item :: more => item.isClear && isClear more

end

end Written

end SignalScript
