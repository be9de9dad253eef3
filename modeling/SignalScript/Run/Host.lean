import SignalScript.Vocabulary
import SignalScript.Noted

/-!
# The signal behind a script

A script runs on behalf of one signal. It reads and sets two values of the signal, reads two
more, and asks about the signals around it. Every such access is kept in a log.

## Main definitions

* `SignalHost` — what a signal answers, and how its two values are set
* `Query`, `Query.answer` — a question with its arguments, and the number it is answered by
* `Access` — a question asked or a value set
* `Asked`, `ask` — a value with the questions asked for it
-/

namespace SignalScript

/-- The view that a script has of its signal. -/
class SignalHost (σ : Type) where
  /-- The aspect shown. -/
  state : σ → Int32
  /-- The draw state shown. -/
  drawState : σ → Int32
  /-- The dispatcher has enabled the signal. -/
  enabled : σ → Bool
  /-- The state of the block ahead. -/
  blockState : σ → Int32
  /-- The route ahead is set. -/
  routeSet : σ → Bool
  /-- The aspect of the next signal that serves a signal function. -/
  nextSignal : σ → Restriction → Int32 → Int32
  /-- The aspect of the own head that serves a signal function, if there is one. -/
  thisSignal : σ → Restriction → Int32 → Option Int32
  /-- The aspect of the next signal that faces the other way. -/
  oppositeSignal : σ → Restriction → Int32 → Int32
  /-- The most restrictive aspect of the signals of one function up to the next of another. -/
  signalRun : σ → Int32 → Int32 → Int32
  /-- The signal has a feature. -/
  feature : σ → Int32 → Bool
  /-- The draw state that belongs to an aspect. -/
  defaultDrawState : σ → Int32 → Int32
  setState : σ → Int32 → σ
  setDrawState : σ → Int32 → σ

/-- A question to a signal. -/
inductive Query
  | state
  | drawState
  | enabled
  | blockState
  | routeSet
  | nextSignal (which : Restriction) (function : Int32)
  | thisSignal (which : Restriction) (function : Int32)
  | oppositeSignal (which : Restriction) (function : Int32)
  | signalRun (along upTo : Int32)
  | feature (index : Int32)
  | defaultDrawState (aspect : Int32)
  deriving DecidableEq, Repr

/-- One for yes and zero for no. -/
def truthValue (b : Bool) : Int32 := if b then 1 else 0

/-- The number that a signal answers with: yes counts as one, no as zero, and a head that is not
there as minus one. -/
def Query.answer {σ : Type} [SignalHost σ] (host : σ) : Query → Int32
  | .state => SignalHost.state host
  | .drawState => SignalHost.drawState host
  | .enabled => truthValue (SignalHost.enabled host)
  | .blockState => SignalHost.blockState host
  | .routeSet => truthValue (SignalHost.routeSet host)
  | .nextSignal which function => SignalHost.nextSignal host which function
  | .thisSignal which function => (SignalHost.thisSignal host which function).getD (-1)
  | .oppositeSignal which function => SignalHost.oppositeSignal host which function
  | .signalRun along upTo => SignalHost.signalRun host along upTo
  | .feature index => truthValue (SignalHost.feature host index)
  | .defaultDrawState aspect => SignalHost.defaultDrawState host aspect

/-- A question asked or a value set. -/
inductive Access
  | query (query : Query)
  | setState (value : Int32)
  | setDrawState (value : Int32)
  deriving DecidableEq, Repr

/-- A value with the questions asked for it, oldest first. -/
abbrev Asked := Noted Query

/-- The answer to a question, which is noted. -/
def ask {σ : Type} [SignalHost σ] (host : σ) (query : Query) : Asked Int32 :=
  ⟨query.answer host, [query]⟩

end SignalScript
