import SignalScript.SortedMap
import SignalScript.Run.Host

/-!
# Signals in fixed surroundings

A signal whose surroundings are given by tables: one entry for each signal function, one for each
feature, and the draw states of some aspects. A question about an index that a table does not
have is answered by the stop aspect, by no head, or by no.

## Main definitions

* `FixedSignal` — the signal and its tables
* the instance of `SignalHost` that answers from the tables
-/

namespace SignalScript

/-! ### The order of aspects -/

instance instTransInt32 : @Trans Int32 Int32 Int32 (· < ·) (· < ·) (· < ·) where
  trans := Int32.lt_trans

instance instTrichotomousInt32 : @Std.Trichotomous Int32 (· < ·) where
  trichotomous _ _ hlt hgt := Int32.le_antisymm (Int32.not_lt.mp hgt) (Int32.not_lt.mp hlt)

/-! ### Signals -/

/-- A signal in fixed surroundings. -/
structure FixedSignal where
  state : Int32
  drawState : Int32
  enabled : Bool
  blockState : Int32
  routeSet : Bool
  /-- The aspect of the next signal ahead, by signal function. -/
  nextSignals : Vector Int32 5
  /-- The aspect of the own head, by signal function. -/
  thisSignals : Vector (Option Int32) 5
  /-- The aspect of the next signal that faces the other way, by signal function. -/
  oppositeSignals : Vector Int32 5
  features : Vector Bool 10
  /-- The draw states of aspects. -/
  drawStates : SortedMap Int32 Int32
  deriving DecidableEq, Repr

namespace FixedSignal

/-- A signal that shows stop, with nothing around it. -/
def blank : FixedSignal where
  state := 0
  drawState := 0
  enabled := false
  blockState := 0
  routeSet := false
  nextSignals := Vector.replicate 5 0
  thisSignals := Vector.replicate 5 none
  oppositeSignals := Vector.replicate 5 0
  features := Vector.replicate 10 false
  drawStates := SortedMap.empty

/-- The entry of a table at an index, or `missing` if the table has none. -/
def entry {α : Type} {n : Nat} (table : Vector α n) (index : Int32) (missing : α) : α :=
  if index < 0 then missing else table[index.toInt.toNat]?.getD missing

/-- Questions are answered from the tables; a setting changes the state or the draw state alone. -/
instance : SignalHost FixedSignal where
  state := state
  drawState := drawState
  enabled := enabled
  blockState := blockState
  routeSet := routeSet
  nextSignal signal _ function := entry signal.nextSignals function stopAspect
  thisSignal signal _ function := entry signal.thisSignals function none
  oppositeSignal signal _ function := entry signal.oppositeSignals function stopAspect
  signalRun signal along _ := entry signal.nextSignals along stopAspect
  feature signal index := entry signal.features index false
  defaultDrawState signal aspect := (signal.drawStates.get? aspect).getD (-1)
  setState signal value := { signal with state := value }
  setDrawState signal value := { signal with drawState := value }

end FixedSignal

end SignalScript
