import SignalScript.Main
import SignalScript.Proofs.Script.ScriptForm
import SignalScript.Proofs.Statement.Structuring
import SignalScript.Proofs.Expression.ChainValue
import SignalScript.Proofs.Condition.ConditionTruth
import SignalScript.Proofs.Source.Scanner
import SignalScript.Proofs.Source.Appending
import SignalScript.Proofs.Statement.Renumbering
import SignalScript.Proofs.Script.Isolation
import SignalScript.Proofs.Signal.Registration
import SignalScript.Proofs.Statement.Causes
import SignalScript.Proofs.Statement.Gathering
import SignalScript.Proofs.Signal.Loading
import SignalScript.Proofs.Listing.Atom
import SignalScript.Proofs.Expression.LevelTree
import SignalScript.Proofs.Listing.Chain
import SignalScript.Proofs.Listing.Assignment
import SignalScript.Proofs.Listing.Condition
import SignalScript.Proofs.Source.Characters
import SignalScript.Proofs.Listing.Statement
import SignalScript.Proofs.Listing.Script
import SignalScript.Proofs.Run.Once
import SignalScript.Proofs.Fuel.Compilation
import SignalScript.Proofs.Statement.Guard
import SignalScript.Proofs.Condition.Completeness
import SignalScript.Proofs.Expression.CallForm
import SignalScript.Proofs.Run.Arithmetic
import SignalScript.Proofs.Statement.Attribution
import SignalScript.Proofs.Signal.OwnName
import SignalScript.Proofs.Expression.LevelRun
import SignalScript.Proofs.Listing.AtomReading
import SignalScript.Proofs.Listing.Rereading
import SignalScript.Proofs.Source.Utf16Encoding
import SignalScript.Proofs.Source.StoredText
import SignalScript.Proofs.Route.ConfigReading
import SignalScript.Proofs.Statement.Reports
import SignalScript.Proofs.Source.LineContent
import SignalScript.Proofs.CommandLine.GivenSignal
