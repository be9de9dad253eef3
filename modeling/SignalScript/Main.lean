import SignalScript.CommandLine.Program

/-!
# Entry point

Runs the program on the file system: prints what it leaves behind and exits with its code.
-/

namespace SignalScript

/-- A failure of the system as a read error. -/
def readError : IO.Error → ReadError
  | .noFileOrDirectory .. => .notFound
  | .inappropriateType .. => .isDirectory
  | error => .other (toString error)

/-- The storage of the file system. -/
def fileSystem : Storage IO where
  isPresent path := do
    let found ← (IO.FS.realPath path.string).toBaseIO
    pure found.isOk
  read path := do
    let bytes ← (IO.FS.readBinFile path.string).toBaseIO
    pure ((bytes.map fun b => b.toList).mapError readError)

/-- The path of the user's own configuration. -/
def userConfigPath : IO (Option Text) := do
  let named ← IO.getEnv "XDG_CONFIG_HOME"
  let home ← IO.getEnv "HOME"
  let directory :=
    match named, home with
    | some directory, home =>
      if "/".isPrefixOf directory then some directory else home.map (· ++ "/.config")
    | none, home => home.map (· ++ "/.config")
  pure (directory.map fun d => (d ++ "/sigscr/").toList ++ configFileName)

end SignalScript

open SignalScript in
/-- Runs the program with the arguments of the process. -/
def main (arguments : List String) : IO UInt32 := do
  let userConfig ← userConfigPath
  let completion ← runProgram fileSystem userConfig (arguments.map String.toList)
  IO.print completion.output
  IO.eprint completion.errors
  pure completion.code.toUInt32
