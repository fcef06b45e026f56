import Std.Time.Zoned
import TieredMemory.Shell

/-!
# The command line

The variables of the environment, a file of variables and the arguments say what is to be done, and
what the user types goes to the shell line by line. Before each line the clock of the memory is
moved on to the local clock, so that the work in the background is done by then. Notices go to the
standard error output and to a file. The archive's table lasts as long as the program runs, and
there is no backend behind the model service: every call of a model fails.
-/

namespace TieredMemory.CommandLine

/-- The name of the file of variables. -/
def variablesFile : String := ".env"

/-- The variables of the environment that are looked at. -/
def variableNames : List String :=
  Settings.names.map (fun n => (Settings.variableName n).toUpper)
    ++ Registry.standard.models.filterMap Model.keyVariable
    ++ Registry.standard.models.filterMap Model.addressVariable

/-- The variables that are set. -/
def readEnvironment : IO Environment :=
  variableNames.eraseDups.filterMapM fun n => do
    return (← IO.getEnv n).map fun v => (n, v)

/-- The text of a file, if there is one. -/
def readText? (path : String) : IO (Option String) := do
  try return some (← IO.FS.readFile path) catch _ => return none

/-- The time on the local clock. -/
def currentTime : IO Time := do
  let t ← Std.Time.PlainDateTime.now
  let m : Moment := {
    year := t.year.toInt.toNat, month := t.month.val.toNat, day := t.day.val.toNat
    hour := t.hour.val.toNat, minute := t.minute.val.toNat, second := t.second.val.toNat
    micro := (t.nanosecond.val / 1000).toNat }
  return m.toTime

/-! ### The log -/

/-- The message of a notice. -/
def messageOf (n : Notice) : Logging.Message where
  level := if n.isError then 40 else Logging.warning
  source := (Text.pieces "." n.source).drop 1 |> ".".intercalate
  text := n.text Fault.message

/-- Write notices, given latest first, to the log. -/
def report (setup : Logging.Setup) (path : Path) (now : Time) (notices : List Notice) : IO Unit :=
  do
  let m := Moment.ofTime now
  let stamp := m.toMinute ++ ":" ++ Decimal.padded 2 m.second
  for line in setup.lines (notices.reverse.map messageOf) do
    IO.eprintln (stamp ++ line)
    let file ← IO.FS.Handle.mk path.shown .append
    file.putStrLn (stamp ++ line)

/-! ### The shell -/

/-- Let the memory catch up with the local clock. -/
def catchUp (s : Shell) : IO Shell := do
  let now ← currentTime
  return { s with memory := s.memory.wait (max (now - s.memory.now) 0) }

/-- Write the notices of a shell to the log. -/
def flushNotices (setup : Logging.Setup) (path : Path) (s : Shell) : IO Shell := do
  report setup path s.memory.now s.memory.world.notices
  return { s with memory := { s.memory with world := { s.memory.world with notices := [] } } }

/-- Handle one line after another until the user ends the shell, and say whether it ended well. -/
partial def converse (setup : Logging.Setup) (path : Path) (input output : IO.FS.Stream)
    (s : Shell) :
    IO Bool := do
  output.putStr "> "
  output.flush
  let line ← input.getLine
  if line.isEmpty then return true
  let (answer, s) := (← catchUp s).handle line
  let s ← flushNotices setup path s
  match answer with
  | .error why =>
    IO.eprintln why.message
    return false
  | .ok (text, goesOn) =>
    output.putStr text
    if goesOn then converse setup path input output s else return true

/-- Run a shell over a conversation. -/
def runShell (setup : Logging.Setup) (path : Path) (s : Settings) (env : Environment)
    (user conversation : String) : IO UInt32 := do
  match Command.openShell s env [] { now := ← currentTime } user conversation with
  | .error why =>
    IO.eprintln why.message
    return 1
  | .ok (.error (text, status)) =>
    IO.print text
    return status.toUInt32
  | .ok (.ok (text, shell)) =>
    IO.print text
    let endedWell ← converse setup path (← IO.getStdin) (← IO.getStdout) shell
    if endedWell then IO.print Shell.farewell
    return if endedWell then 0 else 1

/-- Run a command other than the shell. -/
def runOther (c : Command) (s : Settings) (env : Environment) : IO UInt32 := do
  match c.run s env [] { now := ← currentTime } [] with
  | .error why =>
    IO.eprintln why.message
    return 1
  | .ok (text, status) =>
    IO.print text
    return status.toUInt32

/-- Do what the arguments ask for. -/
def run (args : List String) (s : Settings) (env : Environment) : IO UInt32 := do
  match Logging.setup (Command.logLevel args s) true with
  | .error why =>
    IO.eprintln why.message
    return 1
  | .ok setup =>
    IO.FS.createDirAll s.dataDir.shown
    match Command.ofArguments args with
    | .shell user conversation =>
      runShell setup (s.dataDir.join (Path.ofText "mnemo.log")) s env user conversation
    | c => runOther c s env

end TieredMemory.CommandLine

/-- Read the settings and do what the arguments ask for. -/
def main (args : List String) : IO UInt32 := do
  let env ← TieredMemory.CommandLine.readEnvironment
  let file ← TieredMemory.CommandLine.readText? TieredMemory.CommandLine.variablesFile
  match TieredMemory.Settings.ofSources env file with
  | .error bad =>
    IO.eprintln ("Bad settings: " ++ ", ".intercalate bad)
    return 1
  | .ok s => TieredMemory.CommandLine.run args s env
