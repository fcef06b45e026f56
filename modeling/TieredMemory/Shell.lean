import TieredMemory.Logging
import TieredMemory.Memory.Operations

/-!
# The shell

A shell over one conversation: a line is a command or a turn to be stored. What a line comes to is
text for the user and the memory after it.
-/

namespace TieredMemory

/-- A shell over a user's conversation. -/
structure Shell where
  user : String
  conversation : String
  memory : Memory

/-- What the user types. -/
inductive Input where
  | line (text : String)
  /-- The user breaks off. -/
  | interrupt
  deriving Repr, DecidableEq

namespace Shell

/-- What can be typed. -/
def help : String :=
  "Commands:\n  <text>            store a user turn\n" ++
  "  /assistant <text> store an assistant turn\n" ++
  "  /ask <query>      show the context a query would get\n" ++
  "  /patterns         list learned patterns\n" ++
  "  /maintain         prune facts and consolidate patterns\n" ++
  "  /forget <turn id> remove a turn\n  /exit             quit"

/-- The text before the memory is there. -/
def banner : String :=
  "Mnemo memory shell\n" ++ help ++ "\n" ++ String.ofList (List.replicate 40 '-') ++ "\n"

/-- The text of an error that the user has to see. -/
def errorText (why : Fault) : String := "Error: " ++ why.message ++ "\n\n"

/-- A fault that is shown to the user and does not end the shell. -/
def isShown : Fault → Bool
  | .rejected _ | .unavailable _ => true
  | _ => false

/-- A pattern on one line. -/
def patternLine (p : Pattern) : String :=
  s!"  {p.name} (uses: {p.usage}, threshold: {Decimal.fixed 2 p.threshold})\n"

/-- The text of a list of patterns. -/
def patternText (ps : List Pattern) : String :=
  (if ps.isEmpty then "No patterns learned yet.\n\n" else "") ++
    String.join (ps.map patternLine) ++ "\n"

/-- The text of a plan and a context. -/
def contextText (plan : Plan) (c : Context) : String :=
  let body := c.render
  s!"[{plan.intent.name} via {plan.settledBy.name}, ~{c.tokens} tokens]\n" ++
    (if body.isEmpty then "(no context)" else body) ++ "\n\n"

/-- Store a turn. -/
def storeTurn (role : Role) (text : String) (s : Shell) : Except Fault String × Shell :=
  let (id, world) := s.memory.world.newTurn
  let t : Turn := {
    id, user := s.user, conversation := s.conversation, role, text
    createdAt := world.now, importance := 0, flags := ⟨false, false, false⟩, entities := []
    embedding := none }
  let (written, memory) := { s.memory with world }.write s.user s.conversation t
  (written.map fun t => s!"Stored {t.id} (importance: {Decimal.fixed 2 t.importance})\n\n",
    { s with memory })

/-- The rest of a line after a command word. -/
def argument? (command line : String) : Option String :=
  let start := command ++ " "
  if Text.beginsWith start line then some (Text.dropFirst start.length line) else none

/-- Do what a trimmed line asks for. -/
def obey (line : String) (s : Shell) : Except Fault String × Shell :=
  if line = "/patterns" then
    (((s.memory.listPatterns s.user).mapError .rejected).map patternText, s)
  else if line = "/maintain" then
    let (report, memory) := s.memory.maintain s.user
    ((report.mapError .rejected).map
      fun r => s!"Pruned {r.pruned} facts, merged {r.merged} patterns.\n\n", { s with memory })
  else if let some id := argument? "/forget" line then
    let (removed, memory) := s.memory.forget s.user s.conversation (Text.trim id)
    (removed.map fun r => if r then "Forgotten.\n\n" else "No such turn.\n\n", { s with memory })
  else if let some query := argument? "/ask" line then
    let (found, memory) := s.memory.read s.user s.conversation (Text.trim query)
    (found.map fun (plan, c) => contextText plan c, { s with memory })
  else if let some text := argument? "/assistant" line then s.storeTurn .assistant text
  else s.storeTurn .user line

/-- The line ends the shell. -/
def isFarewell (line : String) : Bool := ["/exit", "exit", "quit", "q"].contains (Text.lower line)

/-- What a line comes to: text for the user, whether the shell goes on, and the shell after the work
in the background is done. -/
def handle (line : String) (s : Shell) : Except Fault (String × Bool) × Shell :=
  let line := Text.trim line
  if line.isEmpty then (.ok ("", true), s)
  else if isFarewell line then (.ok ("", false), s)
  else if line = "/help" then (.ok (help ++ "\n\n", true), s)
  else
    let (answer, s) := s.obey line
    let s := { s with memory := s.memory.drain }
    match answer with
    | .ok text => (.ok (text, true), s)
    | .error why => (if isShown why then .ok (errorText why, true) else .error why, s)

/-- The text when the user breaks off. -/
def interruptText : String := "\n\nShutting down...\n"

/-- The text at the end. -/
def farewell : String := "Goodbye!\n"

/-- What a list of inputs comes to. -/
def converse : List Input → Shell → Except Fault String
  | [], _ => .ok ""
  | .interrupt :: _, _ => .ok interruptText
  | .line l :: r, s =>
    match s.handle l with
    | (.error why, _) => .error why
    | (.ok (text, false), _) => .ok text
    | (.ok (text, true), s) => (converse r s).map fun rest => text ++ rest

end Shell

/-! ### Commands -/

/-- What a command line asks for. -/
inductive Command where
  | usage
  | init
  | shell (user conversation : String)
  | health
  | unknown (name : String)
  deriving Repr, DecidableEq

namespace Command

/-- The command of a list of arguments. The first mark for debugging is dropped. -/
def ofArguments (args : List String) : Command :=
  match args.erase "--debug" with
  | [] => usage
  | "init" :: _ => init
  | "shell" :: r => shell (r[0]?.getD "local") (r[1]?.getD "default")
  | "health" :: _ => health
  | name :: _ => unknown name

/-- The level of the log. -/
def logLevel (args : List String) (s : Settings) : Logging.LevelChoice :=
  if args.contains "--debug" then .number 10 else .named s.logLevel

/-- How to call the program. -/
def usageText : String :=
  "Usage: mnemo [--debug] <command> [user_id] [conversation_id]\nCommands: init, shell, health\n" ++
  "Flags: --debug (enable debug logging to data/mnemo.log)\n"

/-- What the program shows, and the status with which it ends. -/
abbrev Answer := String × Nat

/-- Begin a shell: the text so far, and the shell unless there is no memory for it. -/
def openShell (s : Settings) (environment : Environment) (completions : Script BackendAnswer)
    (w : World) (user conversation : String) : Except Fault (Except Answer (String × Shell)) :=
  match Memory.create s environment completions [] w with
  | .error why =>
    if Shell.isShown why then .ok (.error (Shell.banner ++ "Error: " ++ why.message ++ "\n", 1))
    else .error why
  | .ok memory =>
    match memory.start with
    | (.error why, _) => .error why
    | (.ok _, memory) => .ok (.ok (Shell.banner ++ "Ready.\n\n", ⟨user, conversation, memory⟩))

/-- The line of a model that can be called. -/
def modelLine (m : Model) : String := s!"  configured: {m.id} ({m.kind})\n"

/-- Whether the model service answers. -/
def healthCheck (s : Settings) (environment : Environment) (completions : Script BackendAnswer) :
    Except Fault Answer :=
  if s.completionModel.isEmpty then
    .ok ("No completion model configured; running with offline heuristics.\n", 0)
  else
    let start := "Checking collaborators...\n"
    let label := "  " ++ s.completionModel ++ ": "
    match Service.create Registry.standard environment s.completionModel (some s.embeddingModel)
        completions [] with
    | .error why => .ok (start ++ label ++ why.message ++ "\n", 1)
    | .ok service => do
      let models := String.join ((Registry.standard.available environment none).map modelLine)
      let (healthy, _, _) := service.isHealthy
      let healthy ← healthy
      return (start ++ models ++ label ++ (if healthy then "OK" else "UNAVAILABLE") ++ "\n",
        if healthy then 0 else 1)

/-- What a command comes to, given all that the user types. -/
def run (c : Command) (s : Settings) (environment : Environment)
    (completions : Script BackendAnswer) (w : World) (inputs : List Input) : Except Fault Answer :=
  match c with
  | usage => .ok (usageText, 1)
  | init => .ok (s!"Created: {s.dataDir.shown}\n", 0)
  | unknown name => .ok (s!"Unknown command: {name}\n", 1)
  | health => healthCheck s environment completions
  | shell user conversation => do
    match ← openShell s environment completions w user conversation with
    | .error answer => return answer
    | .ok (start, opened) => return (start ++ (← opened.converse inputs) ++ Shell.farewell, 0)

/-- The files that a command leaves below the place where it runs. -/
def files (c : Command) (s : Settings) : List Path :=
  let log := s.dataDir.join (Path.ofText "mnemo.log")
  let opensArchive := match c with
    | .shell .. => s.archiveBackend == "sqlite"
    | _ => false
  (log :: if opensArchive then [s.dbPath] else []).filter Path.isBelow

end Command

end TieredMemory
