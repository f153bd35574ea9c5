import Roster.Http.Handler
import Roster.Program
import Std.Time.DateTime.Timestamp
/-! # The command line program

The program serves requests from its standard input, one a line: a method, a target, and perhaps a
body in JSON, with one blank between two. It answers each with a status and a body on one line, and
logs to standard error. -/
namespace Roster.Console

def clock : IO Time.Timestamp := do
  let now := (← Std.Time.Timestamp.now).val
  return (Time.Timestamp.of? now.second.val now.nano.val.toNat).getD default

def freshId : IO String := do
  let mut digits : List Char := []
  for i in List.range 32 do
    let n ← if i = 12 then pure 4 else if i = 16 then IO.rand 8 11 else IO.rand 0 15
    digits := Nat.digitChar n :: digits
    if [7, 11, 15, 19].contains i then digits := '-' :: digits
  return .ofList digits.reverse

def readEnvironment : IO (String → Option String) := do
  let names := "RUST_LOG" :: CommandLine.Setting.all.map (·.envName)
  let values ← names.mapM fun n => do return (n, ← IO.getEnv n)
  return fun n => (values.lookup n).join

/-- The databases cannot be reached from here. -/
def unreachable : Postgres.Peers Unit where
  refusal := fun _ _ => some "no route to the database"
  answer := fun _ _ s => (.error "no route to the database", s)

def record (e : Event) : String :=
  (Json.object [("level", .text e.level.name),
    ("fields", .object (("message", .text e.message) :: e.fields.map fun f => (f.1, .text f.2))),
    ("span", .text ("/".intercalate e.spans))]).render

def line (e : Event) : String :=
  " ".intercalate ([e.level.name, e.message] ++ e.fields.map fun f => f.1 ++ "=" ++ f.2)

def emit (json : Bool) (events : List Event) : IO Unit :=
  events.forM fun e => IO.eprintln (if json then record e else line e)

def requestOfLine? (text : String) : Option Http.Request :=
  match (text.toList.filter fun c => c != '\n' && c != '\r').splitOn ' ' with
  | method :: target :: body =>
    let headers := if body.isEmpty then [] else [("content-type", "application/json")]
    Http.Request.ofParts? (.ofList method) (.ofList target) headers
      (Text.encode (.ofList ([' '].intercalate body)))
  | _ => none

def answerLine (r : Http.Response) : String :=
  toString r.status ++
    match r.body with
    | .empty => ""
    | .json v => " " ++ v.render
    | .text t => " " ++ t

partial def serve (json : Bool) (s : Server) (since : Nat) : IO Unit := do
  let text ← (← IO.getStdin).getLine
  if text.isEmpty then return
  let now ← IO.monoMsNow
  let idle := s.advance (now - since)
  emit json idle.background
  match requestOfLine? text with
  | none =>
    IO.println "400"
    serve json idle.server now
  | some request =>
    let step := idle.server.respond ⟨← freshId, ← clock⟩ (← freshId) request
    emit json (step.meanwhile ++ step.notes.events [] ++ step.background ++
      Program.changeEvents step.deliveries)
    IO.println (answerLine step.value)
    (← IO.getStdout).flush
    serve json step.server now

def run (args : List String) : IO UInt32 := do
  let environment ← readEnvironment
  let uptime ← IO.monoMsNow
  let around : Program.Surroundings Unit :=
    { environment, uptime, bind := fun _ _ port => .ok port, peers := unreachable, databases := () }
  match CommandLine.parse environment args with
  | .error reason =>
    let exit := Program.Exit.refused reason
    (exit.output?).forM IO.println
    return exit.code
  | .ok settings =>
    let life := Program.Life.of settings around (Program.start settings around)
    emit settings.logJson life.events
    (life.ending.message?).forM IO.eprintln
    match life.ending, Program.serverOf settings uptime with
    | .success, some server =>
      serve settings.logJson server uptime
      emit settings.logJson (Program.Life.of settings around Program.stop).events
      return 0
    | ending, _ => return ending.code

end Roster.Console

def main (args : List String) : IO UInt32 := Roster.Console.run args
