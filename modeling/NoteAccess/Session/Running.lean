/-
  NoteAccess.Session.Running

  A session from its first line to its exit code.  A failure is logged and given
  an exit code of its own; the session is tidied up in any case.
-/

import NoteAccess.Session.Watch

namespace NoteAccess

namespace Act

/-- Carry out what the command line asks for; watching has then only begun. -/
def carryOut [Yaml.Loader] [Stack] : CommandLine.Job → Act ExitCode
  | .check paths method => check paths method
  | .filter method all => filter method all
  | .init force => init force
  | .rules job => rules job
  | .watch interval => watch interval

/-- The log line of a rules file that cannot be used. -/
def rulesFileLine (e : RulesFile.Error) : LogLine :=
  .ofCause .error "Rules file error" [("error", e.message)] e.cause
    (e.code?.map fun c => (Text.ofString "code", c.name)).toList

/-- Report a failure. -/
def report : Failure → Act Unit
  | .command e => complain { message := "Error: " ++ e.message }
  | .rulesFile e => do
    say (rulesFileLine e)
    complain { message := "Error: " ++ e.message, cause := e.cause }
  | e => say { severity := .error, message := "Fatal error", cause := ": " ++ e.incident.message ++ e.incident.cause }

end Act

namespace Session

/-- The session after an action, and its outcome. -/
def perform {α : Type} (s : Session) (a : Act α) : Session × Except Failure α :=
  let (result, s) := (a.run s : Except Failure α × Session)
  (s, result)

/-- The session after an action that ends with an exit code; a failure is reported. -/
def performReported (s : Session) (a : Act ExitCode) : Session × ExitCode :=
  match s.perform a with
  | (s, .ok code) => (s, code)
  | (s, .error e) => ((s.perform (Act.report e)).1, .failure)

/-- The session after its components are made and its command is carried out. -/
def begin [Yaml.Loader] [Stack] (s : Session) : Session × ExitCode :=
  s.performReported do
    Act.prepare
    Act.carryOut (← get).arguments.job

/-- The session at its end. -/
def finish (s : Session) : Session := (s.perform (Act.log .debug "Cleanup complete" [])).1

/-- The whole of a session that need not wait. -/
def run [Yaml.Loader] [Stack] (s : Session) : Session × ExitCode :=
  let (s, code) := s.begin
  (s.finish, code)

end Session

end NoteAccess
