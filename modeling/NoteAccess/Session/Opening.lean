/-
  NoteAccess.Session.Opening

  From the words of a command line to a session with a log, or why there is none:
  the command line is read and checked, then the configuration, then the log is
  opened.
-/

import NoteAccess.Session.Running

namespace NoteAccess

/-- Why there is no session. -/
inductive OpeningError where
  | stop (s : CommandLine.Stop)
  | arguments (e : CommandLine.ArgumentError)
  | config (e : LoadError)
  | log (e : LogError)

namespace OpeningError

/-- What is complained about, if it is a mistake of the user. -/
def complaint? : OpeningError → Option ErrorLine
  | stop s => s.complaint.map fun t => { message := t }
  | arguments (.fault _) => none
  | arguments e => some { message := "Error: " ++ e.message }
  | config (.config e) => some { message := "Error: " ++ e.message, cause := e.cause }
  | config (.fault ..) | log _ => none

/-- The exit code, unless it is a failure that nothing is said about. -/
def exitCode? : OpeningError → Option Nat
  | stop s => some s.exitCode
  | e => e.complaint?.map fun _ => ExitCode.failure.number

end OpeningError

namespace Session

/-! ## Opening -/

/-- What a command line asks for, and the configuration for it. -/
def plan [Yaml.Loader] [Stack] (words : List Text) (t : FileTree) (world : Surroundings) (system : Text) :
    Except OpeningError (CommandLine.Arguments × Config Hook) := do
  let a ← (CommandLine.Arguments.read words).mapError .stop
  (a.check t world).mapError .arguments
  return (a, ← (Config.ofArguments t world system a).mapError .config)

/-- The session of a command line; `stamp` is the time for log lines.  Opening the log may
    change the files. -/
def opened [Yaml.Loader] [Stack] (words : List Text) (t : FileTree) (world : Surroundings) (system input stamp : Text) :
    FileTree × Except OpeningError Session :=
  match (plan words t world system).bind fun (arguments, config) =>
      (config.settings.mapError (.config ∘ .ofMerging)).map (arguments, config, ·) with
  | .error e => (t, .error e)
  | .ok (arguments, config, settings) =>
    let (tree, setup) := LogSetup.ofSettings t world (LogSetup.sectionOf arguments settings)
    (tree, (setup.mapError .log).map fun setup => {
      world, arguments, config, tree, stamp, input
      journal := { level := setup.level }, layout := setup.layout, logFile := setup.file })

/-! ## The banner -/

/-- What the program is. -/
def description : Text := "VaultGate - Rule-based access control for note vaults"

/-- The lines that show what is running. -/
def bannerLines : List Text :=
  let rule := List.replicate 60 CodePoint.equals
  [rule, "VaultGate v" ++ CommandLine.programVersion, description, rule]

/-- The session with the banner logged. -/
def withBanner (s : Session) : Session :=
  (s.perform (bannerLines.forM fun line => Act.log .info line [])).1

/-- The session after its command is carried out; watching, which has then only begun,
    shows the banner first. -/
def start [Yaml.Loader] [Stack] (s : Session) : Session × ExitCode :=
  match s.arguments.job with
  | .watch _ => s.withBanner.begin
  | _ => s.begin

/-! ## What there is to see -/

/-- The lines on the console, without what the log goes on with. -/
def consoleLines (s : Session) : List Text :=
  s.logged.reverse.filterMap fun l => s.showLine? l.message l

/-- The lines on the console. -/
def wholeLines (s : Session) : List Text := s.logged.reverse.filterMap fun l => s.showLine? l.whole l

/-- The lines of the error output. -/
def errorLines (s : Session) : List Text := s.complaints.reverse.map fun c => c.message ++ c.cause

/-- The session with nothing to be shown. -/
def silenced (s : Session) : Session := { s with logged := [], printed := [], complaints := [] }

/-- The printed text. -/
def output (s : Session) : Text := s.printed.reverse.flatMap (· ++ [CodePoint.newline])

end Session

end NoteAccess
