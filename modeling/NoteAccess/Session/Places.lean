/-
  NoteAccess.Session.Places

  The places that a session looks at: those that its command line, its settings
  and its input name.  What stands there, and on the way there, is all that the
  session has to know of the files around it.
-/

import NoteAccess.Session.Opening

namespace NoteAccess

namespace Surroundings

/-- The places that a text may name: as it is written, and with the home folder in place of
    a tilde. -/
def named (s : Surroundings) (path : Text) : List Place :=
  (Place.path s.folder ++ FilePath.ofText path).segments ::
    ((s.locate path).toOption.map FilePath.segments).toList

end Surroundings

namespace CommandLine

/-- Whether a job takes paths from the input. -/
def Job.readsInput : Job → Bool
  | filter .. => true
  | _ => false

/-- The paths of notes that a job is about; `input` is the text of the input. -/
def Job.paths (input : Text) : Job → List Text
  | check paths _ => paths
  | filter .. => (input.pieces CodePoint.newline).map Text.strip
  | _ => []

/-- The places that a command line names. -/
def Arguments.places (a : Arguments) (world : Surroundings) : List Place :=
  (a.config.toList ++ a.vault.toList ++ a.rules.toList ++ a.logFile.toList).flatMap world.named

end CommandLine

namespace Config

variable {κ : Type} [Stack]

/-- The text of a setting; empty if it is none. -/
def settingText (c : Config κ) (key : Text) : Text :=
  match c.settings with
  | .ok (.dict entries) =>
    match Value.field? key entries with
    | some (.text t) => t
    | _ => []
  | _ => []

/-- The log file that the settings name; empty if they name none. -/
def logFileText (c : Config κ) : Text :=
  match c.settings with
  | .ok (.dict entries) =>
    match Value.field? Setting.loggingKey entries with
    | some (.dict logging) =>
      match Value.field? Setting.fileKey logging with
      | some (.text t) => t
      | _ => []
    | _ => []
  | _ => []

end Config

namespace Session

/-- The places that are looked at before the settings are known. -/
def firstPlaces (words : List Text) (world : Surroundings) (system : Text) : List Place :=
  world.folder :: world.named system ++
    match CommandLine.Arguments.read words with
    | .ok a => a.places world
    | .error _ => []

/-- The places that are looked at when the settings are known; `paths` are those of notes. -/
def laterPlaces [Stack] (c : Config Hook) (world : Surroundings) (paths : List Text) : List Place :=
  let vaults := world.named (c.settingText Setting.vaultPathKey)
  let rules := world.named (c.settingText Setting.rulesFileKey)
  let notes := paths.map fun path => FilePath.segmentsOf (VaultPath.normalize path)
  let below (names : List Text) : List Place := vaults.map (· ++ names)
  vaults ++ rules ++ below (FilePath.segmentsOf (c.settingText Setting.rulesFileKey)) ++
    world.named c.logFileText ++ notes.flatMap below

end Session

end NoteAccess
