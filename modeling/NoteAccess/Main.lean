/-
  NoteAccess.Main

  The program.  It fetches what stands at the places that a session looks at,
  opens the session, shows what the session has to say, and leaves the files as
  the session does.

  Files are opened by their names and folders are not listed: of a vault, those
  notes are known that the command line or the input names.
-/

import NoteAccess.Session.Places
import NoteAccess.Yaml.Document
import Std.Time.Format

namespace NoteAccess.Shell

attribute [local instance] Stack.usual Yaml.Loader.own

/-! ## Surroundings -/

/-- The text of bytes; what is no text is left out. -/
def textOf (bytes : ByteArray) : Text := (Utf8.decode bytes.toList).toOption.getD []

/-- The variables in the form in which the system lists them: each ends with a zero. -/
def variablesOf (listing : Text) : List (Text × Text) :=
  (listing.pieces 0).filterMap (Text.cut? CodePoint.equals)

/-- The place of the folder that relative paths begin in. -/
def currentFolder : IO Place := do
  return FilePath.segmentsOf (Text.ofString (toString (← IO.currentDir)))

/-- The users in the list that the system keeps of them, with their home folders. -/
def usersOf (listing : Text) : List (Text × Text) :=
  (listing.pieces CodePoint.newline).filterMap fun line =>
    match line.pieces CodePoint.colon with
    | [name, _, _, _, _, home, _] => some (name, home)
    | _ => none

/-- What the program is started with. -/
def surroundings : IO Surroundings := do
  let environ ← (IO.FS.readBinFile "/proc/self/environ").toBaseIO
  let users ← (IO.FS.readBinFile "/etc/passwd").toBaseIO
  return .ofEnvironment (← currentFolder) [CodePoint.slash] (variablesOf (textOf (environ.toOption.getD .empty)))
    (usersOf (textOf (users.toOption.getD .empty)))

/-- The file with the settings of the whole system. -/
def systemConfig : Text := "/etc/vaultgate/config.yaml"

/-- The rest of the input. -/
partial def readFrom (input : IO.FS.Stream) (seen : ByteArray) : IO ByteArray := do
  let bytes ← input.read 65536
  if bytes.isEmpty then return seen else readFrom input (seen ++ bytes)

/-- The input of a job. -/
def inputOf (job : CommandLine.Job) : IO Text := do
  if job.readsInput then return textOf (← readFrom (← IO.getStdin) .empty) else return []

/-- The time, as log lines show it. -/
def timeStamp : IO Text := do
  let now ← Std.Time.PlainDateTime.now.toBaseIO
  return (now.toOption.map fun t => Text.ofString (t.format "uuuu-MM-dd HH:mm:ss,SSS")).getD []

/-! ## Files -/

/-- The content of a file; that of one too large to be looked at takes no room. -/
def contentOf (bytes : ByteArray) : FileContent :=
  if Vault.maxContentSize < bytes.size then .hole bytes.size else .bytes bytes.toList

/-- The file as it was known, or with the time of the tree if it has changed. -/
def fileOf (t : FileTree) (p : Place) (content : FileContent) : FileItem :=
  match t.item? p with
  | some (.file old time) => .file content (if old = content then time else t.clock)
  | _ => .file content t.clock

/-- The tree with what stands at a place where no link is left. -/
def fetchItem (t : FileTree) (p : Place) : IO FileTree := do
  match ← (IO.FS.readBinFile (Place.text p).display).toBaseIO with
  | .ok bytes => return t.put p (fileOf t p (contentOf bytes))
  | .error (.inappropriateType ..) => return t.put p .folder
  | .error _ => return t.erase p

/-- The folders on the way to a place, and the place. -/
def steps (p : Place) : List Place := (List.range p.length).map fun n => p.take (n + 1)

/-- The tree with what stands on the way to a place, and there. -/
def fetch (t : FileTree) (names : Place) : IO FileTree := do
  let mut t := t
  let mut here : Place := []
  for name in names do
    let next := here ++ [name]
    if name == ".." then here := here.dropLast
    else
      match ← (IO.FS.realPath (Place.text next).display).toBaseIO with
      | .error _ => return t.erase next
      | .ok real =>
        let text := Text.ofString (toString real)
        let place := FilePath.segmentsOf text
        if place != next then t := t.put next (.link text)
        for p in steps place do t ← fetchItem t p
        here := place
  return t

/-- The tree with what stands at several places. -/
def fetchAll (t : FileTree) (places : List Place) : IO FileTree := places.eraseDups.foldlM fetch t

/-- Leave the files as a session does. -/
def store (before after : FileTree) : IO Unit :=
  after.items.forM fun (p, item) => do
    let name := (Place.text p).display
    if before.item? p != some item then
      match item with
      | .folder => IO.FS.createDirAll name
      | .file content _ => IO.FS.writeBinFile name (ByteArray.mk content.toBytes.toArray)
      | .link _ => pure ()

/-! ## Sessions -/

/-- Show what a session has to say, and leave the files as it does; `before` is how they are. -/
def settle (before : FileTree) (s : Session) : IO Session := do
  let output ← IO.getStdout
  output.putStr s.output.display
  output.flush
  for line in s.wholeLines ++ s.errorLines do IO.eprintln line.display
  store before s.tree
  return s.silenced

/-- Look after the files of a session until it is to end. -/
partial def keepWatch (pause : UInt32) (s : Session) : IO Session := do
  if s.stopping then return s
  IO.sleep pause
  let clock := s.tree.clock + 1
  let tree ← fetchAll { s.tree with clock } (s.config.watched.map (·.1))
  let (s, _) := { s with tree, stamp := ← timeStamp }.perform Act.poll
  keepWatch pause (← settle tree s)

/-- Carry out the command of a session. -/
def carryOut (before : FileTree) (s : Session) : IO UInt32 := do
  let (s, code) := s.start
  let s ← settle before s
  let s ← match s.arguments.job, code with
    | .watch (.float seconds), .success => keepWatch (seconds * 1000).toUInt32 s
    | _, _ => pure s
  let _ ← settle s.tree s.finish
  return code.number.toUInt32

/-- Tell why there is no session. -/
def refuse (e : OpeningError) : IO UInt32 := do
  match e with
  | .stop s => IO.print (s.printed CommandLine.versionLine).display
  | _ => pure ()
  e.complaint?.forM fun c => IO.eprintln (c.message ++ c.cause).display
  return ((e.exitCode?).getD 1).toUInt32

/-- Run the program on the words of a command line. -/
def run (words : List Text) : IO UInt32 := do
  let world ← surroundings
  let tree ← fetchAll { clock := 1 } (Session.firstPlaces words world systemConfig)
  match Session.plan words tree world systemConfig with
  | .error e => refuse e
  | .ok (arguments, config) =>
    let input ← inputOf arguments.job
    let tree ← fetchAll tree (Session.laterPlaces config world (arguments.job.paths input))
    let (after, session) := Session.opened words tree world systemConfig input (← timeStamp)
    match session with
    | .ok s => carryOut tree s
    | .error e =>
      store tree after
      refuse e

end NoteAccess.Shell

/-- The program. -/
def main (args : List String) : IO UInt32 := NoteAccess.Shell.run (args.map NoteAccess.Text.ofString)
