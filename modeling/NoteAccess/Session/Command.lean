/-
  NoteAccess.Session.Command

  The commands of a session that come to an end: deciding on paths, filtering
  paths, writing a rules file, and showing and changing its rules.  Each ends with
  an exit code.
-/

import NoteAccess.Session.Startup

namespace NoteAccess

/-- How a command ends. -/
inductive ExitCode where
  | success
  /-- Access is refused somewhere, or something is to be complained about. -/
  | denied
  | failure
  deriving DecidableEq, Repr

/-- The number of an exit code. -/
def ExitCode.number : ExitCode → Nat
  | success => 0
  | denied => 1
  | failure => 2

namespace Act

/-! ## Deciding -/

/-- A decision on a path, as it is printed. -/
def decisionLine (path : Text) (d : Decision) : Text :=
  let verdict : Text := if d.allowed then "ALLOW" else "DENY"
  verdict.padRight CodePoint.space 5 ++ "  " ++ path ++ "  (" ++ d.reason ++ ")"

/-- The vault and the engine in use, with the sources that the vault is. -/
def components [Yaml.Loader] [Stack] : Act (Vault × Engine × Sources) := do
  let s ← get
  let vault ← need s.vault "list_files"
  let engine ← need s.engine "evaluate"
  return (vault, engine, vault.sources s.tree)

/-- A failure that is known only by its kind. -/
def bare (f : Fault) : Failure := .fault f (Pattern.incident f).message

/-- Print the decision on each path. -/
def check [Yaml.Loader] [Stack] (paths : List Text) (method : Option Text) : Act ExitCode := do
  let (_, engine, sources) ← components
  let decisions ← absorb bare (Engine.evaluateAll engine.snapshot sources (.given method) (paths.map .text))
  (paths.zip decisions).forM fun (path, d) => print (decisionLine path d)
  return if decisions.all Decision.allowed then .success else .denied

/-- The paths of the input, one on each line that is not blank. -/
def inputPaths : Act (List Text) := do
  let s ← get
  set { s with input := [] }
  return ((s.input.pieces CodePoint.newline).map Text.strip).filter (!List.isEmpty ·)

/-- Print the paths on which access is granted, among all files or those of the input. -/
def filter [Yaml.Loader] [Stack] (method : Option Text) (all : Bool) : Act ExitCode := do
  let (vault, engine, sources) ← components
  let paths ← if all then ofExcept (Failure.ofSystem vault.root) (vault.files (← get).tree []) else inputPaths
  let allowed ← absorb bare (engine.filterPaths sources (.given method) (paths.map .text))
  allowed.forM fun v => print v.toText
  return .success

/-! ## The rules file -/

/-- The rules file in use. -/
def rulesFile : Act FilePath := do
  need (← get).rulesPath "exists"

/-- The tree with a rules file that explains its form. -/
def writeTemplate (t : FileTree) (file : FilePath) : FileTree × Except Failure Unit :=
  match t.makeFolders file.parent.segments with
  | .error f => (t, .error (.ofSystem file.parent.segments f))
  | .ok t =>
    match t.write file.segments ((Utf8.encode? Listing.template).getD []) with
    | .error f => (t, .error (.ofSystem file.segments f))
    | .ok t => (t, .ok ())

/-- Write a rules file that explains its form; one that is there is kept, unless `force`. -/
def init (force : Bool) : Act ExitCode := do
  let file ← rulesFile
  let there ← ofExcept (Failure.ofSystem file.segments) ((← get).tree.exists? file.segments)
  if there && !force then throw (.command (.rulesExist file.text))
  onTree id fun t => writeTemplate t file
  log .info "Wrote rules file template" [("file", file.text)]
  print ("Created " ++ file.text)
  return .success

/-- The rules in use. -/
def entries : Act (List RuleEntry) := do
  return (← need (← get).engine "get_entries").snapshot.entries

/-- A rule with its line, as it is printed. -/
def entryLine (e : RuleEntry) : Text :=
  (Text.ofInt (e.lineNumber + 1)).padLeft CodePoint.space 4 ++ "  " ++ e.rule.write e.kind

/-- Print all rules. -/
def listRules : Act ExitCode := do
  let file ← rulesFile
  match ← entries with
  | [] => print ("No rules in " ++ file.text)
  | es => es.forM fun e => print (entryLine e)
  return .success

/-- Print what is wrong with the rules file. -/
def lintRules : Act ExitCode := do
  let file ← rulesFile
  match ← absorb rulesFailure (RulesFile.load (← get).tree file) with
  | none => throw (.command (.noRules file.text))
  | some l =>
    l.warnings.forM fun w => print w.text
    print (Text.ofNat l.entries.length ++ " rules, " ++ Text.ofNat l.warnings.length ++ " warnings")
    return if l.warnings.isEmpty then .success else .denied

/-- The rule of a command line. -/
def newRule (mode kind pattern methods : Text) (disabled : Bool) : Except Failure RuleEntry :=
  if kind.isEmpty && !pattern.isEmpty then .error (.lacking "list" "lower")
  else (RuleEntry.ofFields mode kind pattern methods (!disabled) (-1)).mapError fun e => .command (.invalidRule e)

/-- Add a rule at the end of the rules file; a malformed regular expression is refused. -/
def addRule (mode kind pattern methods : Text) (disabled : Bool) : Act ExitCode := do
  let file ← rulesFile
  let e ← ofExcept id (newRule mode kind pattern methods disabled)
  if e.rule.isRegex then
    let program ← absorb bare (Run.compile e.rule.toPattern)
    if !program.isValid then throw (.command (.invalidRegex e.rule.pattern))
  onTree rulesFailure fun t => RulesFile.append t file e.kind.word e.rule
  print ("Added: " ++ e.rule.write e.kind)
  return .success

/-- The rule on a line, of which the first is one. -/
def entryOn (line : Int) : Act RuleEntry := do
  let file ← rulesFile
  match (← entries).find? fun e => e.lineNumber = line - 1 with
  | some e => return e
  | none => throw (.command (.noRuleOnLine line file.text))

/-- Remove the rule on a line. -/
def removeRule (line : Int) : Act ExitCode := do
  let file ← rulesFile
  let e ← entryOn line
  onTree rulesFailure fun t => RulesFile.remove t file e.lineNumber
  print ("Removed: " ++ e.rule.write e.kind)
  return .success

/-- Enable or disable the rule on a line. -/
def toggleRule (line : Int) (enabled : Bool) : Act ExitCode := do
  let file ← rulesFile
  let e ← entryOn line
  onTree rulesFailure fun t => RulesFile.toggle t file e.lineNumber enabled
  let what : Text := if enabled then "Enabled line " else "Disabled line "
  print (what ++ Text.ofInt line)
  return .success

/-- A command on rules. -/
def rules : CommandLine.RulesJob → Act ExitCode
  | .list => listRules
  | .lint => lintRules
  | .add mode kind pattern methods disabled => addRule mode kind pattern methods disabled
  | .remove line => removeRule line
  | .enable line => toggleRule line true
  | .disable line => toggleRule line false

end Act

end NoteAccess
