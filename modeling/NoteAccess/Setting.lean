/-
  NoteAccess.Setting

  The settings section: its keys, its default values, and which values are
  accepted.
-/

import NoteAccess.Value.Writing
import NoteAccess.Method
import NoteAccess.Tag

namespace NoteAccess

/-- The verdict of a rule or of the default policy. -/
inductive Mode where
  | allow
  | deny
  deriving DecidableEq, Repr

namespace Mode

/-- The word for a verdict. -/
def word : Mode → Text
  | allow => "allow"
  | deny => "deny"

/-- The verdict with exactly this word. -/
def ofWord? (t : Text) : Option Mode := [allow, deny].find? (·.word == t)

end Mode

namespace Setting

/-! ## Keys -/

/-- The section that holds all settings. -/
def rootKey : Text := "vaultgate"
/-- Whether access is filtered at all. -/
def enabledKey : Text := "enabled"
/-- The verdict when no rule decides. -/
def defaultPolicyKey : Text := "default_policy"
/-- Whether all writes are refused. -/
def readOnlyKey : Text := "read_only"
/-- The tag that grants access before any rule. -/
def allowTagKey : Text := "global_allow_tag"
/-- The tag that refuses access before any rule. -/
def denyTagKey : Text := "global_deny_tag"
/-- The rules file. -/
def rulesFileKey : Text := "rules_file"
/-- The root folder of the vault. -/
def vaultPathKey : Text := "vault_path"
/-- How many evaluations a bulk filter may run at once. -/
def concurrencyKey : Text := "bulk_concurrency"
/-- The logging section. -/
def loggingKey : Text := "logging"
/-- The least level that is logged. -/
def levelKey : Text := "level"
/-- The file that log lines go to as well. -/
def fileKey : Text := "file"
/-- The layout of a log line. -/
def formatKey : Text := "format"

/-- The largest number of evaluations at once. -/
def maxConcurrency : Nat := 1024

/-- The number of evaluations at once when none is set. -/
def defaultConcurrency : Nat := 16

/-- The layout of a log line when none is set. -/
def defaultFormat : Text := "%(asctime)s - %(name)s - %(levelname)s - %(message)s"

/-- The name of the rules file when none is set. -/
def defaultRulesFile : Text := "access-rules.conf"

/-- The settings that hold when nothing else is set. -/
def defaults : List (Value × Value) := [
  (.text enabledKey, .bool true),
  (.text defaultPolicyKey, .text Mode.deny.word),
  (.text readOnlyKey, .bool false),
  (.text allowTagKey, .text "#ai-allow"),
  (.text denyTagKey, .text "#ai-deny"),
  (.text rulesFileKey, .text defaultRulesFile),
  (.text vaultPathKey, .text "."),
  (.text concurrencyKey, .int defaultConcurrency),
  (.text loggingKey, .dict [
    (.text levelKey, .text "INFO"),
    (.text fileKey, .null),
    (.text formatKey, .text defaultFormat)])]

/-! ## Refused values -/

/-- Why a setting, a tag or a method is not accepted; values are as they are written. -/
inductive Refusal where
  | notMapping
  | notBoolean (key given : Text)
  | notText (key given : Text)
  | policyNotText (given : Value)
  | unknownPolicy (given : Text)
  | tagNotText (given : Value)
  | emptyTag
  | tagHasBlank (given : Text)
  | compoundTag (given : Text)
  | concurrencyNotWhole (given : Text)
  | concurrencyOutOfRange (given : Text)
  | loggingNotMapping
  | unknownMethod (given : Text)

/-- A list of words as messages show it. -/
def wordList (words : List Text) : Text := (Value.list (words.map .text)).nested

/-- How messages name the kind of a value. -/
def kindText (v : Value) : Text := "<class '" ++ v.kindName ++ "'>"

/-- The wording of a refused value. -/
def Refusal.message : Refusal → Text
  | notMapping => "Settings must be a dictionary"
  | notBoolean key v => "Setting '" ++ key ++ "' must be boolean: " ++ v
  | notText key v => "Setting '" ++ key ++ "' must be a string: " ++ v
  | policyNotText v => "Default policy must be a string, got " ++ kindText v
  | unknownPolicy t =>
    "Invalid default policy: " ++ t ++ ". Must be one of " ++ wordList [Mode.allow.word, Mode.deny.word]
  | tagNotText v => "Tag must be string, got " ++ kindText v
  | emptyTag => "Tag cannot be empty"
  | tagHasBlank t => "Tag cannot contain whitespace: " ++ t
  | compoundTag t => "Global tag must be a single tag, not a compound expression: " ++ t
  | concurrencyNotWhole v => "Bulk concurrency must be an integer: " ++ v
  | concurrencyOutOfRange i =>
    "Bulk concurrency must be in range 1-" ++ Text.ofNat maxConcurrency ++ ", got " ++ i
  | loggingNotMapping => "Logging configuration must be a dictionary"
  | unknownMethod v =>
    "Unknown method: " ++ v ++ ". Must be one of " ++ wordList (Method.all.map Method.name)

end Setting

/-- Why settings are not taken. -/
inductive SettingFailure where
  | refused (r : Setting.Refusal)
  | fault (f : Fault)

namespace Setting

/-- Refuse a value, which the wording shows; a value that cannot be written is a failure of its own. -/
def refuse [Stack] {α : Type} (v : Value) (r : Text → Refusal) : Except SettingFailure α :=
  match Layered.written v with
  | .ok t => .error (.refused (r t))
  | .error f => .error (.fault f)

/-! ## Accepted values -/

/-- The default policy that a value names, in any case and with blanks around it. -/
def defaultPolicy : Value → Except Refusal Mode
  | .text t =>
    match Mode.ofWord? t.strip.lower with
    | some m => .ok m
    | none => .error (.unknownPolicy t)
  | v => .error (.policyNotText v)

/-- A global tag is a single literal token. -/
def checkTag : Value → Except Refusal Unit
  | .text t =>
    let stripped := t.strip
    if stripped.isEmpty || stripped == "#" then .error .emptyTag
    else if stripped.hasBlank then .error (.tagHasBlank t)
    else if stripped.contains CodePoint.plus then .error (.compoundTag t)
    else .ok ()
  | v => .error (.tagNotText v)

/-- The method that a word names, in any case and with blanks around it; no word names none. -/
def method : Option Text → Except Refusal (Option Method)
  | none => .ok none
  | some t =>
    match Method.ofWord? t.strip with
    | some m => .ok (some m)
    | none => .error (.unknownMethod t)

/-- A bound on the number of evaluations at once. -/
def concurrency [Stack] : Value → Except SettingFailure Nat
  | .int i =>
    if i < 1 || (maxConcurrency : Int) < i then refuse (.int i) .concurrencyOutOfRange else .ok i.toNat
  | v => refuse v .concurrencyNotWhole

/-- A truth value, if the key is present. -/
def checkBoolean [Stack] (entries : List (Value × Value)) (key : Text) : Except SettingFailure Unit :=
  match Value.field? key entries with
  | none | some (.bool _) => .ok ()
  | some v => refuse v (.notBoolean key)

/-- A text, if the key is present. -/
def checkText [Stack] (entries : List (Value × Value)) (key : Text) : Except SettingFailure Unit :=
  match Value.field? key entries with
  | none | some (.text _) => .ok ()
  | some v => refuse v (.notText key)

/-- A global tag, if the key is present and its value is not empty. -/
def checkTagAt (entries : List (Value × Value)) (key : Text) : Except Refusal Unit :=
  match Value.field? key entries with
  | none => .ok ()
  | some v => if v.isTruthy then checkTag v else .ok ()

/-- Whether the settings section is accepted; the first refusal in a fixed order of keys counts. -/
def check [Stack] : Value → Except SettingFailure Unit
  | .dict entries => do
    checkBoolean entries enabledKey
    checkBoolean entries readOnlyKey
    match Value.field? defaultPolicyKey entries with
    | none => pure ()
    | some v => discard ((defaultPolicy v).mapError .refused)
    (checkTagAt entries allowTagKey).mapError .refused
    (checkTagAt entries denyTagKey).mapError .refused
    checkText entries rulesFileKey
    checkText entries vaultPathKey
    match Value.field? concurrencyKey entries with
    | none => pure ()
    | some v => discard (concurrency v)
    match Value.field? loggingKey entries with
    | none | some .null | some (.dict _) => .ok ()
    | some _ => .error (.refused .loggingNotMapping)
  | _ => .error (.refused .notMapping)

end Setting

end NoteAccess
