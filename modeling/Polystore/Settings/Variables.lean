import Polystore.Text.Basic

/-! # Settings errors and variables

Texts in settings may name variables of the environment, as `$NAME` or in braces. -/

namespace Polystore
set_option autoImplicit false

inductive SettingsError where
  | fileNotFound (path : String)
  | unreadable
  | malformed
  | missingVariable (name : String)
  | unsupportedDialect (name : String)
  | invalid (reason : String)
deriving DecidableEq, Repr

namespace SettingsError

def code : SettingsError → String
  | fileNotFound .. => "FileNotFound"
  | unreadable => "ReadError"
  | malformed => "ParseError"
  | missingVariable .. => "MissingEnvVar"
  | unsupportedDialect .. => "UnsupportedDialect"
  | invalid .. => "InvalidConfig"

def message : SettingsError → String
  | fileNotFound path => s!"Config file not found: {path}"
  | unreadable => "Failed to read config file"
  | malformed => "Failed to parse config file"
  | missingVariable name => s!"Missing environment variable: {name}"
  | unsupportedDialect name => s!"Unsupported dialect: {name}"
  | invalid reason => s!"Invalid configuration: {reason}"

end SettingsError

namespace Variables

abbrev Environment := String → Option String

def isNameChar (c : Char) : Bool := Text.isAlphanumeric c || c == '_'

/-- Where a reader of a text stands: the characters of a name come last one first. -/
inductive Mode where
  | text
  | dollar
  | name (read : List Char)
  | braces (read : List Char)

/-- What a name stands for. A dollar sign without a name stands for itself. -/
def valueOf (env : Environment) (read : List Char) : Except SettingsError (List Char) :=
  if read.isEmpty then .ok ['$']
  else
    let name := String.ofList read.reverse
    match env name with
    | some v => .ok v.toList
    | none => .error (.missingVariable name)

/-- What a character comes to outside of a name, and the mode behind it. -/
def start (c : Char) : List Char × Mode := if c == '$' then ([], .dollar) else ([c], .text)

/-- One character: what it adds to the expanded text, and the mode behind it. -/
def step (env : Environment) (c : Char) : Mode → Except SettingsError (List Char × Mode)
  | .text => .ok (start c)
  | .dollar =>
    if c == '\x7b' then .ok ([], .braces [])
    else if isNameChar c then .ok ([], .name [c])
    else .ok ('$' :: (start c).1, (start c).2)
  | .name read =>
    if isNameChar c then .ok ([], .name (c :: read))
    else (valueOf env read).map fun v => (v ++ (start c).1, (start c).2)
  | .braces read =>
    if c == '\x7d' then (valueOf env read).map fun v => (v, .text)
    else .ok ([], .braces (c :: read))

/-- What is left at the end of the text; braces need not be closed. -/
def finish (env : Environment) : Mode → Except SettingsError (List Char)
  | .text => .ok []
  | .dollar => .ok ['$']
  | .name read => valueOf env read
  | .braces read => valueOf env read

def expandFrom (env : Environment) (mode : Mode) : List Char → Except SettingsError (List Char)
  | [] => finish env mode
  | c :: r => do
    let (out, mode) ← step env c mode
    let rest ← expandFrom env mode r
    .ok (out ++ rest)

/-- Puts the values of variables into a text. Values are not expanded again. -/
def expand (env : Environment) (s : String) : Except SettingsError String :=
  (expandFrom env .text s.toList).map String.ofList

end Variables
end Polystore
