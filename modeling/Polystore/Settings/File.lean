import Polystore.Entries
import Polystore.Settings.Basic

/-! # Settings files

Settings are read from a named file, or from the first of the usual places that has one. -/

namespace Polystore
set_option autoImplicit false

inductive Found where
  | nothing
  | directory
  | file (text : String)

namespace Settings

def ofFound (path : String) : Found → Except SettingsError Settings
  | .nothing => .error (.fileNotFound path)
  | .directory => .error .unreadable
  | .file text => parse text

def fromFile (look : String → Found) (path : String) : Except SettingsError Settings :=
  ofFound path (look path)

def fileVariable : String := "STRATA_CONFIG"

def localFile : String := "strata.toml"

/-- Below the directory for the user's settings. -/
def userFile : String := "strata/config.toml"

def exists? (look : String → Found) (path : String) : Option String :=
  match look path with
  | .nothing => none
  | _ => some path

/-- The settings of the named file, of the working directory or of the user, else the defaults. -/
def load (look : String → Found) (env : Variables.Environment) (userDirectory : String) :
    Except SettingsError Settings :=
  match env fileVariable with
  | some path => fromFile look path
  | none =>
    match (exists? look localFile).or (exists? look (userDirectory ++ "/" ++ userFile)) with
    | some path => fromFile look path
    | none => .ok default

end Settings

/-! ## File trees -/

/-- Files by their paths below a working directory, and directories that are there without files. -/
structure FileTree where
  files : Entries String
  directories : List String

namespace FileTree

def stays (step : String) : Bool := step == "" || step == "."

def pathSteps (path : String) : List String := (Text.split '/' path).filter (!stays ·)

/-- A directory is there if something lies below it. -/
def isDirectory (t : FileTree) (steps : List String) : Bool :=
  steps.isEmpty || t.directories.any (fun d => steps.isPrefixOf (pathSteps d)) ||
    t.files.any fun f => steps.isPrefixOf (pathSteps f.1) && steps != pathSteps f.1

def atSteps (t : FileTree) (steps : List String) : Found :=
  if t.isDirectory steps then .directory
  else match List.find? (fun f => pathSteps f.1 == steps) t.files with
    | some (_, text) => .file text
    | none => .nothing

/-- Goes step by step from a directory. Of what lies outside of the tree, only the directories
above it are known. -/
def walk (t : FileTree) : List String → List String → Found
  | here, [] => t.atSteps here
  | here, s :: ss =>
    if !t.isDirectory here then .nothing
    else if stays s then walk t here ss
    else if s == ".." then
      if here.isEmpty then if ss.all (fun s => stays s || s == "..") then .directory else .nothing
      else walk t here.dropLast ss
    else walk t (here ++ [s]) ss

/-- What a path leads to from the working directory. -/
def look (t : FileTree) (path : String) : Found :=
  if path.isEmpty || Text.startsWith "/" path then .nothing else t.walk [] (Text.split '/' path)

end FileTree
end Polystore
