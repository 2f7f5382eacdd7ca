import Polystore.Text.Basic
import Polystore.Value.Basic

/-! # Dot paths

Reading and writing inside nested maps by the names between the dots of a path. -/

namespace Polystore
set_option autoImplicit false

/-- The segments of a dot path; an empty path is one empty segment. -/
def segments (path : String) : List String := Text.split '.' path

namespace Value

/-- The value reached by one map entry after the other. -/
def atSegments? : List String → Value → Option Value
  | [], v => some v
  | k :: ks, map m =>
    match m.lookup k with
    | some v => atSegments? ks v
    | none => none
  | _ :: _, _ => none

def getPath? (v : Value) (path : String) : Option Value := atSegments? (segments path) v

end Value

namespace Document

/-- The nested document under a key; empty if there is none. -/
def child (d : Document) (key : String) : Document :=
  match d.lookup key with
  | some (.map m) => m
  | _ => []

/-- Writes at a list of keys. Whatever stands in the way of an inner map is replaced by one. -/
def setSegments (v : Value) : List String → Document → Document
  | [], d => d
  | [k], d => Entries.insert k v d
  | k :: ks, d => Entries.insert k (.map (setSegments v ks (child d k))) d

def setPath (d : Document) (path : String) (v : Value) : Document :=
  setSegments v (segments path) d

def getPath? (d : Document) (path : String) : Option Value := (Value.map d).getPath? path

/-- The value at a path inside of what stands under a key. -/
def below? (d : Document) (key path : String) : Option Value :=
  match d.lookup key with
  | some v => v.getPath? path
  | none => none

/-- The value that was put at a path: under a key, or below one if the path has a dot. -/
def at? (d : Document) (path : String) : Option Value :=
  match Text.splitOnce? '.' path with
  | none => d.lookup path
  | some (head, rest) => below? d head rest

end Document
end Polystore
