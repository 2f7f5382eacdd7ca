import Polystore.Write.Basic

/-! # Document statements

Commands against one collection. -/

namespace Polystore.Documents
set_option autoImplicit false

inductive Command where
  | find | count | insertOne | updateOne | updateMany | deleteMany | aggregate
deriving DecidableEq, Repr

def Command.text : Command → String
  | find => "FIND"
  | count => "COUNT"
  | insertOne => "INSERT_ONE"
  | updateOne => "UPDATE_ONE"
  | updateMany => "UPDATE_MANY"
  | deleteMany => "DELETE_MANY"
  | aggregate => "AGGREGATE"

def Command.all : List Command :=
  [find, count, insertOne, updateOne, updateMany, deleteMany, aggregate]

def Command.ofText? (s : String) : Option Command := all.find? (·.text == s)

abbrev SortKey := String × SortDir

/-- A step of a pipeline. The sort keys of a step keep their order. -/
inductive Stage where
  /-- A step in the store's own form. -/
  | native (d : Document)
  | filter (d : Document)
  | sort (keys : List SortKey)
  | skip (n : UInt64)
  | limit (n : UInt64)
  | count (field : String)

/-- The operator of a step; that of a native one is its first key. -/
def Stage.name : Stage → String
  | native d => (d.head?.map (·.1)).getD ""
  | filter _ => "$match"
  | sort _ => "$sort"
  | skip _ => "$skip"
  | limit _ => "$limit"
  | count _ => "$count"

/-- Reads have a filter or a pipeline. Writes keep what was planned beside the documents made of
it: the filter selects what is written, the document is what is inserted or how it is updated. -/
structure Statement where
  command : Command
  collection : String
  filter : Document
  pipeline : List Stage
  sort : List SortKey
  skip : Option UInt64
  limit : Option UInt64
  document : Option Document
  write : Option Write
  upsert : Bool
  /-- The key, if it is known before the statement runs. -/
  idHint : Option Value

def Statement.on (c : Command) (collection : String) : Statement :=
  ⟨c, collection, [], [], [], none, none, none, none, false, none⟩

end Polystore.Documents
