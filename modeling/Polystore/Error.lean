import Polystore.Query.Operator

/-! # Errors

What can go wrong, by cause, and the wording of each. All but backend failures arise before any
call to a driver. -/

namespace Polystore
set_option autoImplicit false

/-- Where a query uses a property path. -/
inductive PathUsage where
  | filter | sort | groupBy
deriving DecidableEq, Repr

def PathUsage.text : PathUsage → String
  | filter => "filter"
  | sort => "sort"
  | groupBy => "groupBy"

inductive ValidationError where
  | blankPath (usage : PathUsage) (entity : String)
  | unknownPath (path : String) (usage : PathUsage) (entity : String)
deriving DecidableEq, Repr

/-- A word for the cause. -/
def ValidationError.code : ValidationError → String
  | blankPath .. => "BlankPath"
  | unknownPath .. => "UnknownPath"

def ValidationError.message : ValidationError → String
  | blankPath usage entity => s!"Blank property path in {usage.text} for entity '{entity}'"
  | unknownPath path usage entity =>
    s!"Unknown scalar field path '{path}' in {usage.text} for entity '{entity}'"

inductive PlanningError where
  | missingParam (name : String)
  | unresolvedParam (name : String)
  | compositeKey (entity : String)
  | emptyInsert (table : String)
  | emptyUpdate (table : String)
  | noConflictColumns (table : String)
  | unknownConflictColumn (column : String)
  | unsupportedOperator (op : Operator) (dialect : String)
  | unsupportedUpsert (dialect : String)
  | nullOperand (operator : String)
  | invalidOperand (op : Operator) (expected : String)
  | seekWithoutSort
  | missingSeekValue (field : String)
  | noSource (entity : String)
  | invalidNativeQuery (view reason : String)
  | missingNamespace (view : String)
  | missingCapability (capability entity : String)
  | payloadType (entity : String)
  | bindCountMismatch (markers binds : Nat)
deriving DecidableEq, Repr

def PlanningError.code : PlanningError → String
  | missingParam .. => "MissingParam"
  | unresolvedParam .. => "UnresolvedParam"
  | compositeKey .. => "CompositeKey"
  | emptyInsert .. => "EmptyInsert"
  | emptyUpdate .. => "EmptyUpdate"
  | noConflictColumns .. => "NoConflictColumns"
  | unknownConflictColumn .. => "UnknownConflictColumn"
  | unsupportedOperator .. => "UnsupportedOperator"
  | unsupportedUpsert .. => "UnsupportedUpsert"
  | nullOperand .. => "NullOperand"
  | invalidOperand .. => "InvalidOperand"
  | seekWithoutSort => "SeekWithoutSort"
  | missingSeekValue .. => "MissingSeekValue"
  | noSource .. => "NoSource"
  | invalidNativeQuery .. => "InvalidNativeQuery"
  | missingNamespace .. => "MissingNamespace"
  | missingCapability .. => "MissingHelper"
  | payloadType .. => "PayloadType"
  | bindCountMismatch .. => "BindCountMismatch"

def PlanningError.message : PlanningError → String
  | missingParam name => s!"Missing query param: {name}"
  | unresolvedParam name => s!"Unresolved query param: {name}"
  | compositeKey entity => s!"Composite key not supported for updateById: {entity}"
  | emptyInsert table => s!"Insert into '{table}' has no columns"
  | emptyUpdate table => s!"Update of '{table}' has no set columns"
  | noConflictColumns table => s!"Upsert into '{table}' has no conflict columns"
  | unknownConflictColumn column =>
    s!"Upsert conflict column not found among inserted columns: {column}"
  | unsupportedOperator op dialect => s!"{op.name} is not supported by dialect: {dialect}"
  | unsupportedUpsert dialect => s!"Upsert is not supported by dialect: {dialect}"
  | nullOperand operator => s!"{operator} requires a non-null value"
  | invalidOperand op expected => s!"{op.name} expects {expected}"
  | seekWithoutSort => "Seek pagination requires sort fields"
  | missingSeekValue field => s!"Seek page 'after' is missing a value for sort field: {field}"
  | noSource entity => s!"Entity '{entity}' has no table or collection source"
  | invalidNativeQuery view reason => s!"View '{view}' has an unusable native query: {reason}"
  | missingNamespace view =>
    s!"View '{view}' uses a schema placeholder but the engine handle has no namespace"
  | missingCapability capability entity => s!"No {capability} registered for entity type '{entity}'"
  | payloadType entity => s!"Payload is not of the type registered for entity '{entity}'"
  | bindCountMismatch markers binds =>
    s!"Statement has {markers} parameter markers but {binds} binds"

/-- No binder took a value of some kind and type to some target. -/
structure BindingError where
  dialect : String
  target : String
  valueKind : String
  typeId : String
deriving DecidableEq, Repr

def BindingError.message (e : BindingError) : String :=
  s!"No binder for dialect '{e.dialect}' (target={e.target}, value={e.valueKind}, " ++
    s!"userTypeId={e.typeId})"

/-- The rule of a propagation that the caller's context breaks. -/
inductive TransactionError where
  | noActiveTransaction
  | activeTransaction
deriving DecidableEq, Repr

def TransactionError.code : TransactionError → String
  | noActiveTransaction => "NoActiveTransaction"
  | activeTransaction => "ActiveTransaction"

def TransactionError.message : TransactionError → String
  | noActiveTransaction => "Propagation MANDATORY requires an active transaction"
  | activeTransaction => "Propagation NEVER forbids an active transaction"

/-- A driver's failure, passed on as it is. -/
structure BackendError where
  operation : String
  cause : String
deriving DecidableEq, Repr

def BackendError.message (e : BackendError) : String :=
  s!"backend error during {e.operation}: {e.cause}"

inductive CodecError where
  | unknownType (id dialect : String)
  | decode (typeId found reason : String)
  | encode (typeId found : String)
deriving DecidableEq, Repr

def CodecError.code : CodecError → String
  | unknownType .. => "UnknownType"
  | decode .. => "Decode"
  | encode .. => "Encode"

def CodecError.message : CodecError → String
  | unknownType id dialect => s!"Unknown userTypeId: {id} (dialectId={dialect})"
  | decode typeId found reason => s!"Cannot decode {found} as '{typeId}': {reason}"
  | encode typeId found => s!"Cannot encode {found} as '{typeId}'"

inductive ModelError where
  | unknownEntity (name : String)
  | unknownView (id : String)
  | invalidTypeRef (text reason : String)
  | missingSource (entity : String)
deriving DecidableEq, Repr

def ModelError.code : ModelError → String
  | unknownEntity .. => "UnknownEntity"
  | unknownView .. => "UnknownView"
  | invalidTypeRef .. => "InvalidTypeRef"
  | missingSource .. => "MissingSource"

def ModelError.message : ModelError → String
  | unknownEntity name => s!"Unknown authoring type: {name}"
  | unknownView id => s!"Unknown view: {id}"
  | invalidTypeRef text reason => s!"Invalid type reference '{text}': {reason}"
  | missingSource entity => s!"Entity '{entity}' of kind ENTITY requires a source"

inductive WireError where
  | notJson
  | unknownElement (what : String)
  | operatorBody (operator : String)
  | unknownOperator (name : String)
  | invalidPage (reason : String)
  | shape (what expected : String)
deriving DecidableEq, Repr

def WireError.code : WireError → String
  | notJson => "Syntax"
  | unknownElement .. => "UnknownElement"
  | operatorBody .. => "OperatorBody"
  | unknownOperator .. => "UnknownOperator"
  | invalidPage .. => "InvalidPage"
  | shape .. => "Shape"

def WireError.message : WireError → String
  | notJson => "Invalid query JSON"
  | unknownElement what => s!"Unknown filter element: {what}"
  | operatorBody operator => s!"Operator '{operator}' expects an object body"
  | unknownOperator name => s!"Unknown operator: {name}"
  | invalidPage reason => s!"Invalid page: {reason}"
  | shape what expected => s!"Invalid {what}: expected {expected}"

inductive Error where
  | validation (e : ValidationError)
  | planning (e : PlanningError)
  | binding (e : BindingError)
  | transaction (e : TransactionError)
  | backend (e : BackendError)
  | codec (e : CodecError)
  | model (e : ModelError)
  | wire (e : WireError)
deriving DecidableEq, Repr

def Error.message : Error → String
  | validation e => e.message
  | planning e => e.message
  | binding e => e.message
  | transaction e => e.message
  | backend e => e.message
  | codec e => e.message
  | model e => e.message
  | wire e => e.message

/-- The layer and the cause. -/
def Error.code : Error → String
  | validation e => "Validation." ++ e.code
  | planning e => "Planning." ++ e.code
  | binding _ => "Binding"
  | transaction e => "TransactionState." ++ e.code
  | backend _ => "Backend"
  | codec e => "Codec." ++ e.code
  | model e => "Authoring." ++ e.code
  | wire e => "Wire." ++ e.code

/-- Raises the errors of one layer to errors of the library. -/
def lift {ε α : Type} (wrap : ε → Error) : Except ε α → Except Error α
  | .ok a => .ok a
  | .error e => .error (wrap e)

end Polystore
