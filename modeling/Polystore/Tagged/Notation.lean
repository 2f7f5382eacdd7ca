import Polystore.Model.TypeRef
import Polystore.Sql.Token
import Polystore.Tagged.Basic

/-! # Type references and tokens as tagged JSON -/

namespace Polystore.Tagged
set_option autoImplicit false

def typeRef : TypeRef → Json
  | .scalar id => texts ["scalar", id]
  | .ref e => texts ["ref", e]
  | .value e => texts ["value", e]
  | .list t => .arr [.str "list", typeRef t]
  | .set t => .arr [.str "set", typeRef t]
  | .array t => .arr [.str "array", typeRef t]
  | .map k v => .arr [.str "map", typeRef k, typeRef v]

def keywords : List (String × Sql.Keyword) :=
  [("Select", .select), ("From", .from), ("Where", .where), ("And", .and), ("Or", .or),
    ("Not", .not), ("As", .as), ("OrderBy", .orderBy), ("Asc", .asc), ("Desc", .desc),
    ("Limit", .limit), ("Offset", .offset), ("Fetch", .fetch), ("First", .first), ("Rows", .rows),
    ("Only", .only), ("In", .in), ("Between", .between), ("Like", .like), ("IsNull", .isNull),
    ("IsNotNull", .isNotNull), ("Insert", .insert), ("Into", .into), ("Values", .values),
    ("Update", .update), ("Set", .set), ("Delete", .delete), ("Returning", .returning), ("On", .on),
    ("Conflict", .conflict), ("Do", .do), ("Excluded", .excluded), ("Comma", .comma), ("Dot", .dot),
    ("Star", .star), ("LParen", .lparen), ("RParen", .rparen), ("Eq", .eq), ("Ne", .ne),
    ("Lt", .lt), ("Gt", .gt), ("Lte", .lte), ("Gte", .gte), ("Space", .space)]

def textToken? (kind text : String) : Option Sql.Token :=
  match kind with
  | "Ident" => some (.ident text)
  | "LitString" => some (.litString text)
  | "Marker" => some (.marker text)
  | "Raw" => some (.raw text)
  | _ => none

def token? : List Json → Option Sql.Token
  | [.str "LitInt", n] => (integer? n).map .litInt
  | [.str "LitBool", .bool b] => some (.litBool b)
  | [.str kind, .str text] => textToken? kind text
  | _ => none

mutual
/-- A token, tokens in parentheses, or lists of tokens with commas between them. -/
def tokens? : Json → Option Sql.Tokens
  | .str name => (keywords.lookup name).map fun k => [.key k]
  | .arr js => (token? js).map fun t => [t]
  | .obj ms => group? ms
  | _ => none
def group? : List (String × Json) → Option Sql.Tokens
  | [("paren", .arr js)] => (tokensAll? js).map Sql.Tokens.parenthesized
  | [("comma", .arr js)] => (tokenLists? js).map Sql.Tokens.commaSeparated
  | _ => none
def tokensAll? : List Json → Option Sql.Tokens
  | [] => some []
  | j :: js => do
    let ts ← tokens? j
    let rest ← tokensAll? js
    some (ts ++ rest)
def tokenLists? : List Json → Option (List Sql.Tokens)
  | [] => some []
  | .arr js :: rest => do
    let ts ← tokensAll? js
    let others ← tokenLists? rest
    some (ts :: others)
  | _ => none
end

end Polystore.Tagged
