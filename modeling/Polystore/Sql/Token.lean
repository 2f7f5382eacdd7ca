import Polystore.Number.Shortest
import Polystore.Sql.Dialect

/-! # SQL tokens

Statements are lists of tokens, written out once. Values are never part of the text: they stand as
named markers beside a list of binds. -/

namespace Polystore.Sql
set_option autoImplicit false

inductive Keyword where
  | select | from | where | and | or | not | as | orderBy | asc | desc | limit | offset | fetch
  | first | rows | only | in | between | like | isNull | isNotNull
  | insert | into | values | update | set | delete | returning | on | conflict | do | excluded
  | comma | dot | star | lparen | rparen
  | eq | ne | lt | gt | lte | gte
  | space
deriving DecidableEq, Repr

def Keyword.text : Keyword → String
  | .select => "SELECT"
  | .from => "FROM"
  | .where => "WHERE"
  | .and => "AND"
  | .or => "OR"
  | .not => "NOT"
  | .as => "AS"
  | .orderBy => "ORDER BY"
  | .asc => "ASC"
  | .desc => "DESC"
  | .limit => "LIMIT"
  | .offset => "OFFSET"
  | .fetch => "FETCH"
  | .first => "FIRST"
  | .rows => "ROWS"
  | .only => "ONLY"
  | .in => "IN"
  | .between => "BETWEEN"
  | .like => "LIKE"
  | .isNull => "IS NULL"
  | .isNotNull => "IS NOT NULL"
  | .insert => "INSERT"
  | .into => "INTO"
  | .values => "VALUES"
  | .update => "UPDATE"
  | .set => "SET"
  | .delete => "DELETE"
  | .returning => "RETURNING"
  | .on => "ON"
  | .conflict => "CONFLICT"
  | .do => "DO"
  | .excluded => "EXCLUDED"
  | .comma => ","
  | .dot => "."
  | .star => "*"
  | .lparen => "("
  | .rparen => ")"
  | .eq => "="
  | .ne => "<>"
  | .lt => "<"
  | .gt => ">"
  | .lte => "<="
  | .gte => ">="
  | .space => " "

inductive Token where
  | key (k : Keyword)
  | ident (name : String)
  | litInt (n : Int)
  | litString (s : String)
  | litBool (b : Bool)
  /-- Written `:name`; the dialect's placeholder takes its place when the statement is run. -/
  | marker (name : String)
  /-- Written as it is: mapped column expressions, native view text and operators. -/
  | raw (text : String)
deriving DecidableEq, Repr

def Token.chars : Token → List Char
  | key k => k.text.toList
  | ident name => quoteIdentifier name
  | litInt n => Double.intText n
  | litString s => quoteString s
  | litBool b => (boolText b).toList
  | marker name => ':' :: name.toList
  | raw text => text.toList

abbrev Tokens := List Token

namespace Tokens

def chars (ts : Tokens) : List Char := ts.flatMap Token.chars

def text (ts : Tokens) : String := String.ofList (chars ts)

def key (k : Keyword) : Tokens := [.key k]

def parenthesized (ts : Tokens) : Tokens := .key .lparen :: ts ++ [.key .rparen]

/-- The lists one after the other with a separator between them. -/
def join (sep : Tokens) : List Tokens → Tokens
  | [] => []
  | [ts] => ts
  | ts :: rest => ts ++ sep ++ join sep rest

def commaSeparated : List Tokens → Tokens := join [.key .comma, .key .space]

def spaced : List Tokens → Tokens := join [.key .space]

end Tokens
end Polystore.Sql
