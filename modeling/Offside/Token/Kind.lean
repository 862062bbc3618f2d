/-!
# Kinds of tokens

The kinds of tokens that a source text is made of, the name by which each kind is
reported (`TOKEN_KINDS`), and the spelling of those kinds that have only one. Tokens
that do not come from a source text may carry any other name as their kind.
-/

namespace Offside

/-- What sort of token stands in a source text. -/
inductive Kind where
  | intType | stringType | charType | floatType | doubleType | booleanType
  | ifKeyword | elseKeyword | whileKeyword | forKeyword
  | trueLiteral | falseLiteral
  | string | charLiteral | identifier | floatNumber | number
  | increment | plus | decrement | minus | times | divide | modulo
  | and | or
  | eq | neq | leq | geq | lt | gt
  | assign
  | leftBrace | rightBrace | leftParen | rightParen | leftBracket | rightBracket
  | semicolon | comma | dot
  /-- A single quote that starts no character literal. -/
  | singleQuote
  /-- The end of the text. -/
  | eof
  /-- A kind that no source text has. -/
  | other (name : String)
deriving DecidableEq, Repr, Inhabited

namespace Kind

/-- The name by which a kind is reported. -/
def name : Kind → String
  | intType => "int_type"
  | stringType => "string_type"
  | charType => "char_type"
  | floatType => "float_type"
  | doubleType => "double_type"
  | booleanType => "boolean_type"
  | ifKeyword => "if_keyword"
  | elseKeyword => "else_keyword"
  | whileKeyword => "while_keyword"
  | forKeyword => "for_keyword"
  | trueLiteral => "true_literal"
  | falseLiteral => "false_literal"
  | string => "string"
  | charLiteral => "char_literal"
  | identifier => "identifier"
  | floatNumber => "float_number"
  | number => "number"
  | increment => "increment_op"
  | plus => "plus_op"
  | decrement => "decrement_op"
  | minus => "minus_op"
  | times => "multiply_op"
  | divide => "divide_op"
  | modulo => "modulo_op"
  | and => "and_op"
  | or => "or_op"
  | eq => "eq"
  | neq => "neq"
  | leq => "leq"
  | geq => "geq"
  | lt => "lt"
  | gt => "gt"
  | assign => "assign"
  | leftBrace => "left_brace"
  | rightBrace => "right_brace"
  | leftParen => "left_parenthesis"
  | rightParen => "right_parenthesis"
  | leftBracket => "left_bracket"
  | rightBracket => "right_bracket"
  | semicolon => "semicolon"
  | comma => "comma"
  | dot => "dot"
  | singleQuote => "single-quote"
  | eof => "EOF"
  | other n => n

/-- The kinds of tokens that a source text can have. -/
def all : List Kind :=
  [intType, stringType, charType, floatType, doubleType, booleanType,
   ifKeyword, elseKeyword, whileKeyword, forKeyword,
   trueLiteral, falseLiteral, string, charLiteral, identifier, floatNumber, number,
   increment, plus, decrement, minus, times, divide, modulo, and, or,
   eq, neq, leq, geq, lt, gt, assign,
   leftBrace, rightBrace, leftParen, rightParen, leftBracket, rightBracket,
   semicolon, comma, dot, singleQuote, eof]

/-- The kind of a given name. -/
def ofName (n : String) : Kind := (all.find? fun k => k.name == n).getD (other n)

@[simp] theorem name_ofName (n : String) : (ofName n).name = n := by
  unfold ofName
  cases h : all.find? fun k => k.name == n with
  | none => rfl
  | some k => simpa using List.find?_some h

/-- The spelling of the kinds that have exactly one. -/
def spelling? : Kind → Option String
  | intType => some "int"
  | stringType => some "String"
  | charType => some "char"
  | floatType => some "float"
  | doubleType => some "double"
  | booleanType => some "boolean"
  | ifKeyword => some "if"
  | elseKeyword => some "else"
  | whileKeyword => some "while"
  | forKeyword => some "for"
  | trueLiteral => some "true"
  | falseLiteral => some "false"
  | increment => some "++"
  | plus => some "+"
  | decrement => some "--"
  | minus => some "-"
  | times => some "*"
  | divide => some "/"
  | modulo => some "%"
  | and => some "&&"
  | or => some "||"
  | eq => some "=="
  | neq => some "!="
  | leq => some "<="
  | geq => some ">="
  | lt => some "<"
  | gt => some ">"
  | assign => some "="
  | leftBrace => some "\x7b"
  | rightBrace => some "\x7d"
  | leftParen => some "("
  | rightParen => some ")"
  | leftBracket => some "["
  | rightBracket => some "]"
  | semicolon => some ";"
  | comma => some ","
  | dot => some "."
  | singleQuote => some "'"
  | _ => none

theorem spelling?_pos {k : Kind} {w : String} (h : k.spelling? = some w) :
    0 < w.toList.length := by
  cases k <;> simp only [spelling?, Option.some.injEq, reduceCtorEq] at h <;> subst h <;> decide

/-! ## Families of kinds -/

/-- The names of types, which start a declaration (`TYPE_TOKEN_KINDS`). -/
def types : List Kind :=
  [intType, stringType, charType, floatType, doubleType, booleanType]

/-- The words that steer control (`CONTROL_KEYWORDS`). -/
def controls : List Kind := [ifKeyword, elseKeyword, whileKeyword, forKeyword]

/-- The literals of truth values. -/
def truths : List Kind := [trueLiteral, falseLiteral]

/-- Words that are recognised only when they stand alone. -/
def reserved : List Kind := types ++ controls ++ truths

/-- What may be declared as the value of a variable (`VALUE_KINDS`). -/
def values : List Kind :=
  [string, charLiteral, number, floatNumber, trueLiteral, falseLiteral, identifier]

/-- What may be printed (`PRINTABLE_KINDS`). -/
def printables : List Kind := [string, identifier, number, charLiteral, floatNumber]

/-- The comparison operators. -/
def comparisons : List Kind := [eq, neq, lt, gt, leq, geq]

/-- What may stand on the right of a comparison. -/
def operands : List Kind := [number, identifier, trueLiteral, falseLiteral]

/-- The operators that join conditions. -/
def connectives : List Kind := [and, or]

/-- The operators that change a variable by one. -/
def steps : List Kind := [increment, decrement]

end Kind

end Offside
