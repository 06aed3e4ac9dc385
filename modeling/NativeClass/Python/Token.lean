/-!
# Tokens

* `Span`: a stretch of the source text, in bytes.
* `Tok`: what the lexer finds; `Token` adds the span.
-/

namespace NativeClass.Python

/-- A stretch of the source text, from byte `start` up to byte `stop`. -/
structure Span where
  start : Nat
  stop : Nat
  deriving DecidableEq, Inhabited

/-- How the characters between the quotes of a string are read. -/
structure StringKind where
  /-- The string denotes bytes. -/
  isBytes : Bool := false
  /-- Backslashes stand for themselves. -/
  isRaw : Bool := false
  /-- Braces enclose expressions. -/
  isFormatted : Bool := false
  deriving DecidableEq, Inhabited

/-- The content of a token. -/
inductive Tok where
  | name (word : String)
  | keyword (word : String)
  | int
  | float
  | complex
  /-- A string with the characters between its quotes. -/
  | str (kind : StringKind) (content : List Char)
  /-- An operator or a delimiter. -/
  | op (text : String)
  /-- The end of a logical line. -/
  | newline
  | indent
  | dedent
  deriving DecidableEq, Inhabited

/-- A token and where it stands. -/
structure Token where
  tok : Tok
  span : Span
  deriving DecidableEq, Inhabited

/-- The words that are never names, and the three that are keywords in some places only. -/
def keywords : List String :=
  ["False", "None", "True", "and", "as", "assert", "async", "await", "break", "class", "continue",
    "def", "del", "elif", "else", "except", "finally", "for", "from", "global", "if", "import", "in",
    "is", "lambda", "nonlocal", "not", "or", "pass", "raise", "return", "try", "while", "with", "yield",
    "match", "case", "type"]

/-- The token of a word. -/
def Tok.ofWord (word : String) : Tok :=
  if keywords.contains word then .keyword word else .name word

/-- The operators and delimiters of one length in characters, longest first. -/
def operators : List String :=
  ["**=", "//=", ">>=", "<<=", "...",
    "!=", "%=", "&=", "**", "*=", "+=", "-=", "->", "//", "/=", ":=", "<<", "<=", "==", ">=", ">>",
    "@=", "^=", "|=",
    "%", "&", "(", ")", "*", "+", ",", "-", ".", "/", ":", ";", "<", "=", ">", "@", "[", "]", "^",
    "\x7b", "|", "\x7d", "~"]

end NativeClass.Python
