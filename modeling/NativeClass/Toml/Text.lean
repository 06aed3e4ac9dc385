import NativeClass.Toml.Basic
/-!
# Strings, comments and line ends

* `skipLines`: blanks, line ends and comments, which may stand between the elements of an array.
* `endOfLine`: the end of a line that holds nothing more but a comment.
* `readString`: a string of any of the four kinds.
-/

namespace NativeClass.Toml

/-! ## Between values -/

/-- A text without the blanks that begin it. -/
def skipBlanks (cs : List Char) : List Char :=
  cs.dropWhile isBlank

/-- A text without the comment that begins it, if one does. -/
def skipComment : List Char → List Char
  | '#' :: cs => cs.dropWhile isTextChar
  | cs => cs

/-- The text behind the line end that begins it. -/
def afterNewline? : List Char → Option (List Char)
  | '\n' :: cs => some cs
  | '\r' :: '\n' :: cs => some cs
  | _ => none

/-- The text behind the end of a line. Only blanks and a comment may precede it. -/
def endOfLine (cs : List Char) : Except Error (List Char) :=
  let cs := skipComment (skipBlanks cs)
  match afterNewline? cs with
  | some rest => .ok rest
  | none => if cs.isEmpty then .ok [] else .error (.expected "end of line")

/-- A text without the blanks, line ends and comments that begin it. -/
def skipLines (inComment : Bool) : List Char → List Char
  | [] => []
  | '\r' :: '\n' :: cs => skipLines false cs
  | c :: cs =>
    if c = '\n' then skipLines false cs
    else if inComment then if isTextChar c then skipLines true cs else c :: cs
    else if isBlank c then skipLines false cs
    else if c = '#' then skipLines true cs
    else c :: cs

/-- A text without the blanks and line ends that begin it. -/
def skipEmptyLines : List Char → List Char
  | [] => []
  | '\r' :: '\n' :: cs => skipEmptyLines cs
  | c :: cs => if c = '\n' || isBlank c then skipEmptyLines cs else c :: cs

theorem length_skipEmptyLines_le (cs : List Char) : (skipEmptyLines cs).length ≤ cs.length := by
  fun_induction skipEmptyLines cs with
  | case1 => simp
  | case2 cs ih => simp only [List.length_cons]; omega
  | case3 c cs _ _ ih => simp only [List.length_cons]; omega
  | case4 c cs _ _ => simp

/-! ## Escape sequences -/

/-- The value of a hexadecimal digit. -/
def hexValue? (c : Char) : Option Nat :=
  if c.isDigit then some (c.toNat - '0'.toNat)
  else if 'a' ≤ c ∧ c ≤ 'f' then some (c.toNat - 'a'.toNat + 10)
  else if 'A' ≤ c ∧ c ≤ 'F' then some (c.toNat - 'A'.toNat + 10)
  else none

/-- The character whose number the hexadecimal digits spell. -/
def charOfHex? (ds : List Char) : Option Char := do
  let values ← ds.mapM hexValue?
  let n := values.foldl (fun n d => 16 * n + d) 0
  if n.isValidChar then some (Char.ofNat n) else none

/-- The character of a numbered escape sequence of this many digits, and its length without the backslash. -/
def numberedEscape? (digits : Nat) (cs : List Char) : Option (Char × Nat) :=
  if digits ≤ cs.length then (charOfHex? (cs.take digits)).map (·, digits + 1) else none

/-- The character of the escape sequence that begins a text, and its length, both without the backslash. -/
def escape? : List Char → Option (Char × Nat)
  | 'b' :: _ => some ('\x08', 1)
  | 't' :: _ => some ('\t', 1)
  | 'n' :: _ => some ('\n', 1)
  | 'f' :: _ => some ('\x0c', 1)
  | 'r' :: _ => some ('\r', 1)
  | '"' :: _ => some ('"', 1)
  | '\\' :: _ => some ('\\', 1)
  | 'u' :: cs => numberedEscape? 4 cs
  | 'U' :: cs => numberedEscape? 8 cs
  | _ => none

/-- The text behind a backslash at the end of a line, without the blanks and line ends that follow. -/
def continued? (cs : List Char) : Option (List Char) :=
  (afterNewline? (skipBlanks cs)).map fun _ => skipEmptyLines cs

theorem length_continued?_le {cs rest : List Char} (h : continued? cs = some rest) :
    rest.length ≤ cs.length := by
  simp only [continued?, Option.map_eq_some_iff] at h
  obtain ⟨_, _, rfl⟩ := h
  exact length_skipEmptyLines_le cs

/-! ## Strings -/

/-- A character in front of a string that was read. -/
def prepend (c : Char) (r : List Char × List Char) : List Char × List Char :=
  (c :: r.1, r.2)

/-- The characters of a basic string up to its closing quote, and the text behind it. -/
def basicBody : List Char → Except Error (List Char × List Char)
  | [] => .error (.unclosed "string")
  | c :: cs =>
    if c = '"' then .ok ([], cs)
    else if c = '\\' then
      match escape? cs with
      | some (d, n) => (basicBody (cs.drop n)).map (prepend d)
      | none => .error .malformedEscape
    else if isTextChar c then (basicBody cs).map (prepend c)
    else .error (.forbiddenCharacter c)
termination_by cs => cs.length
decreasing_by all_goals simp only [List.length_cons, List.length_drop]; omega

/-- The characters of a literal string up to its closing quote, and the text behind it. -/
def literalBody : List Char → Except Error (List Char × List Char)
  | [] => .error (.unclosed "string")
  | c :: cs =>
    if c = '\x27' then .ok ([], cs)
    else if isTextChar c then (literalBody cs).map (prepend c)
    else .error (.forbiddenCharacter c)

/-- Quotes at the end of a string of several lines: up to two in front of the closing three belong to the
string. The text begins behind the first of at least three quotes. -/
def closeMulti (quote : Char) (cs : List Char) : List Char × List Char :=
  let extra := min ((cs.takeWhile (· = quote)).length - 2) 2
  (List.replicate extra quote, cs.drop (2 + extra))

/-- The text begins with the second and third of three quotes. -/
def closes (quote : Char) (cs : List Char) : Bool :=
  2 ≤ (cs.takeWhile (· = quote)).length

/-- The characters of a basic string of several lines, and the text behind it. -/
def multiBasicBody : List Char → Except Error (List Char × List Char)
  | [] => .error (.unclosed "string")
  | '\r' :: '\n' :: cs => (multiBasicBody cs).map (prepend '\n')
  | c :: cs =>
    if c = '"' then
      if closes '"' cs then .ok (closeMulti '"' cs) else (multiBasicBody cs).map (prepend '"')
    else if c = '\\' then
      match _h : continued? cs with
      | some rest => multiBasicBody rest
      | none =>
        match escape? cs with
        | some (d, n) => (multiBasicBody (cs.drop n)).map (prepend d)
        | none => .error .malformedEscape
    else if c = '\n' || isTextChar c then (multiBasicBody cs).map (prepend c)
    else .error (.forbiddenCharacter c)
termination_by cs => cs.length
decreasing_by
  · simp only [List.length_cons]; omega
  · simp only [List.length_cons]; omega
  · exact Nat.lt_succ_of_le (length_continued?_le _h)
  · simp only [List.length_cons, List.length_drop]; omega
  · simp only [List.length_cons]; omega

/-- The characters of a literal string of several lines, and the text behind it. -/
def multiLiteralBody : List Char → Except Error (List Char × List Char)
  | [] => .error (.unclosed "string")
  | '\r' :: '\n' :: cs => (multiLiteralBody cs).map (prepend '\n')
  | c :: cs =>
    if c = '\x27' then
      if closes '\x27' cs then .ok (closeMulti '\x27' cs) else (multiLiteralBody cs).map (prepend '\x27')
    else if c = '\n' || isTextChar c then (multiLiteralBody cs).map (prepend c)
    else .error (.forbiddenCharacter c)

/-- A text without the line end that begins it, if one does. -/
def skipNewline (cs : List Char) : List Char :=
  (afterNewline? cs).getD cs

/-- The characters that were read as a string. -/
def packed (r : Except Error (List Char × List Char)) : Except Error (String × List Char) :=
  r.map fun p => (String.ofList p.1, p.2)

/-- The string of one line that begins a text. -/
def readLineString : List Char → Except Error (String × List Char)
  | '"' :: cs => packed (basicBody cs)
  | '\x27' :: cs => packed (literalBody cs)
  | _ => .error (.expected "a string")

/-- The string of any kind that begins a text. A line end right behind three quotes is left out. -/
def readString : List Char → Except Error (String × List Char)
  | '"' :: '"' :: '"' :: cs => packed (multiBasicBody (skipNewline cs))
  | '\x27' :: '\x27' :: '\x27' :: cs => packed (multiLiteralBody (skipNewline cs))
  | cs => readLineString cs

end NativeClass.Toml
