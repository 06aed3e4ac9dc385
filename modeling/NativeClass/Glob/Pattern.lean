/-!
# Glob patterns

A pattern is a list of tokens: characters, `?`, classes such as `[a-z]` and `[!abc]`, the sequence `*`, and
the sequence of whole directories `**`, which stands alone between slashes.

* `Pattern.parse?`: the pattern that a text spells.
* `Pattern.matchFrom`: the search, which gives up early when the text has run out.
* `Pattern.accepts`: the pattern matches the whole text.
-/

namespace NativeClass.Glob

/-- Whether letters of the two cases are told apart. Only ASCII letters have two cases here. -/
inductive CaseRule where
  | sensitive
  | insensitive
  deriving DecidableEq, Inhabited

/-- A member of a class of characters. -/
inductive CharRange where
  | single (c : Char)
  | range (first last : Char)
  deriving DecidableEq, Inhabited

/-- A part of a pattern. -/
inductive Token where
  /-- This character. -/
  | char (c : Char)
  /-- Any one character. -/
  | anyChar
  /-- Any number of characters. -/
  | anySequence
  /-- Any number of whole directories. -/
  | anyDirectories
  /-- A character of a class. -/
  | within (members : List CharRange)
  /-- A character outside a class. -/
  | outside (members : List CharRange)
  deriving DecidableEq, Inhabited

/-- The tokens of a pattern. -/
structure Pattern where
  tokens : List Token
  deriving DecidableEq, Inhabited

/-! ## Reading -/

/-- The members that the text between the brackets of a class spells. -/
def classMembers : List Char → List CharRange
  | a :: '-' :: b :: cs => .range a b :: classMembers cs
  | a :: cs => .single a :: classMembers cs
  | [] => []

/-- The text up to a closing bracket and the text after it. -/
def splitBracket? (cs : List Char) : Option (List Char × List Char) :=
  match cs.dropWhile (· ≠ ']') with
  | [] => none
  | _ :: rest => some (cs.takeWhile (· ≠ ']'), rest)

/-- The class that begins a text, after its opening bracket, and the text behind it. The first member may be a
closing bracket. -/
def splitClass? : List Char → Option (Token × List Char)
  | '!' :: c :: cs => (splitBracket? cs).map fun (more, rest) => (.outside (classMembers (c :: more)), rest)
  | '!' :: [] => none
  | c :: cs => (splitBracket? cs).map fun (more, rest) => (.within (classMembers (c :: more)), rest)
  | [] => none

/-- The tokens with whole directories appended. A second such token in a row adds nothing, except right at the
start. -/
def appendDirectories (tokens : List Token) : List Token :=
  if 1 < tokens.length && tokens.getLast? = some .anyDirectories then tokens
  else tokens ++ [.anyDirectories]

/-- The stars that begin a text as tokens, and the text behind them. A double star begins the text or follows a
slash, and a slash or the end follows it. -/
def splitStars? (tokens : List Token) (atComponent : Bool) (stars : Nat) (rest : List Char) :
    Option (List Token × List Char) :=
  if stars = 1 then some (tokens ++ [.anySequence], rest)
  else if stars = 2 && atComponent then
    match rest with
    | [] => some (appendDirectories tokens, [])
    | '/' :: rest => some (appendDirectories tokens, rest)
    | _ => none
  else none

/-- The tokens of a text behind the tokens read so far. `atComponent` says that the last character read was a
slash or that none was. -/
def parseTokens? (fuel : Nat) (tokens : List Token) (atComponent : Bool) :
    List Char → Option (List Token)
  | [] => some tokens
  | c :: cs =>
    match fuel with
    | 0 => none
    | fuel + 1 =>
      match c with
      | '?' => parseTokens? fuel (tokens ++ [.anyChar]) false cs
      | '*' =>
        let stars := 1 + (cs.takeWhile (· = '*')).length
        match splitStars? tokens atComponent stars (cs.dropWhile (· = '*')) with
        | some (tokens, rest) => parseTokens? fuel tokens (stars = 2) rest
        | none => none
      | '[' =>
        match splitClass? cs with
        | some (token, rest) => parseTokens? fuel (tokens ++ [token]) false rest
        | none => none
      | c => parseTokens? fuel (tokens ++ [.char c]) (c = '/') cs

/-- The pattern that a text spells. -/
def Pattern.parse? (s : String) : Option Pattern :=
  (parseTokens? s.toList.length [] true s.toList).map Pattern.mk

/-! ## Matching -/

/-- Two characters are the same. -/
def CaseRule.same (rule : CaseRule) (a b : Char) : Bool :=
  match rule with
  | .sensitive => a = b
  | .insensitive => a.toLower = b.toLower

/-- The range ends at letters and holds the character up to case. -/
def inLetterRange (first last c : Char) : Bool :=
  let a := first.toLower
  let b := last.toLower
  c.toNat < 128 && a.isLower && b.isLower && a ≤ c.toLower && c.toLower ≤ b

/-- The character is in the range. Where cases are not told apart, a range that ends at letters holds both
cases of its letters. -/
def CharRange.holds (rule : CaseRule) (c : Char) : CharRange → Bool
  | .single d => rule.same c d
  | .range first last =>
    (rule = .insensitive && inLetterRange first last c) || (first ≤ c && c ≤ last)

/-- The character fits the token. -/
def Token.holds (rule : CaseRule) (c : Char) : Token → Bool
  | .char d => rule.same c d
  | .within members => members.any (·.holds rule c)
  | .outside members => !members.any (·.holds rule c)
  | .anyChar | .anySequence | .anyDirectories => true

/-- The end of a search. -/
inductive Verdict where
  | matched
  /-- The tokens do not match here, but may match after a longer sequence. -/
  | mismatch
  /-- The text ran out before the tokens did; a longer sequence does not help. -/
  | exhausted
  deriving DecidableEq, Inhabited

/-- The tokens behind a sequence, tried after ever longer beginnings of the text: after any character, or only
after slashes. The first verdict other than a mismatch counts. At the end of the text the tokens are tried
on nothing. -/
def tryAfter (slashes : Bool) (attempt : List Char → Verdict) : List Char → Verdict
  | [] => attempt []
  | c :: cs =>
    if slashes && c ≠ '/' then tryAfter slashes attempt cs
    else
      match attempt cs with
      | .mismatch => tryAfter slashes attempt cs
      | v => v

/-- The tokens behind a sequence, tried on the text and on what longer beginnings leave of it. -/
def tryBehind (slashes : Bool) (attempt : List Char → Verdict) (cs : List Char) : Verdict :=
  match attempt cs with
  | .mismatch => tryAfter slashes attempt cs
  | v => v

/-- The verdict of tokens on a text. -/
def matchFrom (rule : CaseRule) : List Token → List Char → Verdict
  | [], [] => .matched
  | [], _ :: _ => .mismatch
  | .anySequence :: ts, cs => tryBehind false (matchFrom rule ts) cs
  | .anyDirectories :: ts, cs => tryBehind true (matchFrom rule ts) cs
  | t :: ts, c :: cs => if t.holds rule c then matchFrom rule ts cs else .mismatch
  | _ :: _, [] => .exhausted

/-- The pattern matches the whole text. -/
def Pattern.accepts (p : Pattern) (rule : CaseRule) (s : String) : Bool :=
  matchFrom rule p.tokens s.toList = .matched

/-- The character that a token stands for, if it stands for one only. -/
def Token.literal? : Token → Option Char
  | .char c => some c
  | _ => none

/-- The text that a pattern stands for, if it has no wildcard. -/
def Pattern.literal? (p : Pattern) : Option String :=
  (p.tokens.mapM Token.literal?).map String.ofList

end NativeClass.Glob
