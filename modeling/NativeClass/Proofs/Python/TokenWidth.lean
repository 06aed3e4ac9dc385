import Mathlib.Algebra.GroupWithZero.Nat
import NativeClass.Proofs.Ensures
import NativeClass.Python.StringLiteral
/-!
# The width of tokens

A name takes as many characters of the text as it has, a string two more than it holds, and an operator
one at least.

* `Tok.width`, `tokensWidth`: the characters that a token and a list of tokens take at least.
* `LexState.width`: the tokens found together with the text that is left; no step of the lexer makes it
  larger.
* **`ensures_lex`**: the tokens of a text are no wider than the text.
-/

namespace NativeClass.Python

/-- The characters that a token takes at least. -/
def Tok.width : Tok → Nat
  | .name word | .keyword word => word.length
  | .str _ content => content.length + 2
  | .op _ => 1
  | .int | .float | .complex | .newline | .indent | .dedent => 0

/-- The characters that tokens take at least. -/
def tokensWidth (ts : List Token) : Nat :=
  (ts.map (·.tok.width)).sum

@[simp] theorem tokensWidth_nil : tokensWidth [] = 0 := rfl

@[simp] theorem tokensWidth_cons (t : Token) (ts : List Token) :
    tokensWidth (t :: ts) = t.tok.width + tokensWidth ts := by
  simp [tokensWidth]

@[simp] theorem tokensWidth_append (ts us : List Token) :
    tokensWidth (ts ++ us) = tokensWidth ts + tokensWidth us := by
  simp [tokensWidth]

@[simp] theorem tokensWidth_reverse (ts : List Token) : tokensWidth ts.reverse = tokensWidth ts := by
  simp [tokensWidth]

theorem tokensWidth_replicate {t : Token} (ht : t.tok.width = 0) (n : Nat) :
    tokensWidth (List.replicate n t) = 0 := by
  simp [tokensWidth, ht]

theorem width_ofWord (word : String) : (Tok.ofWord word).width = word.length := by
  unfold Tok.ofWord
  split <;> rfl

/-! ## Numbers -/

theorem ensures_lexFraction (cs : List Char) :
    Ensures (lexFraction cs) (fun r => r.1.width = 0) fun _ => True := by
  unfold lexFraction
  extract_lets finish exponent
  have hfinish : ∀ cs, Ensures (finish cs) (fun r => r.1.width = 0) fun _ => True := by
    intro cs
    unfold finish
    split
    · split <;> rfl
    · rfl
  have hexponent : ∀ cs, Ensures (exponent cs) (fun r => r.1.width = 0) fun _ => True := by
    intro cs
    unfold exponent
    split
    · split
      · exact (ensures_true _).bind fun cs _ => hfinish cs
      · exact (ensures_true _).bind fun cs _ => hfinish cs
    · exact (ensures_true _).bind fun cs _ => hfinish cs
  split
  · split
    · trivial
    · exact (ensures_true _).bind fun cs _ => hexponent cs
  · exact (ensures_true _).bind fun cs _ => hexponent cs

theorem ensures_checkZeros (ds rest : List Char) :
    Ensures (lexDecimal.checkZeros ds rest) (fun r => r.1.width = 0) fun _ => True := by
  unfold lexDecimal.checkZeros
  split
  · trivial
  · rfl

theorem ensures_lexDecimal (cs : List Char) :
    Ensures (lexDecimal cs) (fun r => r.1.width = 0) fun _ => True := by
  unfold lexDecimal
  split
  split
  · exact ensures_lexFraction _
  · split
    · split
      · rfl
      · exact ensures_checkZeros _ _
    · exact ensures_checkZeros _ _

theorem ensures_lexBase (base : Nat) (cs : List Char) :
    Ensures (lexBase base cs) (fun r => r.1.width = 0) fun _ => True := by
  unfold lexBase
  dsimp only
  split
  · trivial
  · rfl

theorem ensures_lexNumber (cs : List Char) :
    Ensures (lexNumber cs) (fun r => r.1.width = 0) fun _ => True := by
  unfold lexNumber
  split
  · split_ifs
    · exact ensures_lexBase 16 _
    · exact ensures_lexBase 8 _
    · exact ensures_lexBase 2 _
    · exact ensures_lexDecimal _
  · exact ensures_lexDecimal _

/-! ## Strings -/

theorem ensures_push {r : Except SyntaxError (List Char × List Char)} {front cs cs' : List Char}
    (h : Ensures r (fun r => r.1.length + r.2.length < cs.length) fun _ => True)
    (hfront : front.length + cs.length ≤ cs'.length) :
    Ensures (lexQuoted.push front r) (fun r => r.1.length + r.2.length < cs'.length) fun _ => True := by
  cases r with
  | error e => trivial
  | ok e =>
    have he : e.1.length + e.2.length < cs.length := h
    show (front ++ e.1).length + e.2.length < cs'.length
    rw [List.length_append]
    omega

/-- What stands between quotes is shorter than the text up to the closing quote. -/
theorem ensures_lexQuoted (quote : Char) (triple : Bool) (cs : List Char) :
    Ensures (lexQuoted quote triple cs) (fun r => r.1.length + r.2.length < cs.length) fun _ => True := by
  fun_induction lexQuoted quote triple cs with
  | case1 | case5 | case7 => trivial
  | case2 _ ih | case3 _ _ _ ih | case4 _ _ ih | case6 _ _ _ _ _ _ _ ih | case9 _ _ _ _ _ _ _ _ _ ih
  | case10 _ _ _ _ _ _ _ ih | case12 _ _ _ _ _ _ _ ih =>
    exact ensures_push ih (by simp only [List.length_cons, List.length_nil]; omega)
  | case8 | case11 =>
    simp only [ensures_ok, List.length_cons, List.length_nil]
    omega

theorem ensures_lexString (kind : StringKind) (cs : List Char) :
    Ensures (lexString kind cs) (fun r => r.1.width + r.2.length ≤ cs.length) fun _ => True := by
  have hfinish : ∀ {r} {cs' : List Char}, cs'.length < cs.length →
      Ensures r (fun r => r.1.length + r.2.length < cs'.length) (fun _ => True) →
      Ensures (lexString.finish kind r) (fun r => r.1.width + r.2.length ≤ cs.length) fun _ => True := by
    intro r cs' hcs h
    cases r with
    | error e => trivial
    | ok e =>
      have he : e.1.length + e.2.length < cs'.length := h
      show e.1.length + 2 + e.2.length ≤ cs.length
      omega
  unfold lexString
  split
  · split
    · exact hfinish (by simp only [List.length_cons]; omega) (ensures_lexQuoted _ true _)
    · exact hfinish (by simp only [List.length_cons]; omega) (ensures_lexQuoted _ false _)
  · exact hfinish (by simp only [List.length_cons]; omega) (ensures_lexQuoted _ false _)
  · trivial

theorem length_le_of_stringStart? {cs : List Char} {kind : StringKind} {quoted : List Char}
    (h : stringStart? cs = some (kind, quoted)) : quoted.length ≤ cs.length := by
  unfold stringStart? at h
  split at h
  all_goals simp at h
  all_goals grind

/-! ## Texts -/

namespace StringLiteral

theorem ensures_hexEscape (count : Nat) (cs : List Char) :
    Ensures (hexEscape count cs) (fun r => r.1.length + r.2.length ≤ cs.length + 1) fun _ => True := by
  unfold hexEscape
  split
  next n rest hn =>
    have hrest : rest = cs.drop count := by
      unfold hexNumber? at hn
      dsimp only at hn
      split at hn
      · cases hn
      · obtain ⟨values, -, hvalues⟩ := Option.bind_eq_some_iff.mp hn
        cases hvalues
        rfl
    split
    · show 1 + rest.length ≤ cs.length + 1
      rw [hrest, List.length_drop]
      omega
    · trivial
  · trivial

theorem ensures_namedEscape (cs : List Char) :
    Ensures (namedEscape cs) (fun r => r.1.length + r.2.length ≤ cs.length + 1) fun _ => True := by
  unfold namedEscape
  split
  next cs =>
    dsimp only
    split
    next rest hrest =>
      have hlength := (List.dropWhile_suffix (l := cs) (· ≠ '\x7d')).length_le
      rw [hrest] at hlength
      split
      · show 1 + rest.length ≤ (_ :: cs).length + 1
        simp only [List.length_cons] at *
        omega
      · trivial
    · trivial
  · trivial

theorem ensures_escape (isBytes : Bool) (cs : List Char) :
    Ensures (escape isBytes cs) (fun r => r.1.length + r.2.length ≤ cs.length + 1) fun _ => True := by
  have hcons : ∀ {r : Except SyntaxError (List Char × List Char)} {c : Char} {cs : List Char},
      Ensures r (fun r => r.1.length + r.2.length ≤ cs.length + 1) (fun _ => True) →
      Ensures r (fun r => r.1.length + r.2.length ≤ (c :: cs).length + 1) fun _ => True :=
    fun h => h.mono fun _ h => Nat.le_succ_of_le h
  have hkept : ∀ {front cs : List Char} {c : Char}, front.length ≤ 2 →
      Ensures (.ok (front, cs) : Except SyntaxError _) (fun r => r.1.length + r.2.length ≤ (c :: cs).length + 1)
        fun _ => True := by
    intro front cs c h
    show front.length + cs.length ≤ cs.length + 1 + 1
    omega
  unfold escape
  split
  · trivial
  next c cs =>
    split
    case h_11 => exact hcons (ensures_hexEscape 2 _)
    case h_13 =>
      dsimp only
      split_ifs
      · refine hcons ?_
        show 1 + (List.drop _ cs).length ≤ cs.length + 1
        rw [List.length_drop]
        omega
      · exact hkept (Nat.le_refl _)
      · trivial
      · exact hcons (ensures_hexEscape 4 _)
      · exact hcons (ensures_hexEscape 8 _)
      · exact hcons (ensures_namedEscape _)
      · exact hkept (Nat.le_refl _)
    all_goals exact hkept (by simp)

theorem ensures_unescapeSteps (kind : StringKind) (steps : Nat) (content : List Char) :
    Ensures (unescapeSteps kind steps content) (fun cs => cs.length ≤ content.length) fun _ => True := by
  fun_induction unescapeSteps kind steps content with
  | case1 => exact Nat.le_refl _
  | case2 | case4 => trivial
  | case3 steps c cs _ ih =>
    refine (ensures_escape kind.isBytes cs).bind fun ⟨front, rest⟩ hfront => (ih rest).bind fun others hothers => ?_
    replace hfront : front.length + rest.length ≤ cs.length + 1 := hfront
    show (front ++ others).length ≤ cs.length + 1
    rw [List.length_append]
    omega
  | case5 steps c cs _ _ ih => exact ih.bind fun others hothers => Nat.succ_le_succ hothers

/-- A text has no more characters than what stands between its quotes. -/
theorem ensures_unescape (kind : StringKind) (content : List Char) :
    Ensures (unescape kind content) (fun cs => cs.length ≤ content.length) fun _ => True :=
  ensures_unescapeSteps kind content.length content

end StringLiteral

/-! ## Steps of the lexer -/

namespace LexState

/-- The tokens found so far and the text that is left. -/
def width (s : LexState) : Nat :=
  tokensWidth s.found + s.rest.length

theorem width_skip_le (s : LexState) (count : Nat) : (s.skip count).width ≤ s.width := by
  simp only [width, skip, List.length_drop]
  omega

theorem width_skipTo_le (s : LexState) (rest : List Char) : (s.skipTo rest).width ≤ s.width :=
  s.width_skip_le _

theorem width_emit_le (s : LexState) {tok : Tok} {count : Nat} (hcount : tok.width ≤ count)
    (hrest : tok.width ≤ s.rest.length) : (s.emit tok count).width ≤ s.width := by
  simp only [width, emit, skip, tokensWidth_cons, List.length_drop]
  omega

theorem width_emitTo_le (s : LexState) {tok : Tok} {rest : List Char}
    (h : tok.width ≤ s.rest.length - rest.length) : (s.emitTo tok rest).width ≤ s.width :=
  s.width_emit_le h (Nat.le_trans h (Nat.sub_le _ _))

theorem ensures_beginLine (s : LexState) :
    Ensures s.beginLine (fun s' => s'.width ≤ s.width) fun _ => True := by
  unfold beginLine
  refine (ensures_true _).bind fun ⟨level, rest⟩ _ => ?_
  have hskip := s.width_skipTo_le rest
  refine (ensures_true _).bind fun order _ => ?_
  cases order with
  | eq => exact hskip
  | gt =>
    show tokensWidth (_ :: (s.skipTo rest).found) + (s.skipTo rest).rest.length ≤ s.width
    rw [tokensWidth_cons, show (Tok.indent).width = 0 from rfl, Nat.zero_add]
    exact hskip
  | lt =>
    refine (ensures_true _).bind fun ⟨blocks, closed⟩ _ => ?_
    show tokensWidth (List.replicate closed _ ++ (s.skipTo rest).found) + (s.skipTo rest).rest.length ≤ s.width
    rw [tokensWidth_append, tokensWidth_replicate rfl, Nat.zero_add]
    exact hskip

theorem ensures_finish (s : LexState) :
    Ensures s.finish (fun s' => s'.width ≤ s.width) fun _ => True := by
  unfold finish
  extract_lets ended dedents close
  have hended : ended.width = s.width := by
    unfold ended
    split
    · rfl
    · simp [width, emitEmpty, Tok.width]
  split
  · trivial
  · show tokensWidth (dedents ++ ended.found) + ended.rest.length ≤ s.width
    rw [tokensWidth_append, tokensWidth_replicate rfl, Nat.zero_add]
    exact Nat.le_of_eq hended

theorem ensures_lexOperator (s : LexState) (c : Char) :
    Ensures (s.lexOperator c) (fun s' => s'.width ≤ s.width) fun _ => True := by
  unfold lexOperator
  split
  · trivial
  next o ho =>
    have hpos : 1 ≤ o.length := by
      have : ∀ o ∈ operators, 1 ≤ o.length := by decide
      exact this o (List.mem_of_find?_eq_some ho)
    have hprefix : o.toList <+: s.rest := by simpa using List.find?_some ho
    have hemit : (s.emit (.op o) o.length).width ≤ s.width :=
      s.width_emit_le hpos (Nat.le_trans hpos hprefix.length_le)
    dsimp only
    split_ifs
    · exact hemit
    · trivial
    · exact hemit
    · exact hemit

theorem ensures_next (s : LexState) {c : Char} {cs : List Char} (hrest : s.rest = c :: cs) :
    Ensures (s.next c cs) (fun s' => s'.width ≤ s.width) fun _ => True := by
  unfold next
  split
  next kind quoted hstart =>
    refine (ensures_lexString kind quoted).bind fun ⟨tok, rest⟩ htok => ?_
    replace htok : tok.width + rest.length ≤ quoted.length := htok
    have hquoted := length_le_of_stringStart? hstart
    exact s.width_emitTo_le (by omega)
  split_ifs
  · have hword : (Tok.ofWord (String.ofList (s.rest.takeWhile isIdentifierPart))).width =
        (s.rest.takeWhile isIdentifierPart).length := by rw [width_ofWord, String.length_ofList]
    exact s.width_emit_le (Nat.le_of_eq hword) (hword ▸ (List.takeWhile_prefix isIdentifierPart).length_le)
  · exact s.width_emit_le (by simp [Tok.width]) (by simp [Tok.width, hrest])
  · refine (ensures_lexNumber s.rest).bind fun ⟨tok, rest⟩ htok => ?_
    exact s.width_emitTo_le (Nat.le_trans (Nat.le_of_eq htok) (Nat.zero_le _))
  · exact s.width_skip_le _
  · exact s.width_emit_le (Nat.zero_le _) (Nat.zero_le _)
  · exact s.width_skip_le _
  · exact s.width_skip_le _
  · split
    · extract_lets count skip check
      split
      · trivial
      · unfold check
        split
        · trivial
        · exact s.width_skip_le _
    · trivial
  · exact ensures_lexOperator s c

theorem ensures_run (steps : Nat) (s : LexState) :
    Ensures (s.run steps) (fun s' => s'.width ≤ s.width) fun _ => True := by
  induction steps generalizing s with
  | zero => trivial
  | succ steps ih =>
    unfold run
    extract_lets proceed
    have hproceed : ∀ s' : LexState, s'.width ≤ s.width →
        Ensures (proceed s') (fun s' => s'.width ≤ s.width) fun _ => True := by
      intro s' hs'
      unfold proceed
      split
      · exact s'.ensures_finish.mono fun _ h => Nat.le_trans h hs'
      next c cs hrest =>
        refine (s'.ensures_next hrest).bind fun s'' hs'' => ?_
        exact (ih s'').mono fun _ h => Nat.le_trans h (Nat.le_trans hs'' hs')
    split
    · exact s.ensures_beginLine.bind hproceed
    · exact hproceed s (Nat.le_refl _)

end LexState

theorem tokensWidth_resolveSoftKeywords (lineStart : Bool) (ts : List Token) :
    tokensWidth (Token.resolveSoftKeywords lineStart ts) = tokensWidth ts := by
  induction ts generalizing lineStart with
  | nil => rfl
  | cons t ts ih =>
    rw [Token.resolveSoftKeywords, tokensWidth_cons, tokensWidth_cons, ih]
    congr 1
    cases h : t.tok with
    | keyword w =>
      -- Whichever way the word is read, its token has the same characters.
      have hread : ∀ isKeyword : Bool,
          (if isKeyword then t else { t with tok := .name w }).tok.width = w.length := by
        intro isKeyword
        cases isKeyword
        · rfl
        · simp [h, Tok.width]
      exact hread _
    | _ => simp [h]

/-- **The tokens of a text are no wider than the text.** -/
theorem ensures_lex (statements : Bool) (source : List Char) :
    Ensures (Token.lex statements source) (fun ts => tokensWidth ts ≤ source.length) fun _ => True := by
  unfold Token.lex
  extract_lets start
  have hstart : start.width ≤ source.length := by
    unfold start
    split <;> simp [LexState.width]
  refine (start.ensures_run _).bind fun final hfinal => ?_
  show tokensWidth (Token.resolveSoftKeywords statements final.found.reverse) ≤ source.length
  rw [tokensWidth_resolveSoftKeywords, tokensWidth_reverse]
  unfold LexState.width at *
  omega

end NativeClass.Python
