import NativeClass.Proofs.Python.TokenWidth
import NativeClass.Python.Parser.Stmt
/-!
# The width of expressions

Every part of an expression is read from tokens of its own, so the names and texts in it are together no
longer than the text it is read from.

* `Expr.width`: the characters that an expression takes at least.
* `Parser.Spends k p w`: what the parser `p` finds and the tokens that it leaves are together no wider than the
  tokens that it is given and `k` characters more; `SpendsAt` for a next token that is known.
* `Parser.Spends.bind`, `Parser.Spends.skip`, `Parser.Spends.peek`: one parser after another.
* **`Parser.narrow_exprForms`**: no form of the grammar finds anything wider than its tokens.
* **`width_le_of_parseExpression`**: an expression is no wider than its text.
-/

namespace NativeClass.Python

mutual

/-- The characters that an expression takes at least, as far as names and texts in it can stand for types. -/
def Expr.width : Expr → Nat
  | .name _ id => id.length
  | .literal _ (.str value) => if value.isEmpty then 0 else value.length + 2
  | .attribute _ value attr => value.width + attr.length + 1
  | .subscript _ value index => value.width + index.width + 2
  | .binary _ left _ right => left.width + right.width + 1
  | .tuple _ elems => exprsWidth elems
  | _ => 0

/-- The characters that expressions take at least. -/
def exprsWidth : List Expr → Nat
  | [] => 0
  | e :: es => e.width + exprsWidth es

end

namespace Expr

variable (span : Span)

theorem width_text (value : String) :
    (Expr.literal span (.str value)).width = if value.isEmpty then 0 else value.length + 2 := rfl

theorem width_attribute (value : Expr) (attr : String) :
    (Expr.attribute span value attr).width = value.width + attr.length + 1 := rfl

theorem width_subscript (value index : Expr) :
    (Expr.subscript span value index).width = value.width + index.width + 2 := rfl

theorem width_binary (left right : Expr) (op : BinaryOp) :
    (Expr.binary span left op right).width = left.width + right.width + 1 := rfl

theorem width_tuple (elems : List Expr) : (Expr.tuple span elems).width = (elems.map Expr.width).sum := by
  show exprsWidth elems = _
  induction elems with
  | nil => rfl
  | cons e es ih =>
    rw [List.map_cons, List.sum_cons, ← ih]
    rfl

end Expr

/-- The characters that the tokens which are left take at least. -/
def Cursor.width (c : Cursor) : Nat :=
  tokensWidth c.rest

namespace Parser

variable {α β : Type} {k k' : Nat} {w w' : α → Nat} {v : β → Nat} {p q : Parser α}

/-- What the parser finds is no wider than the tokens that it reads and `k` characters more. -/
def Spends (k : Nat) (p : Parser α) (w : α → Nat) : Prop :=
  ∀ c a c', p.run c = .ok (a, c') → w a + c'.width ≤ c.width + k

/-- The parser gives no token back. -/
abbrev Shrinks (p : Parser α) : Prop :=
  Spends 0 p fun _ => 0

/-- The same where the next token is known. -/
def SpendsAt (next : Option Tok) (k : Nat) (p : Parser α) (w : α → Nat) : Prop :=
  ∀ c a c', c.rest.head?.map Token.tok = next → p.run c = .ok (a, c') → w a + c'.width ≤ c.width + k

namespace Spends

theorem pure {a : α} (h : w a ≤ k) : Spends k (pure a) w := by
  rintro c _ _ ⟨⟩
  omega

theorem throw (e : SyntaxError) : Spends k (throw e : Parser α) w := by
  rintro c _ _ ⟨⟩

theorem throw_bind (e : SyntaxError) (f : α → Parser β) : Spends k ((MonadExcept.throw e : Parser α) >>= f) v := by
  rintro c _ _ ⟨⟩

theorem bind_add {f : α → Parser β} (hp : Spends k p w) (hf : ∀ a, Spends (k' + w a) (f a) v) :
    Spends (k + k') (p >>= f) v := by
  intro c b c' h
  obtain ⟨⟨a, c''⟩, ha, hb⟩ := bind_eq_ok_iff.mp h
  have := hp c a c'' ha
  have := hf a c'' b c' hb
  omega

theorem bind {f : α → Parser β} (hp : Spends 0 p w) (hf : ∀ a, Spends (k + w a) (f a) v) :
    Spends k (p >>= f) v :=
  Nat.zero_add k ▸ hp.bind_add hf

theorem mono (h : Spends k p w) (hk : k ≤ k') (hw : ∀ a, w' a ≤ w a) : Spends k' p w' := by
  intro c a c' ha
  have := h c a c' ha
  have := hw a
  omega

theorem of_le (h : Spends k p w) (hk : k ≤ k') : Spends k' p w :=
  h.mono hk fun _ => Nat.le_refl _

/-- The value of `p` is not used for anything of width. -/
theorem skip {f : α → Parser β} (hp : Spends 0 p w) (hf : ∀ a, Spends k (f a) v) :
    Spends k (p >>= f) v :=
  hp.bind fun a => (hf a).of_le (Nat.le_add_right k _)

theorem map {f : α → β} (hp : Spends 0 p w) (hf : ∀ a, v (f a) ≤ k + w a) : Spends k (f <$> p) v :=
  hp.bind fun a => .pure (hf a)

theorem ite {P : Prop} [Decidable P] (hp : Spends k p w) (hq : Spends k q w) :
    Spends k (if P then p else q) w := by
  split
  · exact hp
  · exact hq

theorem spendsAt {next : Option Tok} (h : Spends k p w) : SpendsAt next k p w :=
  fun c a c' _ ha => h c a c' ha

end Spends

theorem SpendsAt.pure {next : Option Tok} {a : α} (h : w a ≤ k) : SpendsAt next k (pure a) w :=
  (Spends.pure h).spendsAt

theorem spends_fail : Spends k (fail : Parser α) w :=
  .throw _

/-! ## Single tokens -/

theorem spends_get : Shrinks (get : Parser Cursor) := by
  rintro c _ _ ⟨⟩
  simp

theorem spends_peekSecond : Shrinks peekSecond :=
  .bind spends_get fun _ => .pure (Nat.zero_le _)

theorem spends_startOffset : Shrinks startOffset :=
  .bind spends_get fun _ => .pure (Nat.zero_le _)

theorem spends_spanFrom (start : Nat) : Shrinks (spanFrom start) :=
  .bind spends_get fun _ => .pure (Nat.zero_le _)

theorem spends_remaining : Shrinks remaining :=
  .bind spends_get fun _ => .pure (Nat.zero_le _)

theorem Spends.peek {f : Option Tok → Parser α} (h : ∀ next, SpendsAt next k (f next) w) :
    Spends k (peek >>= f) w :=
  fun c a c' ha => h _ c a c' rfl ha

theorem spends_advance : Spends 0 advance Tok.width := by
  rintro ⟨_ | ⟨t, ts⟩, stop⟩ a c' h
  · cases h
  · cases h
    simp [Cursor.width]

theorem SpendsAt.advance {t : Tok} {f : Tok → Parser α} (h : Spends (k + t.width) (f t) w) :
    SpendsAt (some t) k (advance >>= f) w := by
  rintro ⟨_ | ⟨t', ts⟩, stop⟩ a c' ht ha
  · cases ht
  · obtain rfl : t'.tok = t := Option.some.inj ht
    have := h ⟨ts, t'.span.stop⟩ a c' ha
    simp only [Cursor.width, tokensWidth_cons] at *
    omega

theorem spends_atOp (text : String) : Shrinks (atOp text) :=
  .peek fun _ => .pure (Nat.zero_le _)

theorem spends_atKeyword (word : String) : Shrinks (atKeyword word) :=
  .peek fun _ => .pure (Nat.zero_le _)

theorem spends_accept (tok : Tok) : Spends 0 (accept tok) fun read => if read then tok.width else 0 := by
  refine .peek fun next => ?_
  split
  next h => exact h ▸ .advance (.pure (Nat.le_add_left _ _))
  · exact .pure (Nat.le_refl _)

theorem Spends.ifOp {text : String} (hp : Spends (k + 1) p w) (hq : Spends k q w) :
    Spends k (acceptOp text >>= fun read => if read = true then p else q) w := by
  refine (spends_accept (.op text)).bind fun read => ?_
  cases read
  · exact hq
  · exact hp

theorem Spends.ifKeyword {word : String} (hp : Spends k p w) (hq : Spends k q w) :
    Spends k (acceptKeyword word >>= fun read => if read = true then p else q) w :=
  (spends_accept (.keyword word)).skip fun _ => hp.ite hq

theorem spends_expectOp (text : String) : Spends 0 (expectOp text) fun _ => 1 := by
  refine (spends_accept (.op text)).bind fun read => ?_
  cases read
  · exact spends_fail
  · exact .pure (Nat.le_refl _)

theorem spends_expectKeyword (word : String) : Shrinks (expectKeyword word) :=
  (spends_accept (.keyword word)).skip fun _ => spends_fail.ite (.pure (Nat.le_refl _))

theorem spends_identifier : Spends 0 identifier String.length := by
  refine spends_advance.bind fun t => ?_
  cases t with
  | name word => exact .pure (Nat.le_add_left _ _)
  | _ => exact spends_fail

/-! ## Lists -/

theorem spends_manyUpTo {item? : Parser (Option α)} (h : Spends 0 item? fun o => o.elim 0 w) (count : Nat) :
    Spends 0 (manyUpTo item? count) fun as => (as.map w).sum := by
  induction count with
  | zero => exact .pure (Nat.le_refl _)
  | succ count ih =>
    refine h.bind fun o => ?_
    cases o with
    | none => exact .pure (Nat.zero_le _)
    | some a => exact ih.bind fun as => .pure (by simp)

theorem spends_many {item? : Parser (Option α)} (h : Spends 0 item? fun o => o.elim 0 w) :
    Spends 0 (many item?) fun as => (as.map w).sum :=
  spends_remaining.skip fun n => spends_manyUpTo h (n + 1)

theorem shrinks_many {item? : Parser (Option α)} (h : Shrinks item?) : Shrinks (many item?) :=
  (spends_many (w := fun _ => 0) (h.mono (Nat.le_refl _) fun o => by cases o <;> exact Nat.le_refl _)).mono
    (Nat.le_refl _) fun _ => Nat.zero_le _

theorem spends_commaListUpTo {item : Parser α} (begins : Tok → Bool) (h : Spends 0 item w) (count : Nat) :
    Spends 0 (commaListUpTo item begins count) fun r => (r.1.map w).sum := by
  induction count with
  | zero => exact spends_fail
  | succ count ih =>
    refine h.bind fun first => .ifOp ?_ (.pure (by simp))
    refine .peek fun next => Spends.spendsAt ?_
    cases next with
    | some tok => exact .ite (ih.bind fun r => .pure (by simp)) (.pure (by simp))
    | none => exact .pure (by simp)

theorem spends_commaList {item : Parser α} (begins : Tok → Bool) (h : Spends 0 item w) :
    Spends 0 (commaList item begins) fun r => (r.1.map w).sum :=
  spends_remaining.skip fun n => spends_commaListUpTo begins h (n + 1)

theorem spends_commaListBefore {item : Parser α} (close : String) (h : Spends 0 item w) :
    Spends 0 (commaListBefore item close) fun r => (r.1.map w).sum := by
  refine .ifOp (.pure (Nat.zero_le _)) ?_
  exact (spends_commaList _ h).bind fun r => (spends_expectOp close).skip fun _ => .pure (by simp)

theorem spends_separated {item : Parser α} (separator : Tok) (h : Spends 0 item w) :
    Spends 0 (separated item separator) fun as => (as.map w).sum := by
  refine h.bind fun first => (spends_many (w := w) ?_).bind fun others => .pure (by simp)
  exact (spends_accept separator).skip fun _ => .ite (h.bind fun a => .pure (by simp)) (.pure (by simp))

/-! ## Expressions -/

/-- No form that a form contains is wider than its tokens. -/
structure Below.Narrow (b : Below) : Prop where
  test : Spends 0 b.test Expr.width
  orTest : Spends 0 b.orTest Expr.width
  notTest : Spends 0 b.notTest Expr.width
  bitOr : Spends 0 b.bitOr Expr.width
  factor : Spends 0 b.factor Expr.width

variable {b : Below} {item : Parser Expr}

theorem spends_spanned {f : Span → Expr} (start : Nat) (h : ∀ span, (f span).width ≤ k) :
    Spends k (do return f (← spanFrom start)) Expr.width :=
  (spends_spanFrom start).skip fun span => .pure (h span)

/-- The form of the stretch up to here has no parts that could stand for a type. -/
theorem spends_flat {f : Span → Expr} (start : Nat) (h : ∀ span, (f span).width = 0) :
    Spends k (do return f (← spanFrom start)) Expr.width :=
  spends_spanned start fun span => h span ▸ Nat.zero_le _

theorem spends_tupled (start : Nat) (items : List Expr) (comma : Bool) :
    Spends (items.map Expr.width).sum (match items, comma with
      | [e], false => return e
      | _, _ => return .tuple (← spanFrom start) items) Expr.width := by
  have htuple : Spends (items.map Expr.width).sum (do return .tuple (← spanFrom start) items) Expr.width :=
    spends_spanned start fun span => Nat.le_of_eq (Expr.width_tuple span items)
  rcases items with _ | ⟨e, _ | ⟨e', es⟩⟩
  · exact htuple
  · cases comma
    · exact .pure (by simp)
    · exact htuple
  · exact htuple

theorem spends_tupleOf (h : Spends 0 item Expr.width) : Spends 0 (tupleOf item) Expr.width := by
  refine spends_startOffset.skip fun start => (spends_commaList _ h).bind fun ⟨items, comma⟩ => ?_
  exact (spends_tupled start items comma).of_le (Nat.le_add_left _ _)

theorem spends_starred (hb : b.Narrow) : Spends 0 (starred b) Expr.width :=
  spends_startOffset.skip fun start => (spends_expectOp "*").skip fun _ => hb.bitOr.skip fun _ =>
    spends_flat start fun _ => rfl

theorem spends_orStarred (hb : b.Narrow) (h : Spends 0 item Expr.width) :
    Spends 0 (orStarred b item) Expr.width :=
  (spends_atOp "*").skip fun _ => .ite (spends_starred hb) h

theorem spends_atNameThen (text : String) : Shrinks (atNameThen text) := by
  refine .peek fun next => Spends.spendsAt (spends_peekSecond.skip fun second => ?_)
  split
  · exact .pure (Nat.zero_le _)
  · exact .pure (Nat.zero_le _)

theorem spends_namedTest (hb : b.Narrow) : Spends 0 (namedTest b) Expr.width :=
  (spends_atNameThen ":=").skip fun _ => .ite
    (spends_startOffset.skip fun start => spends_identifier.skip fun _ => (spends_expectOp ":=").skip fun _ =>
      hb.test.skip fun _ => spends_flat start fun _ => rfl)
    hb.test

theorem spends_targets (hb : b.Narrow) : Spends 0 (targets b) Expr.width :=
  spends_tupleOf (spends_orStarred hb hb.bitOr)

theorem shrinks_comprehensionFor? (hb : b.Narrow) : Shrinks (comprehensionFor? b) := by
  refine (spends_accept (.keyword "async")).skip fun isAsync => .ifKeyword ?_ (.ite spends_fail (.pure (Nat.zero_le _)))
  refine (spends_targets hb).skip fun _ => (spends_expectKeyword "in").skip fun _ => hb.orTest.skip fun _ => ?_
  have hconditions : Shrinks (do if ← acceptKeyword "if" then return some (← b.orTest) else return none) :=
    .ifKeyword (hb.orTest.skip fun _ => .pure (Nat.zero_le _)) (.pure (Nat.zero_le _))
  exact (shrinks_many hconditions).skip fun _ => .pure (Nat.zero_le _)

theorem shrinks_comprehension? (hb : b.Narrow) : Shrinks (comprehension? b) :=
  (shrinks_many (shrinks_comprehensionFor? hb)).skip fun _ => .pure (Nat.zero_le _)

/-! ## Parameters and arguments -/

theorem shrinks_paramName (typed : Bool) (h : Spends 0 item Expr.width) : Shrinks (paramName typed item) := by
  refine spends_identifier.skip fun name => ?_
  extract_lets untyped
  have huntyped : Shrinks (untyped ()) := .pure (Nat.zero_le _)
  exact .ite (.ifOp (h.skip fun _ => .pure (Nat.zero_le _)) huntyped) huntyped

theorem shrinks_paramItem (hb : b.Narrow) (typed : Bool) (s : ParamState) : Shrinks (paramItem b typed s) := by
  have hpure : ∀ {k} {s' : ParamState}, Spends k (pure s' : Parser ParamState) fun _ => 0 := .pure (Nat.zero_le _)
  have hname := shrinks_paramName typed hb.test
  unfold paramItem
  extract_lets starred slashed item
  have hstarred : Spends 1 (starred ()) fun _ => 0 := by
    refine .peek fun next => Spends.spendsAt ?_
    rcases next with _ | t
    · exact hpure
    · cases t with
      | name word => exact (shrinks_paramName typed (spends_orStarred hb hb.test)).skip fun _ => hpure
      | _ => exact hpure
  have hitem : Shrinks (item ()) := by
    refine .ifOp (hname.skip fun _ => hpure) (.ifOp (.ite (.throw_bind _ _) hstarred) (.ifOp ?_ ?_))
    · exact .ite (.throw_bind _ _) hpure
    · refine hname.skip fun p => (spends_accept _).skip fun hasDefault => ?_
      extract_lets finish
      have hfinish : Shrinks (finish ()) := .ite hpure hpure
      exact .ite (hb.test.skip fun _ => hfinish) hfinish
  exact .ite (.throw_bind _ _) hitem

theorem shrinks_paramItems (hb : b.Narrow) (typed : Bool) (close : String) (count : Nat) (s : ParamState) :
    Shrinks (paramItems b typed close count s) := by
  induction count generalizing s with
  | zero => exact spends_fail
  | succ count ih =>
    refine (spends_atOp close).skip fun _ => .ite (.pure (Nat.zero_le _)) ?_
    refine (shrinks_paramItem hb typed s).skip fun s' => ?_
    exact .ifOp ((ih s').of_le (Nat.zero_le _)) (.pure (Nat.zero_le _))

theorem shrinks_parameters (hb : b.Narrow) (typed : Bool) (close : String) :
    Shrinks (parameters b typed close) := by
  refine spends_remaining.skip fun n => (shrinks_paramItems hb typed close (n + 1) {}).skip fun s => ?_
  exact .ite (.throw_bind _ _) (.pure (Nat.zero_le _))

theorem shrinks_argument (hb : b.Narrow) : Shrinks (argument b) := by
  refine spends_startOffset.skip fun start => ?_
  have hpure : ∀ {k} {value : Argument}, Spends k (pure value : Parser Argument) fun _ => 0 := .pure (Nat.zero_le _)
  have hspan : ∀ {k} {f : Span → Argument}, Spends k (do return f (← spanFrom start)) fun _ => 0 :=
    (spends_spanFrom start).skip fun _ => hpure
  refine .ifOp (hb.test.skip fun _ => hspan) (.ifOp (hb.test.skip fun _ => hpure) ?_)
  refine (spends_atNameThen "=").skip fun _ => .ite ?_ ?_
  · exact spends_identifier.skip fun name => (spends_expectOp "=").skip fun _ => hb.test.skip fun _ => hpure
  · exact (spends_namedTest hb).skip fun value => (shrinks_comprehension? hb).skip fun _ => .ite hspan hpure

theorem shrinks_arguments (hb : b.Narrow) : Shrinks (arguments b) := by
  refine (spends_commaListBefore ")" (shrinks_argument hb)).skip fun r => ?_
  exact .ite (.throw_bind _ _) (.pure (Nat.zero_le _))

/-! ## Strings -/

theorem spends_stringTokens :
    Spends 0 stringTokens fun parts => (parts.map fun part => part.2.length + 2).sum := by
  refine spends_many (.peek fun next => ?_)
  rcases next with _ | t
  · exact .pure (Nat.zero_le _)
  · cases t with
    | str kind content => exact .advance (.pure (Nat.le_add_left _ _))
    | _ => exact .pure (Nat.zero_le _)

theorem spends_liftM {r : Except SyntaxError α} (h : Ensures r (fun a => w a ≤ k) fun _ => True) :
    Spends k (liftM r : Parser α) w := by
  cases r with
  | error e => exact .throw e
  | ok a => exact .pure h

theorem spends_mapM {f : β → Parser α} (h : ∀ x, Spends (v x) (f x) w) (xs : List β) :
    Spends (xs.map v).sum (xs.mapM f) fun as => (as.map w).sum := by
  induction xs with
  | nil =>
    rw [List.mapM_nil]
    exact .pure (Nat.le_refl _)
  | cons x xs ih =>
    rw [List.mapM_cons, List.map_cons, List.sum_cons]
    exact (h x).bind_add fun a => ih.bind_add fun as => .pure (by simp)

theorem length_flatten_le (texts : List (List Char)) :
    texts.flatten.length ≤ (texts.map fun text => text.length + 2).sum := by
  induction texts with
  | nil => exact Nat.le_refl _
  | cons text texts ih =>
    simp only [List.flatten_cons, List.length_append, List.map_cons, List.sum_cons]
    omega

theorem width_text_le (span : Span) (texts : List (List Char)) :
    (Expr.literal span (.str (String.ofList texts.flatten))).width ≤
      (texts.map fun text => text.length + 2).sum := by
  cases texts with
  | nil => exact Nat.le_refl _
  | cons text texts =>
    have := length_flatten_le texts
    simp only [Expr.width_text, String.length_ofList, List.flatten_cons, List.length_append, List.map_cons,
      List.sum_cons]
    split <;> omega

theorem spends_string (b : Below) : Spends 0 (string b) Expr.width := by
  refine spends_startOffset.skip fun start => spends_stringTokens.bind fun parts => ?_
  refine (spends_spanFrom start).skip fun span => ?_
  extract_lets finish
  have htexts : ∀ part : StringKind × List Char, Spends (part.2.length + 2) (do
      if part.1.isFormatted then do
        StringLiteral.checkFormat (parseText (orStarred b b.test)) part.1 part.2
        return []
      else StringLiteral.unescape part.1 part.2) fun text : List Char => text.length + 2 := by
    intro part
    refine .ite ?_ ?_
    · refine .skip (w := fun _ => 0) (spends_liftM (ensures_true _ |>.mono fun _ _ => Nat.zero_le _)) fun _ => ?_
      exact .pure (Nat.le_add_left _ _)
    · refine spends_liftM ((StringLiteral.ensures_unescape part.1 part.2).mono fun text htext => ?_)
      exact Nat.add_le_add_right htext 2
  have hfinish : Spends ((parts.map fun part => part.2.length + 2).sum + 0) (finish ()) Expr.width := by
    refine (spends_mapM htexts parts).bind_add fun texts => ?_
    refine .ite (.pure (Nat.zero_le _)) (.ite (.pure (Nat.zero_le _)) (.pure ?_))
    rw [Nat.zero_add]
    exact width_text_le span texts
  rw [Nat.zero_add]
  exact .ite (.throw_bind _ _) hfinish

/-! ## Brackets -/

/-- The items up to the closing bracket are of no width to the form that they are part of. -/
theorem spends_thenItems {item : Parser α} {finish : List α → Parser Expr} (close : String) (hitem : Spends 0 item w)
    (hfinish : ∀ {k} (others : List α), Spends k (finish others) Expr.width) :
    Spends 0 (acceptOp "," >>= fun read =>
      if read = true then Prod.fst <$> commaListBefore item close >>= finish
      else expectOp close >>= fun _ => finish []) Expr.width := by
  refine .ifOp ?_ ((spends_expectOp close).skip fun _ => hfinish [])
  exact .skip (w := fun _ => 0) (.map (spends_commaListBefore close hitem) fun _ => Nat.zero_le _) hfinish

/-- A bracket is closed after a form without parts that could stand for a type. -/
theorem spends_closeFlat {f : Span → Expr} (close : String) (start : Nat) (h : ∀ span, (f span).width = 0) :
    Spends k (do expectOp close; return f (← spanFrom start)) Expr.width :=
  (spends_expectOp close).skip fun _ => spends_flat start h

theorem spends_listForm (hb : b.Narrow) (start : Nat) : Spends 0 (listForm b start) Expr.width := by
  have hitem := spends_orStarred hb (spends_namedTest hb)
  refine .ifOp (spends_flat start fun _ => rfl) ((spends_atOp "*").skip fun _ => hitem.skip fun first => ?_)
  refine (shrinks_comprehension? hb).skip fun _ => .ite ?_ ?_
  · exact spends_closeFlat "]" start fun _ => rfl
  · exact spends_thenItems "]" hitem fun _ => spends_flat start fun _ => rfl

theorem spends_yieldForm (hb : b.Narrow) : Spends 0 (yieldForm b) Expr.width := by
  refine spends_startOffset.skip fun start => (spends_expectKeyword "yield").skip fun _ => ?_
  extract_lets finish
  have hfinish : Spends 0 (finish ()) Expr.width := spends_flat start fun _ => rfl
  refine .ifKeyword (hb.test.skip fun _ => hfinish) (.peek fun next => Spends.spendsAt ?_)
  cases next with
  | some tok => exact .ite ((spends_tupleOf (spends_orStarred hb hb.test)).skip fun _ => hfinish) hfinish
  | none => exact hfinish

theorem spends_parenForm (hb : b.Narrow) (start : Nat) : Spends 0 (parenForm b start) Expr.width := by
  have hitem := spends_orStarred hb (spends_namedTest hb)
  refine .ifOp (spends_spanned start fun _ => Nat.zero_le _) ?_
  refine (spends_atKeyword "yield").skip fun _ => .ite ?_ ?_
  · exact (spends_yieldForm hb).bind fun e => (spends_expectOp ")").skip fun _ => .pure (Nat.le_add_left _ _)
  refine (spends_atOp "*").skip fun isStarred => hitem.bind fun first => ?_
  refine (shrinks_comprehension? hb).skip fun _ => .ite ?_ (.ifOp ?_ ?_)
  · exact spends_closeFlat ")" start fun _ => rfl
  · refine (spends_commaListBefore ")" hitem).bind fun r => spends_spanned start fun _ => ?_
    rw [Expr.width_tuple, List.map_cons, List.sum_cons]
    omega
  · exact (spends_expectOp ")").skip fun _ => .ite (.throw_bind _ _) (.pure (Nat.le_add_left _ _))

theorem shrinks_dictEntry (hb : b.Narrow) : Shrinks (dictEntry b) :=
  .ifOp (hb.bitOr.skip fun _ => .pure (Nat.zero_le _))
    (hb.test.skip fun _ => (spends_expectOp ":").skip fun _ => hb.test.skip fun _ => .pure (Nat.zero_le _))

theorem spends_dictForm (hb : b.Narrow) (start : Nat) (first : Option Expr × Expr) :
    Spends 0 (dictForm b start first) Expr.width :=
  spends_thenItems "\x7d" (shrinks_dictEntry hb) fun _ => spends_flat start fun _ => rfl

theorem spends_braceForm (hb : b.Narrow) (start : Nat) : Spends 0 (braceForm b start) Expr.width := by
  have hitem := spends_orStarred hb (spends_namedTest hb)
  refine .ifOp (spends_flat start fun _ => rfl) ?_
  refine (spends_atOp "**").skip fun _ => .ite ((shrinks_dictEntry hb).skip fun e => spends_dictForm hb start e) ?_
  refine (spends_atOp "*").skip fun _ => (spends_atNameThen ":=").skip fun _ => hitem.skip fun first => ?_
  refine (spends_accept _).skip fun _ => .ite ?_ ((shrinks_comprehension? hb).skip fun _ => .ite ?_ ?_)
  · refine hb.test.skip fun value => (shrinks_comprehension? hb).skip fun _ => .ite ?_ (spends_dictForm hb start _)
    exact spends_closeFlat "\x7d" start fun _ => rfl
  · exact spends_closeFlat "\x7d" start fun _ => rfl
  · exact spends_thenItems "\x7d" hitem fun _ => spends_flat start fun _ => rfl

theorem spends_atom (hb : b.Narrow) : Spends 0 (atom b) Expr.width := by
  refine spends_startOffset.skip fun start => ?_
  extract_lets literal
  have hliteral : ∀ {value} {next}, (∀ text, value ≠ .str text) →
      SpendsAt next 0 (literal value) Expr.width := by
    intro value next hvalue
    refine (spends_advance.skip fun _ => spends_flat start fun span => ?_).spendsAt
    cases value with
    | str text => exact absurd rfl (hvalue text)
    | _ => rfl
  refine .peek fun next => ?_
  split
  case h_1 => exact (spends_string b).spendsAt
  case h_9 id => exact .advance (spends_spanned start fun _ => Nat.le_add_left _ _)
  case h_10 => exact (spends_advance.skip fun _ => spends_listForm hb start).spendsAt
  case h_11 => exact (spends_advance.skip fun _ => spends_parenForm hb start).spendsAt
  case h_12 => exact (spends_advance.skip fun _ => spends_braceForm hb start).spendsAt
  case h_13 => exact spends_fail.spendsAt
  all_goals exact hliteral nofun

/-! ## Trailers -/

theorem shrinks_optionalTest (hb : b.Narrow) : Shrinks (optionalTest b) := by
  refine .peek fun next => Spends.spendsAt ?_
  cases next with
  | some tok => exact .ite (hb.test.skip fun _ => .pure (Nat.zero_le _)) (.pure (Nat.zero_le _))
  | none => exact .pure (Nat.zero_le _)

theorem spends_subscriptItem (hb : b.Narrow) : Spends 0 (subscriptItem b) Expr.width := by
  refine spends_startOffset.skip fun start => (spends_atOp ":").skip fun _ => ?_
  extract_lets slice rest
  have hslice : ∀ {k}, Spends k (slice ()) Expr.width := spends_flat start fun _ => rfl
  have hrest : ∀ first : Option Expr, Spends (first.elim 0 Expr.width) (rest first) Expr.width := by
    intro first
    refine .ifOp ((shrinks_optionalTest hb).skip fun _ => ?_) ?_
    · exact .ifOp ((shrinks_optionalTest hb).skip fun _ => hslice) hslice
    · cases first with
      | some e => exact .pure (Nat.le_refl _)
      | none => exact spends_fail
  have hfirst : Spends 0 (some <$> orStarred b (namedTest b)) fun first => first.elim 0 Expr.width :=
    .map (spends_orStarred hb (spends_namedTest hb)) fun e => Nat.le_add_left _ _
  exact .ite (hrest none) (hfirst.bind fun first => (hrest first).of_le (Nat.le_add_left _ _))

theorem spends_subscriptList (hb : b.Narrow) : Spends 0 (subscriptList b) Expr.width := by
  refine spends_startOffset.skip fun start =>
    (spends_commaList _ (spends_subscriptItem hb)).bind fun ⟨items, comma⟩ => ?_
  exact (spends_tupled start items comma).of_le (Nat.le_add_left _ _)

theorem spends_trailers (hb : b.Narrow) (start count : Nat) (e : Expr) :
    Spends e.width (trailers b start count e) Expr.width := by
  induction count generalizing e with
  | zero => exact spends_fail
  | succ count ih =>
    refine .ifOp ?_ (.ifOp ?_ (.ifOp ?_ (.pure (Nat.le_refl _))))
    · refine (shrinks_arguments hb).skip fun r => (spends_spanFrom start).skip fun span => ?_
      exact (ih _).of_le (Nat.zero_le _)
    · refine (spends_subscriptList hb).bind fun index => (spends_expectOp "]").bind fun _ => ?_
      refine (spends_spanFrom start).skip fun span => (ih _).of_le ?_
      rw [Expr.width_subscript]
      omega
    · refine spends_identifier.bind fun attr => (spends_spanFrom start).skip fun span => (ih _).of_le ?_
      rw [Expr.width_attribute]
      omega

theorem spends_primary (hb : b.Narrow) : Spends 0 (primary b) Expr.width :=
  spends_startOffset.skip fun start => (spends_atom hb).bind fun first => spends_remaining.skip fun n =>
    (spends_trailers hb start (n + 1) first).of_le (Nat.le_add_left _ _)

/-! ## Operators -/

theorem spends_awaited (hb : b.Narrow) : Spends 0 (awaited b) Expr.width :=
  spends_startOffset.skip fun start =>
    .ifKeyword ((spends_primary hb).skip fun _ => spends_flat start fun _ => rfl) (spends_primary hb)

theorem spends_factorAt (hb : b.Narrow) : Spends 0 (factorAt b) Expr.width := by
  refine spends_startOffset.skip fun start => .peek fun next => Spends.spendsAt ?_
  cases next.bind signOp? with
  | some op => exact spends_advance.skip fun _ => hb.factor.skip fun operand => spends_flat start fun _ => rfl
  | none =>
    refine (spends_awaited hb).bind fun base => .ifOp ?_ (.pure (Nat.le_add_left _ _))
    refine hb.factor.bind fun exponent => spends_spanned start fun _ => ?_
    rw [Expr.width_binary]
    omega

theorem spends_binaryRest (op? : Tok → Option BinaryOp) (hop : ∀ t op, op? t = some op → 1 ≤ t.width)
    (h : Spends 0 item Expr.width) (start count : Nat) (left : Expr) :
    Spends left.width (binaryRest item op? start count left) Expr.width := by
  induction count generalizing left with
  | zero => exact spends_fail
  | succ count ih =>
    refine .peek fun next => ?_
    cases hnext : next.bind op? with
    | some op =>
      obtain ⟨t, rfl, ht⟩ := Option.bind_eq_some_iff.mp hnext
      refine .advance (h.bind fun right => (spends_spanFrom start).skip fun _ => (ih _).of_le ?_)
      have := hop t op ht
      rw [Expr.width_binary]
      omega
    | none => exact .pure (Nat.le_refl _)

theorem spends_binaryLevel (op? : Tok → Option BinaryOp) (hop : ∀ t op, op? t = some op → 1 ≤ t.width)
    (h : Spends 0 item Expr.width) : Spends 0 (binaryLevel item op?) Expr.width :=
  spends_startOffset.skip fun start => h.bind fun first => spends_remaining.skip fun n =>
    (spends_binaryRest op? hop h start (n + 1) first).of_le (Nat.le_add_left _ _)

theorem spends_bitOrAt (hb : b.Narrow) : Spends 0 (bitOrAt b) Expr.width := by
  have hop : ∀ op? ∈ [termOp?, sumOp?, shiftOp?, bitAndOp?, bitXorOp?, bitOrOp?], ∀ t op,
      op? t = some op → 1 ≤ t.width := by
    intro op? hmem t op h
    cases t with
    | op text => exact Nat.le_refl 1
    | _ =>
      simp only [List.mem_cons, List.not_mem_nil, or_false] at hmem
      rcases hmem with rfl | rfl | rfl | rfl | rfl | rfl <;> cases h
  have hterm := spends_binaryLevel termOp? (hop _ (by simp)) (spends_factorAt hb)
  have hsum := spends_binaryLevel sumOp? (hop _ (by simp)) hterm
  have hshift := spends_binaryLevel shiftOp? (hop _ (by simp)) hsum
  have hconjunction := spends_binaryLevel bitAndOp? (hop _ (by simp)) hshift
  have hexclusive := spends_binaryLevel bitXorOp? (hop _ (by simp)) hconjunction
  exact spends_binaryLevel bitOrOp? (hop _ (by simp)) hexclusive

theorem shrinks_compareOp : Shrinks compareOp := by
  refine .peek fun next => Spends.spendsAt ?_
  split
  · exact .ite (spends_advance.skip fun _ => .pure (Nat.zero_le _)) (.pure (Nat.zero_le _))
  · exact spends_advance.skip fun _ => .pure (Nat.zero_le _)
  · exact spends_advance.skip fun _ => (spends_accept _).skip fun _ => .pure (Nat.zero_le _)
  · exact spends_advance.skip fun _ => (spends_expectKeyword "in").skip fun _ => .pure (Nat.zero_le _)
  · exact .pure (Nat.zero_le _)

theorem spends_comparisonAt (hb : b.Narrow) : Spends 0 (comparisonAt b) Expr.width := by
  have hothers : Shrinks (do if ← compareOp then return some (← bitOrAt b) else return none) :=
    shrinks_compareOp.skip fun _ =>
      .ite ((spends_bitOrAt hb).skip fun _ => .pure (Nat.zero_le _)) (.pure (Nat.zero_le _))
  refine spends_startOffset.skip fun start => (spends_bitOrAt hb).bind fun left => ?_
  exact (shrinks_many hothers).skip fun others => .ite (.pure (Nat.le_add_left _ _)) (spends_flat start fun _ => rfl)

theorem spends_notTestAt (hb : b.Narrow) : Spends 0 (notTestAt b) Expr.width :=
  spends_startOffset.skip fun start =>
    .ifKeyword (hb.notTest.skip fun _ => spends_flat start fun _ => rfl) (spends_comparisonAt hb)

theorem spends_booleanLevel (word : String) (h : Spends 0 item Expr.width) :
    Spends 0 (booleanLevel item word) Expr.width := by
  refine spends_startOffset.skip fun start => (spends_separated _ h).bind fun es => ?_
  rcases es with _ | ⟨e, _ | ⟨e', es⟩⟩
  · exact spends_flat start fun _ => rfl
  · exact .pure (by simp)
  · exact spends_flat start fun _ => rfl

theorem spends_orTestAt (hb : b.Narrow) : Spends 0 (orTestAt b) Expr.width :=
  spends_booleanLevel "or" (spends_booleanLevel "and" (spends_notTestAt hb))

theorem spends_testAt (hb : b.Narrow) : Spends 0 (testAt b) Expr.width := by
  refine spends_startOffset.skip fun start => .ifKeyword ?_ ((spends_orTestAt hb).bind fun body => ?_)
  · exact (shrinks_parameters hb false ":").skip fun _ => (spends_expectOp ":").skip fun _ => hb.test.skip fun _ =>
      spends_flat start fun _ => rfl
  · refine .ifKeyword ?_ (.pure (Nat.le_add_left _ _))
    exact hb.orTest.skip fun _ => (spends_expectKeyword "else").skip fun _ => hb.test.skip fun _ =>
      spends_flat start fun _ => rfl

/-! ## Whole expressions -/

/-- No form is wider than its tokens, however deep it is nested. -/
theorem narrow_exprForms (depth : Nat) : (exprForms depth).Narrow := by
  induction depth with
  | zero => exact ⟨spends_fail, spends_fail, spends_fail, spends_fail, spends_fail⟩
  | succ depth ih =>
    exact ⟨spends_testAt ih, spends_orTestAt ih, spends_notTestAt ih, spends_bitOrAt ih, spends_factorAt ih⟩

theorem spends_testList (hb : b.Narrow) : Spends 0 (testList b) Expr.width :=
  spends_tupleOf (spends_orStarred hb hb.test)

end Parser

/-- **An expression is no wider than its text.** -/
theorem width_le_of_parseExpression {source : String} {e : Expr} (h : parseExpression source = .ok e) :
    e.width ≤ source.length := by
  unfold parseExpression at h
  obtain ⟨tokens, htokens, h⟩ := bind_eq_ok_iff.mp h
  obtain ⟨⟨e', c⟩, hparse, h⟩ := bind_eq_ok_iff.mp h
  have hwidth := (ensures_lex false source.toList).of_ok htokens
  have hspends := Parser.spends_testList (Parser.narrow_exprForms _) _ _ _ hparse
  dsimp only at h
  split at h
  · cases h
    rw [String.length_toList] at hwidth
    have : Cursor.width { rest := tokens } = tokensWidth tokens := rfl
    omega
  · cases h

end NativeClass.Python
