import NativeClass.Proofs.Inference.Canonical
import NativeClass.Proofs.Python.ExprWidth
import NativeClass.Proofs.Ty.JoinOrder
/-!
# Spellings of a type hint

A name means the same with quotes around it and behind `typing.`, in every hint it stands in. Quotes around
a longer hint and `typing.` before a name with arguments make another type of it.

* `Python.Expr.bare`: the hint written with bare names only.
* `Ty.ofHint_bare`: it denotes the same type.
* `Generic.typeOf`, `Ty.ofHint_subscript`: a name with arguments.
* `Ty.isNameOrWider_and`: the classes that a hint denotes have shorter names than the hint has characters,
  unless the hint is such a name.
* **`Ty.ofHint_quoted_iff`**, **`Ty.ofHint_qualified_iff`**, **`Ty.ofHint_spelling`**: which spellings of a hint
  denote its type.
-/

namespace NativeClass

open Python (Expr Span parseExpression)

/-! ## Bare names -/

namespace Python

mutual

/-- The hint written with bare names only: without quotes, without `typing.` and with `Any` for every form
that denotes no type, a name with arguments behind `typing.` among them. -/
def Expr.bare : Expr → Expr
  | .name _ id => .name ⟨0, 0⟩ id
  | .literal _ .noneValue => .name ⟨0, 0⟩ "None"
  | .literal _ (.str id) => .name ⟨0, 0⟩ id
  | .attribute _ value attr =>
    match value with
    | .name _ moduleName =>
      if moduleName = "typing" then .name ⟨0, 0⟩ attr else .attribute ⟨0, 0⟩ (.other ⟨0, 0⟩) attr
    | _ => .attribute ⟨0, 0⟩ (.other ⟨0, 0⟩) attr
  | .subscript _ (.name _ id) index => .subscript ⟨0, 0⟩ (.name ⟨0, 0⟩ id) index.bare
  | .binary _ left .bitOr right => .binary ⟨0, 0⟩ left.bare .bitOr right.bare
  | .tuple _ elems => .tuple ⟨0, 0⟩ (bareAll elems)
  | _ => .name ⟨0, 0⟩ "Any"

/-- The hints of a list written with bare names only. -/
def bareAll : List Expr → List Expr
  | [] => []
  | e :: es => e.bare :: bareAll es

end

/-- The elements of a tuple. -/
def Expr.elements? : Expr → Option (List Expr)
  | .tuple _ elems => some elems
  | _ => none

/-- The name that the expression is. -/
def Expr.name? : Expr → Option String
  | .name _ id => some id
  | _ => none

theorem Expr.name?_eq_some_iff {e : Expr} {id : String} : e.name? = some id ↔ ∃ span, e = .name span id := by
  cases e <;> simp [name?]

end Python

/-- The type of a generic from the type of its index and the types of the elements of its index, if that is
a tuple. -/
def Generic.typeOf (index : Ty) (elements? : Option (List Ty)) : Generic → Ty
  | .list => .list index
  | .set => .set index
  | .dict =>
    match elements? with
    | some [key, value] => .dict key value
    | _ => .dict .any .any
  | .tuple => .tuple (elements?.getD [index])
  | .optional => Ty.unionOf [index, .noneType]
  | .union => (elements?.map Ty.unionOf).getD index

theorem Generic.ofName?_eq_optional_iff {id : String} : Generic.ofName? id = some .optional ↔ id = "Optional" := by
  unfold Generic.ofName?
  split <;> simp_all

theorem Generic.ofName?_eq_union_iff {id : String} : Generic.ofName? id = some .union ↔ id = "Union" := by
  unfold Generic.ofName?
  split <;> simp_all

namespace Ty

variable {e : Expr} {ts : List Ty} {t : Ty}

theorem ofHints_eq_map (es : List Expr) : ofHints es = es.map ofHint := by
  induction es with
  | nil => rfl
  | cons e es ih => rw [ofHints, ih, List.map_cons]

theorem ofHint_subscript (span nameSpan : Span) (id : String) (index : Expr) :
    ofHint (.subscript span (.name nameSpan id) index) =
      ((Generic.ofName? id).map (Generic.typeOf (ofHint index) (index.elements?.map ofHints))).getD (.nominal id) := by
  conv_lhs => unfold ofHint
  rcases Generic.ofName? id with _ | _ | _ | _ | _ | _ | _
  case some.dict =>
    cases index with
    | tuple _ elems => rcases elems with _ | ⟨key, _ | ⟨value, _ | _⟩⟩ <;> rfl
    | _ => rfl
  case some.tuple | some.union => cases index <;> rfl
  all_goals rfl

mutual

theorem ofHint_bare_and (e : Expr) :
    ofHint e.bare = ofHint e ∧ e.bare.elements?.map ofHints = e.elements?.map ofHints := by
  match e with
  | .name _ id => exact ⟨rfl, rfl⟩
  | .literal _ value => cases value <;> exact ⟨rfl, rfl⟩
  | .attribute _ value attr =>
    cases value with
    | name _ moduleName =>
      by_cases h : moduleName = "typing"
      · simp [Expr.bare, ofHint, h, Expr.elements?]
      · simp [Expr.bare, ofHint, h, Expr.elements?]
    | _ => exact ⟨rfl, rfl⟩
  | .subscript _ value index =>
    cases value with
    | name _ id =>
      have ih := ofHint_bare_and index
      rw [Expr.bare, ofHint_subscript, ofHint_subscript, ih.1, ih.2]
      exact ⟨rfl, rfl⟩
    | _ => exact ⟨rfl, rfl⟩
  | .binary _ left op right =>
    cases op with
    | bitOr =>
      rw [Expr.bare, ofHint, ofHint, (ofHint_bare_and left).1, (ofHint_bare_and right).1]
      exact ⟨rfl, rfl⟩
    | _ => exact ⟨rfl, rfl⟩
  | .tuple _ elems => exact ⟨rfl, congrArg some (ofHints_bareAll elems)⟩
  | .formatted _ | .unary .. | .boolean .. | .compare .. | .conditional .. | .call .. | .list .. | .set ..
  | .dict .. | .comprehension .. | .other _ => exact ⟨rfl, rfl⟩

theorem ofHints_bareAll (es : List Expr) : ofHints (Python.bareAll es) = ofHints es := by
  match es with
  | [] => rfl
  | e :: es => rw [Python.bareAll, ofHints, ofHints, (ofHint_bare_and e).1, ofHints_bareAll es]

end

/-- **The bare spelling of a hint denotes the same type.** -/
theorem ofHint_bare (e : Expr) : ofHint e.bare = ofHint e :=
  (ofHint_bare_and e).1

/-! ## Generics that denote `any` -/

theorem canonical_of_mem_elements {index : Expr} :
    ∀ ts, index.elements?.map ofHints = some ts → ∀ t ∈ ts, t.Canonical := by
  intro ts hts t ht
  obtain ⟨es, -, rfl⟩ := Option.map_eq_some_iff.mp hts
  exact everyUnion_ofHints unionClosed_reduced es t ht

theorem unionOf_eq_any_iff (hts : ∀ t ∈ ts, t.Canonical) : unionOf ts = any ↔ any ∈ ts := by
  rw [← any_mem_flatMap_members_iff hts]
  constructor
  · intro h
    refine (listsMaximal_unionOf hts).subset ?_
    rw [h]
    exact List.mem_singleton_self any
  · intro h
    have hany : any ∈ (unionOf ts).members :=
      (mem_members_unionOf_of_any_mem hts ((any_mem_flatMap_members_iff hts).mp h)).mpr rfl
    cases heq : unionOf ts with
    | any => rfl
    | union us =>
      have hcanonical := canonical_unionOf hts
      rw [heq] at hany hcanonical
      cases hcanonical.1.plain any hany
    | _ => simp [heq, members] at hany

theorem typeOf_eq_any_iff {g : Generic} {index : Ty} {elements? : Option (List Ty)} (hindex : index.Canonical)
    (helements : ∀ ts, elements? = some ts → ∀ t ∈ ts, t.Canonical) :
    g.typeOf index elements? = any ↔
      (g = .optional ∧ index = any) ∨ (g = .union ∧ any ∈ elements?.getD [index]) := by
  cases g with
  | list | set | tuple => simp [Generic.typeOf]
  | dict =>
    dsimp only [Generic.typeOf]
    split <;> simp
  | optional =>
    rw [Generic.typeOf, unionOf_eq_any_iff (by simpa using ⟨hindex, trivial⟩)]
    simp [eq_comm]
  | union =>
    cases elements? with
    | none => simp [Generic.typeOf, eq_comm]
    | some ts => simp [Generic.typeOf, unionOf_eq_any_iff (helements ts rfl)]

/-! ## The length of a class that a hint denotes -/

variable {n : String}

theorem eq_of_nominal_mem_ofName {name : String} (h : nominal n ∈ (ofName name).members) : n = name := by
  unfold ofName at h
  split at h <;> simp [members] at h
  exact h

theorem exists_mem_of_mem_unionOf (hts : ∀ t ∈ ts, t.Canonical) (h : t ∈ (unionOf ts).members) :
    ∃ u ∈ ts, t ∈ u.members :=
  List.mem_flatMap.mp ((listsMaximal_unionOf hts).subset h)

theorem nominal_mem_of_mem_typeOf {g : Generic} {index : Ty} {elements? : Option (List Ty)} (hindex : index.Canonical)
    (helements : ∀ ts, elements? = some ts → ∀ t ∈ ts, t.Canonical)
    (h : nominal n ∈ (g.typeOf index elements?).members) :
    nominal n ∈ index.members ∨ ∃ ts, elements? = some ts ∧ ∃ t ∈ ts, nominal n ∈ t.members := by
  cases g with
  | list | set | tuple => simp [Generic.typeOf, members] at h
  | dict =>
    dsimp only [Generic.typeOf] at h
    split at h <;> simp [members] at h
  | optional =>
    obtain ⟨u, hu, hn⟩ := exists_mem_of_mem_unionOf (by simpa using ⟨hindex, trivial⟩) h
    rcases List.mem_pair.mp hu with rfl | rfl
    · exact .inl hn
    · simp [members] at hn
  | union =>
    cases elements? with
    | none => exact .inl h
    | some ts => exact .inr ⟨ts, rfl, exists_mem_of_mem_unionOf (helements ts rfl) h⟩

/-- The class of the given name is denoted by its name or by a longer hint. -/
def IsNameOrWider (e : Expr) (n : String) : Prop :=
  (∃ span, e = .name span n) ∨ n.length < e.width ∨ n = ""

theorem IsNameOrWider.length_le (h : IsNameOrWider e n) : n.length ≤ e.width := by
  rcases h with ⟨span, rfl⟩ | h | rfl
  · exact Nat.le_refl _
  · exact h.le
  · exact Nat.zero_le _

mutual

theorem isNameOrWider_and (e : Expr) :
    (∀ n, nominal n ∈ (ofHint e).members → IsNameOrWider e n) ∧
      ∀ ts, e.elements?.map ofHints = some ts →
        ∀ t ∈ ts, ∀ n, nominal n ∈ t.members → n.length ≤ e.width := by
  match e with
  | .name span id =>
    refine ⟨fun n h => .inl ⟨span, ?_⟩, nofun⟩
    rw [eq_of_nominal_mem_ofName h]
  | .literal _ value =>
    refine ⟨fun n h => .inr ?_, nofun⟩
    cases value with
    | str text =>
      obtain rfl := eq_of_nominal_mem_ofName h
      by_cases hn : n.isEmpty
      · exact .inr (String.isEmpty_iff.mp hn)
      · exact .inl (by simp [Expr.width_text, hn])
    | _ => simp [ofHint, members] at h
  | .attribute _ value attr =>
    refine ⟨fun n h => .inr (.inl ?_), nofun⟩
    have hn : n = attr := by
      unfold ofHint at h
      split at h
      · split at h
        · exact eq_of_nominal_mem_ofName h
        · simpa [members] using h
      · simpa [members] using h
    rw [hn, Expr.width_attribute]
    omega
  | .subscript _ value index =>
    refine ⟨fun n h => .inr (.inl ?_), nofun⟩
    cases value with
    | name _ id =>
      rw [ofHint_subscript] at h
      cases hid : Generic.ofName? id with
      | none =>
        rw [hid] at h
        obtain rfl : n = id := by simpa [members] using h
        rw [Expr.width_subscript, show (Expr.name _ n).width = n.length from rfl]
        omega
      | some g =>
        rw [hid] at h
        have hindex := isNameOrWider_and index
        have hle : n.length ≤ index.width := by
          rcases nominal_mem_of_mem_typeOf (canonical_ofHint index) canonical_of_mem_elements h with
            h | ⟨ts, hts, t, ht, h⟩
          · exact (hindex.1 n h).length_le
          · exact hindex.2 ts hts t ht n h
        rw [Expr.width_subscript]
        omega
    | _ => simp [ofHint, members] at h
  | .binary _ left op right =>
    refine ⟨fun n h => .inr (.inl ?_), nofun⟩
    cases op with
    | bitOr =>
      rw [ofHint] at h
      have hcanonical : ∀ t ∈ [ofHint left, ofHint right], t.Canonical := by
        simpa using ⟨canonical_ofHint left, canonical_ofHint right⟩
      obtain ⟨t, ht, hn⟩ := exists_mem_of_mem_unionOf hcanonical h
      rw [Expr.width_binary]
      rcases List.mem_pair.mp ht with rfl | rfl
      · have := ((isNameOrWider_and left).1 n hn).length_le
        omega
      · have := ((isNameOrWider_and right).1 n hn).length_le
        omega
    | _ => simp [ofHint, members] at h
  | .tuple _ elems =>
    refine ⟨fun n h => by simp [ofHint, members] at h, fun ts hts => ?_⟩
    cases hts
    exact length_le_of_mem_ofHints elems
  | .formatted _ | .unary .. | .boolean .. | .compare .. | .conditional .. | .call .. | .list .. | .set ..
  | .dict .. | .comprehension .. | .other _ => exact ⟨fun n h => by simp [ofHint, members] at h, nofun⟩

theorem length_le_of_mem_ofHints (es : List Expr) :
    ∀ t ∈ ofHints es, ∀ n, nominal n ∈ t.members → n.length ≤ Python.exprsWidth es := by
  match es with
  | [] => exact nofun
  | e :: es =>
    rw [ofHints, Python.exprsWidth]
    refine List.forall_mem_cons.mpr ⟨fun n h => ?_, fun t ht n h => ?_⟩
    · exact Nat.le_add_right_of_le ((isNameOrWider_and e).1 n h).length_le
    · exact Nat.le_add_left_of_le (length_le_of_mem_ofHints es t ht n h)

end

/-! ## Names of built-in types -/

/-- The names that denote a type other than the class of that name, but for `None`, which is no name. -/
def builtinNames : List String :=
  ["int", "int64", "long", "float", "double", "float64", "str", "bool", "bytes", "Any", "object", "list", "List",
    "dict", "Dict", "set", "Set"]

theorem ofName_eq_nominal_or (name : String) :
    ofName name = nominal name ∨ name ∈ builtinNames ∨ name = "None" := by
  unfold ofName
  split <;> simp [builtinNames]

theorem parseExpression_builtinName {name : String} (hname : name ∈ builtinNames) (h : parseExpression name = .ok e) :
    ∃ span, e = .name span name := by
  have hall : ∀ name ∈ builtinNames, (parseExpression name).toOption.bind Expr.name? = some name := by decide +kernel
  have hparse := hall name hname
  rw [h] at hparse
  exact Expr.name?_eq_some_iff.mp hparse

theorem ofHint_of_parseExpression_none (h : parseExpression "None" = .ok e) : ofHint e = .noneType := by
  have hparse : (parseExpression "None").toOption.map ofHint = some .noneType := by decide +kernel
  rw [h] at hparse
  exact Option.some.inj hparse

theorem parseExpression_empty_ne_ok : parseExpression "" ≠ .ok e := by
  intro h
  have hparse : (parseExpression "").toOption.isNone := by decide +kernel
  rw [h] at hparse
  cases hparse

/-! ## Spellings -/

/-- **A quoted hint denotes the type of the hint if and only if the hint is a name or `None`.** -/
theorem ofHint_quoted_iff {source : String} (h : parseExpression source = .ok e) (span : Span) :
    ofHint (.literal span (.str source)) = ofHint e ↔
      (∃ nameSpan, e = .name nameSpan source) ∨ source = "None" := by
  have hquoted : ofHint (.literal span (.str source)) = ofName source := rfl
  rw [hquoted]
  constructor
  · intro heq
    rcases ofName_eq_nominal_or source with hname | hname | hname
    · have hmem : nominal source ∈ (ofHint e).members := by
        rw [← heq, hname]
        exact List.mem_singleton_self _
      -- The class is as long as the whole text, so nothing but its name can stand there.
      have hwidth := Python.width_le_of_parseExpression h
      rcases (isNameOrWider_and e).1 source hmem with hbare | hlt | hempty
      · exact .inl hbare
      · omega
      · rw [hempty] at h
        exact absurd h parseExpression_empty_ne_ok
    · exact .inl (parseExpression_builtinName hname h)
    · exact .inr hname
  · rintro (⟨nameSpan, rfl⟩ | rfl)
    · rfl
    · rw [ofHint_of_parseExpression_none h]
      rfl

/-- **`typing.` before a name with arguments makes `any` of it.** -/
theorem ofHint_qualified_iff (span attrSpan moduleSpan nameSpan : Span) (id : String) (index : Expr) :
    ofHint (.subscript span (.attribute attrSpan (.name moduleSpan "typing") id) index) =
        ofHint (.subscript span (.name nameSpan id) index) ↔
      (id = "Optional" ∧ ofHint index = any) ∨
        (id = "Union" ∧ any ∈ (index.elements?.getD [index]).map ofHint) := by
  have hqualified : ofHint (.subscript span (.attribute attrSpan (.name moduleSpan "typing") id) index) = any := rfl
  rw [hqualified, ofHint_subscript, eq_comm, ← Generic.ofName?_eq_optional_iff, ← Generic.ofName?_eq_union_iff]
  cases hid : Generic.ofName? id with
  | none => simp
  | some g =>
    have helements : (index.elements?.map ofHints).getD [ofHint index] = (index.elements?.getD [index]).map ofHint := by
      cases index.elements? with
      | none => rfl
      | some es => exact ofHints_eq_map es
    rw [Option.map_some, Option.getD_some, typeOf_eq_any_iff (canonical_ofHint index) canonical_of_mem_elements,
      helements]
    simp

/-- **Which spellings of a hint denote its type.** Quotes around a hint keep its type if and only if it is a name
or `None`. Spellings with the same bare names denote the same type, however deep the quotes and the `typing.`
stand. A name with arguments behind `typing.` denotes `any`, so it keeps its type if and only if that is `any`
anyway: for an optional of `any` and for a union with `any` among its alternatives. -/
theorem ofHint_spelling (e : Expr) :
    (∀ source span, parseExpression source = .ok e →
      (ofHint (.literal span (.str source)) = ofHint e ↔
        (∃ nameSpan, e = .name nameSpan source) ∨ source = "None")) ∧
    (∀ e' : Expr, e.bare = e'.bare → ofHint e = ofHint e') ∧
    ∀ span attrSpan moduleSpan nameSpan id index, e = .subscript span (.name nameSpan id) index →
      ofHint (.subscript span (.attribute attrSpan (.name moduleSpan "typing") id) index) = any ∧
      (ofHint (.subscript span (.attribute attrSpan (.name moduleSpan "typing") id) index) = ofHint e ↔
        (id = "Optional" ∧ ofHint index = any) ∨
          (id = "Union" ∧ any ∈ (index.elements?.getD [index]).map ofHint)) := by
  refine ⟨fun source span h => ofHint_quoted_iff h span, fun e' h => ?_, ?_⟩
  · rw [← ofHint_bare e, h, ofHint_bare e']
  · rintro span attrSpan moduleSpan nameSpan id index rfl
    exact ⟨rfl, ofHint_qualified_iff span attrSpan moduleSpan nameSpan id index⟩

theorem exists_ofHint_eq {source : String} (h : (parseExpression source).toOption.map ofHint = some t) :
    ∃ e, parseExpression source = .ok e ∧ ofHint e = t := by
  cases hparse : parseExpression source with
  | ok e =>
    rw [hparse] at h
    exact ⟨e, rfl, Option.some.inj h⟩
  | error err =>
    rw [hparse] at h
    cases h

/-- The text `List[int]` as it stands, in quotes and behind `typing.` denotes three types. -/
theorem not_ofHint_spelling_listOfInt :
    (∃ e, parseExpression "List[int]" = .ok e ∧ ofHint e = list int) ∧
    (∃ e, parseExpression "'List[int]'" = .ok e ∧ ofHint e = nominal "List[int]") ∧
    ∃ e, parseExpression "typing.List[int]" = .ok e ∧ ofHint e = any := by
  refine ⟨exists_ofHint_eq ?_, exists_ofHint_eq ?_, exists_ofHint_eq ?_⟩
  · decide +kernel
  · decide +kernel
  · decide +kernel

/-- In quotes, `List[int]` is another type; a list of quoted or qualified integers is the same. -/
theorem ofHint_spelling_listOfInt :
    ∃ e, parseExpression "List[int]" = .ok e ∧
      ofHint (.literal ⟨0, 11⟩ (.str "List[int]")) ≠ ofHint e ∧
      ofHint (.subscript ⟨0, 11⟩ (.name ⟨0, 4⟩ "List") (.literal ⟨5, 10⟩ (.str "int"))) = list int ∧
      ofHint (.subscript ⟨0, 16⟩ (.attribute ⟨0, 11⟩ (.name ⟨0, 6⟩ "typing") "List") (.name ⟨12, 15⟩ "int")) =
        any := by
  have hparse : (parseExpression "List[int]").toOption.map ofHint = some (list int) := by decide +kernel
  obtain ⟨e, he, htype⟩ := exists_ofHint_eq hparse
  have hquoted := (ofHint_spelling e).1 "List[int]" ⟨0, 11⟩ he
  refine ⟨e, he, ?_, ?_, ?_⟩
  · intro heq
    rcases hquoted.mp heq with ⟨nameSpan, rfl⟩ | h
    · cases htype
    · exact absurd h (by decide)
  · exact (ofHint_spelling _).2.1 (.subscript ⟨0, 0⟩ (.name ⟨0, 0⟩ "List") (.name ⟨0, 0⟩ "int")) rfl
  · exact ((ofHint_spelling _).2.2 _ _ _ ⟨0, 4⟩ _ _ rfl).1

end Ty

end NativeClass
