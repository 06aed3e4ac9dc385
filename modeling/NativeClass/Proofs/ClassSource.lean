import NativeClass.ClassSource.Reading
import NativeClass.Draft.Signatures
import NativeClass.Proofs.OrderedMap
/-!
# The theory of class sources

* `ClassSource.methodNames`: the functions of a class body that become methods.
* `Function.isConstructorUnder`: the function is taken for a constructor; `ClassSource.DefinesSlot`: the class has a
  method of the name that is not.
* `NamesFunctions`: every function stands under its own name; `NamesFunctions.definesSlot_iff`: then every method but
  `__init__` and `__new__` has a slot.
* **`ClassDecl.namesFunctions_of_ofStmt?`**: the classes of a source text are of that kind.
-/

namespace NativeClass

/-- The names of the functions of a class body that become methods, in the order of the body: all but the
allocator. -/
def ClassSource.methodNames (c : ClassSource) : List String :=
  ((c.members.entries.filter (·.2.function?.isSome)).map Prod.fst).filter (· ≠ newName)

namespace ClassSource

theorem nodup_methodNames (c : ClassSource) : c.methodNames.Nodup :=
  (c.members.nodup.sublist (List.filter_sublist.map Prod.fst)).filter _

/-- The class body defines a function under the name. -/
def DefinesMethod (c : ClassSource) (name : String) : Prop :=
  ∃ f, c.members.get? name = some (.function f)

theorem mem_methodNames_iff {c : ClassSource} {name : String} :
    name ∈ c.methodNames ↔ c.DefinesMethod name ∧ name ≠ newName := by
  have hfunction : name ∈ (c.members.entries.filter (·.2.function?.isSome)).map Prod.fst ↔
      c.DefinesMethod name := by
    constructor
    · intro h
      obtain ⟨⟨k, decl⟩, hmem, rfl⟩ := List.mem_map.mp h
      obtain ⟨hdecl, hf⟩ := List.mem_filter.mp hmem
      cases decl with
      | function f => exact ⟨f, OrderedMap.get?_eq_some_iff.mpr hdecl⟩
      | attr ty => cases hf
      | value text => cases hf
    · rintro ⟨f, hf⟩
      have hmem := OrderedMap.get?_eq_some_iff.mp hf
      exact List.mem_map_of_mem (List.mem_filter.mpr ⟨hmem, rfl⟩)
  rw [methodNames, List.mem_filter, hfunction, decide_eq_true_eq]

theorem map_fst_methodFunctions (c : ClassSource) :
    (Draft.methodFunctions c.dict).map Prod.fst = c.methodNames := by
  have h : ∀ es : List (String × Declaration),
      (((es.map fun e => (e.1, Member.declared e.2)).filterMap
          fun e => e.2.function?.map (e.1, ·)).filter (·.1 ≠ newName)).map Prod.fst =
        ((es.filter (·.2.function?.isSome)).map Prod.fst).filter (· ≠ newName) := by
    intro es
    induction es with
    | nil => rfl
    | cons e es ih =>
      obtain ⟨name, decl⟩ := e
      cases decl with
      | function f =>
        by_cases hn : name = newName
        · simpa [Member.function?, Declaration.function?, hn] using ih
        · simpa [Member.function?, Declaration.function?, hn] using ih
      | attr ty => simpa [Member.function?, Declaration.function?] using ih
      | value text => simpa [Member.function?, Declaration.function?] using ih
  exact h c.members.entries

theorem get?_of_mem_methodFunctions {c : ClassSource} {e : String × Function}
    (h : e ∈ Draft.methodFunctions c.dict) : c.members.get? e.1 = some (.function e.2) := by
  obtain ⟨⟨name, m⟩, hm, hf⟩ := List.mem_filterMap.mp (List.mem_filter.mp h).1
  obtain ⟨⟨name', decl⟩, hdecl, heq⟩ := List.mem_map.mp hm
  obtain ⟨rfl, rfl⟩ := Prod.mk.inj heq
  obtain ⟨f, hdf, rfl⟩ := Option.map_eq_some_iff.mp hf
  cases decl with
  | function g =>
    cases hdf
    exact OrderedMap.get?_eq_some_iff.mpr hdecl
  | attr ty => cases hdf
  | value text => cases hdf

end ClassSource

/-! ## Constructors -/

/-- The function is taken for a constructor under a name: with type hints it is told by the name that it carries,
without them by the one under which it stands in the class. -/
def Function.isConstructorUnder (f : Function) (name : String) : Bool :=
  if f.isAnnotated then f.name = initName else name = initName

/-- The class has a method of the name that is not taken for a constructor. -/
def ClassSource.DefinesSlot (c : ClassSource) (name : String) : Prop :=
  ∃ f, c.members.get? name = some (.function f) ∧ name ≠ newName ∧ f.isConstructorUnder name = false

theorem ClassSource.DefinesSlot.definesMethod {c : ClassSource} {name : String} (h : c.DefinesSlot name) :
    c.DefinesMethod name := by
  obtain ⟨f, hf, -⟩ := h
  exact ⟨f, hf⟩

theorem Function.isConstructorUnder_of_name {f : Function} {name : String} (h : f.name = name) :
    f.isConstructorUnder name = decide (name = initName) := by
  rw [isConstructorUnder, h, ite_self]

theorem ClassSource.definesSlot_initName_iff {c : ClassSource} :
    c.DefinesSlot initName ↔
      ∃ f, c.members.get? initName = some (.function f) ∧ f.isAnnotated ∧ f.name ≠ initName := by
  refine exists_congr fun f => and_congr_right fun _ => ?_
  rw [and_iff_right (by decide), Function.isConstructorUnder]
  by_cases hf : f.isAnnotated <;> simp [hf]

/-! ## Reading -/

/-- Every function among the declarations stands under its own name, as in every class that is read from a
source text (`ClassDecl.namesFunctions_of_ofStmt?`). -/
def NamesFunctions (members : OrderedMap Declaration) : Prop :=
  ∀ name f, members.get? name = some (.function f) → f.name = name

namespace NamesFunctions

variable {members : OrderedMap Declaration}

theorem insert (h : NamesFunctions members) {name : String} {decl : Declaration}
    (hd : ∀ f, decl = .function f → f.name = name) : NamesFunctions (members.insert name decl) := by
  have hall : ∀ k d, (members.insert name decl).get? k = some d → ∀ f, d = .function f → f.name = k :=
    OrderedMap.forall_get?_insert (fun k d hk f hf => h k f (hf ▸ hk)) hd
  exact fun k f hk => hall k _ hk f rfl

theorem insertAll (h : NamesFunctions members) {es : List (String × Declaration)}
    (hes : ∀ e ∈ es, ∀ f, e.2 = .function f → f.name = e.1) :
    NamesFunctions (members.insertAll es) := by
  induction es generalizing members with
  | nil => exact h
  | cons e es ih =>
    rw [OrderedMap.insertAll_cons]
    exact ih (h.insert (hes e List.mem_cons_self)) fun e' he' => hes e' (List.mem_cons_of_mem e he')

theorem name_eq {c : ClassSource} (h : NamesFunctions c.members) {e : String × Function}
    (he : e ∈ Draft.methodFunctions c.dict) : e.2.name = e.1 :=
  h e.1 e.2 (ClassSource.get?_of_mem_methodFunctions he)

/-- Then a method is taken for a constructor exactly if it is called `__init__`. -/
theorem definesSlot_iff {c : ClassSource} (h : NamesFunctions c.members) {name : String} :
    c.DefinesSlot name ↔ c.DefinesMethod name ∧ name ≠ newName ∧ name ≠ initName := by
  constructor
  · rintro ⟨f, hf, hnew, hctor⟩
    rw [Function.isConstructorUnder_of_name (h name f hf)] at hctor
    exact ⟨⟨f, hf⟩, hnew, of_decide_eq_false hctor⟩
  · rintro ⟨⟨f, hf⟩, hnew, hinit⟩
    refine ⟨f, hf, hnew, ?_⟩
    rw [Function.isConstructorUnder_of_name (h name f hf)]
    exact decide_eq_false hinit

theorem addDeclaration (h : NamesFunctions members) (source : String) (lines : Python.LineIndex)
    (stmt : Python.Stmt) : NamesFunctions (addDeclaration source lines members stmt) := by
  unfold NativeClass.addDeclaration
  split
  · exact h.insert fun f hf => nomatch hf
  · exact h.insert fun f hf => by cases hf; rfl
  · refine h.insertAll fun e he f hf => ?_
    obtain ⟨name, -, rfl⟩ := List.mem_map.mp he
    unfold Declaration.ofValue at hf
    split at hf <;> cases hf
  · split
    · exact h.insert fun f hf => nomatch hf
    · exact h
  · exact h

end NamesFunctions

/-- **In a class of a source text every function stands under its own name.** -/
theorem ClassDecl.namesFunctions_of_ofStmt? {source : String} {lines : Python.LineIndex}
    {stmt : Python.Stmt} {d : ClassDecl} (h : ofStmt? source lines stmt = some d) :
    NamesFunctions d.source.members := by
  unfold ofStmt? at h
  split at h
  next body =>
    cases h
    have hbody : ∀ (stmts : List Python.Stmt) (members : OrderedMap Declaration),
        NamesFunctions members →
          NamesFunctions (stmts.foldl (addDeclaration source lines) members) := by
      intro stmts
      induction stmts with
      | nil => exact fun _ hm => hm
      | cons stmt stmts ih => exact fun members hm => ih _ (hm.addDeclaration source lines stmt)
    exact hbody body .empty fun _ _ hk => nomatch hk
  · cases h

end NativeClass
