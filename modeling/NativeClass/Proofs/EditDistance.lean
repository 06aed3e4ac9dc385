import Mathlib.Order.Bounds.Defs
import NativeClass.EditDistance
/-!
# The edit distance counts the fewest edits

A word turns into another one by single edits, each of which inserts, deletes or replaces one character at some place.
The table of distances gives the length of a shortest such sequence, whatever detours the others make.

* `SingleEdit`, `EditsTo`: one edit, and a sequence of edits with its length.
* `wordDistance`: the distance by recursion on both words; `wordDistance_le_of_singleEdit`: one edit changes it by at
  most one.
* `nextDistances_eq`, `editDistance_eq`: the table holds the distances of the initial parts, read backwards.
* **`isLeast_editDistance`**: the distance is the least number of edits.
* `Suggests`, **`similarNames_eq_iff`**: the suggestions for a name.
* **`editDistance_laws`**: the laws of the distance and of the suggestions.
-/

namespace NativeClass

variable {a b c : List Char} {m n : Nat}

/-! ## Edits -/

/-- One character of a word is inserted, deleted or replaced. -/
inductive SingleEdit : List Char → List Char → Prop
  | insertion (before after : List Char) (x : Char) : SingleEdit (before ++ after) (before ++ x :: after)
  | deletion (before after : List Char) (x : Char) : SingleEdit (before ++ x :: after) (before ++ after)
  | substitution (before after : List Char) (x y : Char) :
    SingleEdit (before ++ x :: after) (before ++ y :: after)

/-- A sequence of `n` edits turns one word into another. -/
inductive EditsTo : Nat → List Char → List Char → Prop
  | refl (a : List Char) : EditsTo 0 a a
  | step {n : Nat} {a b c : List Char} (h : SingleEdit a b) (hrest : EditsTo n b c) : EditsTo (n + 1) a c

theorem SingleEdit.symm (h : SingleEdit a b) : SingleEdit b a := by
  cases h with
  | insertion before after x => exact .deletion before after x
  | deletion before after x => exact .insertion before after x
  | substitution before after x y => exact .substitution before after y x

theorem SingleEdit.cons (x : Char) (h : SingleEdit a b) : SingleEdit (x :: a) (x :: b) := by
  cases h with
  | insertion before after y => exact .insertion (x :: before) after y
  | deletion before after y => exact .deletion (x :: before) after y
  | substitution before after y z => exact .substitution (x :: before) after y z

theorem SingleEdit.reverse (h : SingleEdit a b) : SingleEdit a.reverse b.reverse := by
  cases h with
  | insertion before after x =>
    simpa using SingleEdit.insertion after.reverse before.reverse x
  | deletion before after x =>
    simpa using SingleEdit.deletion after.reverse before.reverse x
  | substitution before after x y =>
    simpa using SingleEdit.substitution after.reverse before.reverse x y

namespace EditsTo

theorem single (h : SingleEdit a b) : EditsTo 1 a b :=
  .step h (.refl b)

theorem trans (hab : EditsTo m a b) (hbc : EditsTo n b c) : EditsTo (m + n) a c := by
  induction hab with
  | refl => rwa [Nat.zero_add]
  | step h _ ih =>
    rw [Nat.add_right_comm]
    exact .step h (ih hbc)

theorem symm (h : EditsTo n a b) : EditsTo n b a := by
  induction h with
  | refl a => exact .refl a
  | step h _ ih => exact ih.trans (.single h.symm)

theorem cons (x : Char) (h : EditsTo n a b) : EditsTo n (x :: a) (x :: b) := by
  induction h with
  | refl => exact .refl _
  | step h _ ih => exact .step (h.cons x) ih

theorem reverse (h : EditsTo n a b) : EditsTo n a.reverse b.reverse := by
  induction h with
  | refl => exact .refl _
  | step h _ ih => exact .step h.reverse ih

theorem zero_iff : EditsTo 0 a b ↔ a = b := by
  constructor
  · rintro ⟨⟩
    rfl
  · rintro rfl
    exact .refl a

theorem deletion (x : Char) (h : EditsTo n a b) : EditsTo (n + 1) (x :: a) b :=
  .step (.deletion [] a x) h

theorem insertion (x : Char) (h : EditsTo n a b) : EditsTo (n + 1) a (x :: b) :=
  (h.symm.deletion x).symm

theorem substitution (x y : Char) (h : EditsTo n a b) : EditsTo (n + 1) (x :: a) (y :: b) :=
  .step (.substitution [] a x y) (h.cons y)

/-- The shorter one of two sequences of edits. -/
theorem min (hm : EditsTo m a b) (hn : EditsTo n a b) : EditsTo (min m n) a b := by
  rw [Nat.min_def]
  split
  · exact hm
  · exact hn

end EditsTo

/-! ## The distance by recursion on both words -/

/-- The distance of two words, by what becomes of their first characters. -/
def wordDistance : List Char → List Char → Nat
  | [], bs => bs.length
  | a :: as, [] => as.length + 1
  | a :: as, b :: bs =>
    min (min (wordDistance as (b :: bs) + 1) (wordDistance (a :: as) bs + 1))
      (wordDistance as bs + if a = b then 0 else 1)
termination_by as bs => as.length + bs.length

theorem wordDistance_nil_left (b : List Char) : wordDistance [] b = b.length := by
  rw [wordDistance]

theorem wordDistance_nil_right (a : List Char) : wordDistance a [] = a.length := by
  cases a <;> simp [wordDistance]

theorem wordDistance_cons_cons (x y : Char) (a b : List Char) :
    wordDistance (x :: a) (y :: b) =
      min (min (wordDistance a (y :: b) + 1) (wordDistance (x :: a) b + 1))
        (wordDistance a b + if x = y then 0 else 1) := by
  rw [wordDistance]

/-- As many edits as the distance suffice. -/
theorem editsTo_wordDistance (a b : List Char) : EditsTo (wordDistance a b) a b := by
  induction a, b using wordDistance.induct with
  | case1 b =>
    rw [wordDistance_nil_left]
    induction b with
    | nil => exact .refl []
    | cons y b ih => exact ih.insertion y
  | case2 x a =>
    rw [wordDistance_nil_right]
    induction x :: a with
    | nil => exact .refl []
    | cons x a ih => exact ih.deletion x
  | case3 x a y b ihDelete ihInsert ihReplace =>
    have hreplace : EditsTo (wordDistance a b + if x = y then 0 else 1) (x :: a) (y :: b) := by
      split
      next hxy =>
        rw [← hxy]
        exact ihReplace.cons x
      · exact ihReplace.substitution x y
    rw [wordDistance_cons_cons]
    exact ((ihDelete.deletion x).min (ihInsert.insertion y)).min hreplace

theorem wordDistance_cons_left_le (x : Char) (a c : List Char) :
    wordDistance (x :: a) c ≤ wordDistance a c + 1 := by
  cases c with
  | nil => simp [wordDistance_nil_right]
  | cons z c =>
    rw [wordDistance_cons_cons]
    omega

theorem wordDistance_cons_right_le (y : Char) (a c : List Char) :
    wordDistance a (y :: c) ≤ wordDistance a c + 1 := by
  cases a with
  | nil => simp [wordDistance_nil_left]
  | cons x a =>
    rw [wordDistance_cons_cons]
    omega

theorem wordDistance_le_cons_left (x : Char) (a c : List Char) :
    wordDistance a c ≤ wordDistance (x :: a) c + 1 := by
  induction c with
  | nil =>
    simp only [wordDistance_nil_right, List.length_cons]
    omega
  | cons z c ih =>
    have hright := wordDistance_cons_right_le z a c
    rw [wordDistance_cons_cons]
    omega

/-- Characters in front of two words keep how far their distances to any third word lie apart. -/
theorem wordDistance_cons_le_of_le {x y : Char} (h : ∀ c, wordDistance a c ≤ wordDistance b c + 1)
    (hxy : ∀ z c, wordDistance a c + (if x = z then 0 else 1) ≤ wordDistance b c + (if y = z then 0 else 1) + 1)
    (c : List Char) : wordDistance (x :: a) c ≤ wordDistance (y :: b) c + 1 := by
  induction c with
  | nil =>
    have hnil := h []
    simp only [wordDistance_nil_right, List.length_cons] at hnil ⊢
    omega
  | cons z c ih =>
    have hdelete := h (z :: c)
    have hreplace := hxy z c
    rw [wordDistance_cons_cons, wordDistance_cons_cons]
    omega

theorem wordDistance_append_le_of_le (h : ∀ c, wordDistance a c ≤ wordDistance b c + 1) (before : List Char) :
    ∀ c, wordDistance (before ++ a) c ≤ wordDistance (before ++ b) c + 1 := by
  induction before with
  | nil => exact h
  | cons x before ih =>
    refine wordDistance_cons_le_of_le ih fun z c => ?_
    have hrest := ih c
    simp only [List.append_eq] at hrest ⊢
    omega

/-- **One edit changes the distance to a third word by at most one.** -/
theorem wordDistance_le_of_singleEdit (h : SingleEdit a b) (c : List Char) :
    wordDistance a c ≤ wordDistance b c + 1 := by
  cases h with
  | insertion before after x => exact wordDistance_append_le_of_le (wordDistance_le_cons_left x after) before c
  | deletion before after x => exact wordDistance_append_le_of_le (wordDistance_cons_left_le x after) before c
  | substitution before after x y =>
    refine wordDistance_append_le_of_le (wordDistance_cons_le_of_le (fun c => Nat.le_succ _) fun z c => ?_) before c
    split <;> omega

theorem wordDistance_self (a : List Char) : wordDistance a a = 0 := by
  induction a with
  | nil => rw [wordDistance_nil_left, List.length_nil]
  | cons x a ih => rw [wordDistance_cons_cons, if_pos rfl, ih, Nat.add_zero, Nat.min_zero]

theorem wordDistance_le_of_editsTo (h : EditsTo n a b) : wordDistance a b ≤ n := by
  induction h with
  | refl a => exact Nat.le_of_eq (wordDistance_self a)
  | @step n a b c h _ ih =>
    have hfirst := wordDistance_le_of_singleEdit h c
    omega

/-- The distance is the length of a shortest sequence of edits. -/
theorem isLeast_wordDistance (a b : List Char) : IsLeast {n | EditsTo n a b} (wordDistance a b) :=
  ⟨editsTo_wordDistance a b, fun _ => wordDistance_le_of_editsTo⟩

/-- The edits of two words are those of the words read backwards. -/
theorem wordDistance_reverse (a b : List Char) : wordDistance a.reverse b.reverse = wordDistance a b := by
  refine Nat.le_antisymm (wordDistance_le_of_editsTo (editsTo_wordDistance a b).reverse) ?_
  have h := wordDistance_le_of_editsTo (editsTo_wordDistance a.reverse b.reverse).reverse
  rwa [List.reverse_reverse, List.reverse_reverse] at h

/-! ## The table of distances -/

/-- The distances from a word to another one that is extended by one character after the other. Both stand
backwards, so a word is extended at its front. -/
def distancesFrom (a b : List Char) : List Char → List Nat
  | [] => []
  | y :: more => wordDistance a (y :: b) :: distancesFrom a (y :: b) more

/-- **A row of the table follows from the row above it.** -/
theorem nextDistances_eq (x : Char) (a b more : List Char) :
    nextDistances x (wordDistance a b) (wordDistance (x :: a) b) more (distancesFrom a b more) =
      distancesFrom (x :: a) b more := by
  induction more generalizing b with
  | nil => rfl
  | cons y more ih =>
    simp only [nextDistances, distancesFrom]
    rw [← wordDistance_cons_cons, ih (y :: b)]

theorem distanceRow_eq (x : Char) (a b : List Char) :
    distanceRow x (a.length + 1) b (wordDistance a [] :: distancesFrom a [] b) =
      wordDistance (x :: a) [] :: distancesFrom (x :: a) [] b := by
  have hfirst : a.length + 1 = wordDistance (x :: a) [] := by
    rw [wordDistance_nil_right, List.length_cons]
  rw [distanceRow, hfirst, nextDistances_eq]

theorem distanceRows_eq (a done b : List Char) :
    distanceRows b done.length (wordDistance done [] :: distancesFrom done [] b) a =
      wordDistance (a.reverse ++ done) [] :: distancesFrom (a.reverse ++ done) [] b := by
  induction a generalizing done with
  | nil => rfl
  | cons x a ih =>
    rw [distanceRows, distanceRow_eq, List.reverse_cons, List.append_assoc]
    exact ih (x :: done)

/-- The first row of the table counts the characters. -/
theorem range'_eq_distancesFrom (b more : List Char) :
    List.range' (b.length + 1) more.length = distancesFrom [] b more := by
  induction more generalizing b with
  | nil => rfl
  | cons y more ih =>
    rw [List.length_cons, List.range'_succ, distancesFrom, wordDistance_nil_left, List.length_cons]
    exact congrArg _ (ih (y :: b))

theorem getLastD_distancesFrom (a b more : List Char) (k : Nat) :
    (wordDistance a b :: distancesFrom a b more).getLastD k = wordDistance a (more.reverse ++ b) := by
  induction more generalizing b with
  | nil => rfl
  | cons y more ih =>
    rw [distancesFrom, List.getLastD_cons, List.reverse_cons, List.append_assoc]
    exact ih (y :: b)

/-- The table ends with the distance of the whole words. -/
theorem editDistance_eq (a b : String) : editDistance a b = wordDistance a.toList b.toList := by
  have hfirst : List.range (b.toList.length + 1) = wordDistance [] [] :: distancesFrom [] [] b.toList := by
    rw [List.range_eq_range', List.range'_succ, wordDistance_nil_left, List.length_nil, ← range'_eq_distancesFrom]
    rfl
  have hrows := distanceRows_eq a.toList [] b.toList
  rw [List.length_nil, List.append_nil] at hrows
  rw [editDistance, hfirst, hrows, getLastD_distancesFrom, List.append_nil, wordDistance_reverse]

/-- **The edit distance is the least number of edits.** -/
theorem isLeast_editDistance (a b : String) :
    IsLeast {n | EditsTo n a.toList b.toList} (editDistance a b) := by
  rw [editDistance_eq]
  exact isLeast_wordDistance _ _

/-! ## Lists in the order of a key -/

section

variable {α : Type} {key : α → Nat} {l l' : List α}

/-- A sort by a key is stable: the elements of one key keep their order. -/
theorem filter_mergeSort_key (key : α → Nat) (l : List α) (k : Nat) :
    (l.mergeSort fun x y => key x ≤ key y).filter (key · = k) = l.filter (key · = k) := by
  have hkey : ∀ x ∈ l.filter (key · = k), key x = k := fun x hx => of_decide_eq_true (List.mem_filter.mp hx).2
  have hsorted : (l.filter (key · = k)).Pairwise fun x y => decide (key x ≤ key y) = true :=
    List.pairwise_of_forall_mem_list fun x hx y hy =>
      decide_eq_true (Nat.le_of_eq ((hkey x hx).trans (hkey y hy).symm))
  have hsub : List.Sublist (l.filter (key · = k)) (l.mergeSort fun x y => key x ≤ key y) :=
    List.sublist_mergeSort (fun x y z => by simp only [decide_eq_true_eq]; omega)
      (fun x y => by simp only [Bool.or_eq_true, decide_eq_true_eq]; omega) hsorted List.filter_sublist
  have hfilter := hsub.filter (key · = k)
  rw [List.filter_filter] at hfilter
  simp only [Bool.and_self] at hfilter
  exact (hfilter.eq_of_length ((List.mergeSort_perm l _).filter _).length_eq.symm).symm

theorem pairwise_mergeSort_key (key : α → Nat) (l : List α) :
    (l.mergeSort fun x y => key x ≤ key y).Pairwise fun x y => key x ≤ key y := by
  have hsorted : (l.mergeSort fun x y => key x ≤ key y).Pairwise fun x y => decide (key x ≤ key y) = true :=
    List.pairwise_mergeSort (fun x y z => by simp only [decide_eq_true_eq]; omega)
      (fun x y => by simp only [Bool.or_eq_true, decide_eq_true_eq]; omega) l
  simpa only [decide_eq_true_eq] using hsorted

theorem mem_of_filter_key_eq (h : ∀ k, l.filter (key · = k) = l'.filter (key · = k)) {x : α} (hx : x ∈ l') :
    x ∈ l := by
  have hfilter : x ∈ l'.filter (key · = key x) := List.mem_filter.mpr ⟨hx, decide_eq_true rfl⟩
  rw [← h (key x)] at hfilter
  exact (List.mem_filter.mp hfilter).1

/-- **A list in the order of a key is known by what it has of each key.** -/
theorem eq_of_filter_key_eq (hl : l.Pairwise fun x y => key x ≤ key y) (hl' : l'.Pairwise fun x y => key x ≤ key y)
    (h : ∀ k, l.filter (key · = k) = l'.filter (key · = k)) : l = l' := by
  induction l generalizing l' with
  | nil =>
    cases l' with
    | nil => rfl
    | cons y l' => cases mem_of_filter_key_eq h List.mem_cons_self
  | cons x l ih =>
    cases l' with
    | nil => cases mem_of_filter_key_eq (fun k => (h k).symm) List.mem_cons_self
    | cons y l' =>
      rw [List.pairwise_cons] at hl hl'
      have hle : key x ≤ key y := by
        rcases List.mem_cons.mp (mem_of_filter_key_eq h List.mem_cons_self) with rfl | hy
        · exact Nat.le_refl _
        · exact hl.1 y hy
      have hge : key y ≤ key x := by
        rcases List.mem_cons.mp (mem_of_filter_key_eq (fun k => (h k).symm) List.mem_cons_self) with rfl | hx
        · exact Nat.le_refl _
        · exact hl'.1 x hx
      have hkey : key y = key x := Nat.le_antisymm hge hle
      have hhead := h (key x)
      rw [List.filter_cons_of_pos (by simp), List.filter_cons_of_pos (by simpa using hkey), List.cons.injEq] at hhead
      refine congr (congrArg List.cons hhead.1) (ih hl.2 hl'.2 fun k => ?_)
      by_cases hk : key x = k
      · rw [← hk]
        exact hhead.2
      · have hrest := h k
        rwa [List.filter_cons_of_neg (by simpa using hk), List.filter_cons_of_neg (by simpa [hkey] using hk)] at hrest

end

/-! ## Suggestions -/

/-- The names are the candidates that are near a target, the nearest ones first. -/
structure Suggests (target : String) (candidates : List String) (limit : Nat) (names : List String) : Prop where
  near : ∀ name ∈ names, 1 ≤ editDistance target name ∧ editDistance target name ≤ limit
  nearestFirst : names.Pairwise fun name next => editDistance target name ≤ editDistance target next
  /-- The candidates at one distance are all there, as often and in the order as they are given. -/
  complete : ∀ d, 1 ≤ d → d ≤ limit →
    names.filter (editDistance target · = d) = candidates.filter (editDistance target · = d)

/-- The suggestions are the near candidates, sorted by distance. -/
theorem similarNames_eq_mergeSort (target : String) (candidates : List String) (limit : Nat) :
    similarNames target candidates limit =
      (candidates.filter fun name => editDistance target name ≤ limit && 0 < editDistance target name).mergeSort
        fun name next => editDistance target name ≤ editDistance target next := by
  let near := candidates.filter fun name => editDistance target name ≤ limit && 0 < editDistance target name
  have hsort : (near.mergeSort fun name next => editDistance target name ≤ editDistance target next).map
      (fun name => (name, editDistance target name)) =
        (near.map fun name => (name, editDistance target name)).mergeSort fun x y => x.2 ≤ y.2 :=
    List.map_mergeSort fun _ _ _ _ => rfl
  rw [similarNames, List.filter_map]
  show (((near.map fun name => (name, editDistance target name)).mergeSort fun x y => x.2 ≤ y.2).map Prod.fst) = _
  rw [← hsort, List.map_map]
  exact List.map_id _

theorem suggests_similarNames (target : String) (candidates : List String) (limit : Nat) :
    Suggests target candidates limit (similarNames target candidates limit) := by
  rw [similarNames_eq_mergeSort]
  refine ⟨fun name hname => ?_, pairwise_mergeSort_key _ _, fun d hpos hle => ?_⟩
  · rw [List.mem_mergeSort, List.mem_filter, Bool.and_eq_true, decide_eq_true_eq, decide_eq_true_eq] at hname
    exact ⟨hname.2.2, hname.2.1⟩
  · rw [filter_mergeSort_key, List.filter_filter]
    refine List.filter_congr fun name _ => ?_
    by_cases hd : editDistance target name = d
    · simp only [hd, hle, decide_true, Bool.true_and]
      exact decide_eq_true hpos
    · simp only [hd, decide_false, Bool.false_and]

theorem Suggests.filter_eq_nil {target : String} {candidates names : List String} {limit d : Nat}
    (h : Suggests target candidates limit names) (hd : ¬ (1 ≤ d ∧ d ≤ limit)) :
    names.filter (editDistance target · = d) = [] := by
  refine List.filter_eq_nil_iff.mpr fun name hname heq => hd ?_
  rw [← of_decide_eq_true heq]
  exact h.near name hname

/-- **The suggestions are the near candidates, the nearest ones first and equally near ones in their order.** -/
theorem similarNames_eq_iff {target : String} {candidates names : List String} {limit : Nat} :
    similarNames target candidates limit = names ↔ Suggests target candidates limit names := by
  have hsimilar := suggests_similarNames target candidates limit
  constructor
  · rintro rfl
    exact hsimilar
  · intro h
    refine eq_of_filter_key_eq hsimilar.nearestFirst h.nearestFirst fun d => ?_
    by_cases hd : 1 ≤ d ∧ d ≤ limit
    · rw [hsimilar.complete d hd.1 hd.2, h.complete d hd.1 hd.2]
    · rw [hsimilar.filter_eq_nil hd, h.filter_eq_nil hd]

/-- The suggestions that are one edit away are in the order of the candidates. -/
theorem similarNames_one (target : String) (candidates : List String) :
    similarNames target candidates 1 = candidates.filter (editDistance target · = 1) := by
  have hone : ∀ name ∈ candidates.filter (editDistance target · = 1), editDistance target name = 1 :=
    fun name hname => of_decide_eq_true (List.mem_filter.mp hname).2
  refine similarNames_eq_iff.mpr ⟨fun name hname => ?_, ?_, fun d hpos hle => ?_⟩
  · rw [hone name hname]
    exact ⟨Nat.le_refl 1, Nat.le_refl 1⟩
  · refine List.pairwise_of_forall_mem_list fun name hname next hnext => ?_
    exact Nat.le_of_eq ((hone name hname).trans (hone next hnext).symm)
  · obtain rfl := Nat.le_antisymm hle hpos
    rw [List.filter_filter]
    simp only [Bool.and_self]

/-- **The edit distance is the least number of edits, so it is a metric; the suggestions are ranked by it.** -/
theorem editDistance_laws :
    (∀ a b : String, IsLeast {n | EditsTo n a.toList b.toList} (editDistance a b)) ∧
    (∀ a b : String, editDistance a b = editDistance b a) ∧
    (∀ a b : String, editDistance a b = 0 ↔ a = b) ∧
    (∀ a b c : String, editDistance a c ≤ editDistance a b + editDistance b c) ∧
    ∀ (target : String) (candidates : List String) (limit : Nat) (names : List String),
      similarNames target candidates limit = names ↔ Suggests target candidates limit names := by
  have hedits : ∀ a b : String, EditsTo (editDistance a b) a.toList b.toList := fun a b => (isLeast_editDistance a b).1
  have hleast : ∀ {a b : String} {n : Nat}, EditsTo n a.toList b.toList → editDistance a b ≤ n := fun h =>
    (isLeast_editDistance _ _).2 h
  refine ⟨isLeast_editDistance, fun a b => ?_, fun a b => ?_, fun a b c => ?_, fun _ _ _ _ => similarNames_eq_iff⟩
  · exact Nat.le_antisymm (hleast (hedits b a).symm) (hleast (hedits a b).symm)
  · rw [← String.toList_inj, ← EditsTo.zero_iff]
    constructor
    · intro h
      rw [← h]
      exact hedits a b
    · exact fun h => Nat.le_zero.mp (hleast h)
  · exact hleast ((hedits a b).trans (hedits b c))

/-- The nearest name comes first, and the name itself is no suggestion for it. -/
example : similarNames "norm" ["scale", "nor", "norm", "form", "worn", "nor"] 2 = ["nor", "form", "nor", "worn"] := by
  cbv

end NativeClass
