import Mathlib.Data.List.Basic
/-!
# What a computation that may fail ensures

* `Ensures r P E`: the value of `r` has the property `P`, or its error has the property `E`.
* `Ensures.bind`: one computation after another.
* `bind_eq_ok_iff`, `map_eq_ok_iff`: the computations inside one that has a value.
* `mapM_eq_ok`, `mapM_congr`, `mapM_eq_error_iff`: traversals.
* **`ensures_foldlM`**: an invariant of a run over a list, which may speak of the elements already dealt
  with.
* `SameValue`: two computations have the same value, or both fail.
* `SameUpTo`: two computations have the same value, or both fail with related errors.
-/

namespace NativeClass

variable {ε α β σ : Type} {r : Except ε α} {P Q : α → Prop} {E E' : ε → Prop}

/-- The value of `r` has the property `P`, or its error has the property `E`. -/
def Ensures (r : Except ε α) (P : α → Prop) (E : ε → Prop) : Prop :=
  match r with
  | .ok a => P a
  | .error e => E e

theorem ensures_ok {a : α} : Ensures (.ok a) P E ↔ P a := Iff.rfl

theorem ensures_error {e : ε} : Ensures (.error e) P E ↔ E e := Iff.rfl

theorem ensures_true (r : Except ε α) : Ensures r (fun _ => True) fun _ => True := by
  cases r <;> trivial

namespace Ensures

theorem of_ok (h : Ensures r P E) {a : α} (hr : r = .ok a) : P a := by
  rw [hr] at h
  exact h

theorem of_error (h : Ensures r P E) {e : ε} (hr : r = .error e) : E e := by
  rw [hr] at h
  exact h

theorem mono (h : Ensures r P E) (hP : ∀ a, P a → Q a) : Ensures r Q E := by
  cases r with
  | ok a => exact hP a h
  | error e => exact h

theorem imp (h : Ensures r P E) (hP : ∀ a, P a → Q a) (hE : ∀ e, E e → E' e) : Ensures r Q E' := by
  cases r with
  | ok a => exact hP a h
  | error e => exact hE e h

theorem of_any (h : Ensures r P E) : Ensures r P fun _ => True := by
  cases r with
  | ok a => exact h
  | error e => trivial

theorem and (h : Ensures r P E) (h' : Ensures r Q E') : Ensures r (fun a => P a ∧ Q a) E := by
  cases r with
  | ok a => exact ⟨h, h'⟩
  | error e => exact h

theorem bind {f : α → Except ε β} {Q : β → Prop} (h : Ensures r P E)
    (hf : ∀ a, P a → Ensures (f a) Q E) : Ensures (r >>= f) Q E := by
  cases r with
  | ok a => exact hf a h
  | error e => exact h

end Ensures

theorem bind_eq_ok_iff {f : α → Except ε β} {b : β} :
    r >>= f = .ok b ↔ ∃ a, r = .ok a ∧ f a = .ok b := by
  cases r with
  | ok a =>
    constructor
    · exact fun h => ⟨a, rfl, h⟩
    · rintro ⟨a', ha, h⟩
      cases ha
      exact h
  | error e =>
    constructor
    · intro h
      cases h
    · rintro ⟨a, ha, -⟩
      cases ha

theorem map_eq_ok_iff {f : α → β} {b : β} : r.map f = .ok b ↔ ∃ a, r = .ok a ∧ f a = b := by
  cases r with
  | ok a => simp [Except.map]
  | error e => simp [Except.map]

theorem mapM_eq_ok {f : α → Except ε β} {g : α → β} {xs : List α} (h : ∀ x ∈ xs, f x = .ok (g x)) :
    xs.mapM f = .ok (xs.map g) := by
  induction xs with
  | nil => rfl
  | cons x xs ih =>
    rw [List.mapM_cons, h x List.mem_cons_self, ih fun y hy => h y (List.mem_cons_of_mem x hy)]
    rfl

theorem mapM_congr {f g : α → Except ε β} {xs : List α} (h : ∀ x ∈ xs, f x = g x) :
    xs.mapM f = xs.mapM g := by
  induction xs with
  | nil => rfl
  | cons x xs ih =>
    rw [List.mapM_cons, List.mapM_cons, h x List.mem_cons_self,
      ih fun y hy => h y (List.mem_cons_of_mem x hy)]

theorem mapM_concat_ok {f : α → Except ε β} {xs : List α} {bs : List β} {y : α} {b : β}
    (hxs : xs.mapM f = .ok bs) (hy : f y = .ok b) : (xs ++ [y]).mapM f = .ok (bs ++ [b]) := by
  rw [List.mapM_append, List.mapM_cons, hxs, hy]
  rfl

theorem mapM_append_error {f : α → Except ε β} {xs : List α} {bs : List β} {y : α} {e : ε}
    (hxs : xs.mapM f = .ok bs) (hy : f y = .error e) (ys : List α) :
    (xs ++ y :: ys).mapM f = .error e := by
  rw [List.mapM_append, List.mapM_cons, hxs, hy]
  rfl

theorem exists_mapM_eq_ok_iff {f : α → Except ε β} {xs : List α} :
    (∃ bs, xs.mapM f = .ok bs) ↔ ∀ x ∈ xs, ∃ b, f x = .ok b := by
  induction xs with
  | nil => exact ⟨fun _ => List.forall_mem_nil _, fun _ => ⟨[], rfl⟩⟩
  | cons x xs ih =>
    rw [List.forall_mem_cons, ← ih, List.mapM_cons]
    constructor
    · rintro ⟨bs, h⟩
      obtain ⟨b, hb, h⟩ := bind_eq_ok_iff.mp h
      obtain ⟨bs', hbs', -⟩ := bind_eq_ok_iff.mp h
      exact ⟨⟨b, hb⟩, bs', hbs'⟩
    · rintro ⟨⟨b, hb⟩, bs, hbs⟩
      rw [hb, hbs]
      exact ⟨b :: bs, rfl⟩

theorem exists_of_mem_mapM {f : α → Except ε β} {xs : List α} {bs : List β} {b : β} (h : xs.mapM f = .ok bs)
    (hb : b ∈ bs) : ∃ x ∈ xs, f x = .ok b := by
  induction xs generalizing bs with
  | nil =>
    cases h
    cases hb
  | cons x xs ih =>
    rw [List.mapM_cons, bind_eq_ok_iff] at h
    obtain ⟨b', hx, h⟩ := h
    obtain ⟨bs', hxs, h⟩ := bind_eq_ok_iff.mp h
    cases h
    rcases List.mem_cons.mp hb with rfl | hb
    · exact ⟨x, List.mem_cons_self, hx⟩
    · obtain ⟨y, hy, hfy⟩ := ih hxs hb
      exact ⟨y, List.mem_cons_of_mem x hy, hfy⟩

theorem exists_of_mapM_eq_mapM {f g : α → Except ε β} {xs : List α} {bs : List β} {x : α} (hf : xs.mapM f = .ok bs)
    (hg : xs.mapM g = .ok bs) (hx : x ∈ xs) : ∃ b, f x = .ok b ∧ g x = .ok b := by
  induction xs generalizing bs with
  | nil => cases hx
  | cons y xs ih =>
    rw [List.mapM_cons, bind_eq_ok_iff] at hf hg
    obtain ⟨b, hfy, hf⟩ := hf
    obtain ⟨b', hgy, hg⟩ := hg
    obtain ⟨cs, hfs, hf⟩ := bind_eq_ok_iff.mp hf
    obtain ⟨cs', hgs, hg⟩ := bind_eq_ok_iff.mp hg
    cases hf
    cases hg
    rcases List.mem_cons.mp hx with rfl | hx
    · exact ⟨b, hfy, hgy⟩
    · exact ih hfs hgs hx

/-- **The error of a traversal is that of the first step that fails.** -/
theorem mapM_eq_error_iff {f : α → Except ε β} {xs : List α} {e : ε} :
    xs.mapM f = .error e ↔ ∃ before x after, xs = before ++ x :: after ∧
      (∀ y ∈ before, ∃ b, f y = .ok b) ∧ f x = .error e := by
  constructor
  · intro h
    induction xs with
    | nil => cases h
    | cons x xs ih =>
      rw [List.mapM_cons] at h
      cases hx : f x with
      | error e' =>
        rw [hx] at h
        cases h
        exact ⟨[], x, xs, rfl, List.forall_mem_nil _, hx⟩
      | ok b =>
        have hxs : xs.mapM f = .error e := by
          rw [hx] at h
          cases hr : xs.mapM f with
          | error e' =>
            simp only [hr] at h
            cases h
            rfl
          | ok bs =>
            simp only [hr] at h
            cases h
        obtain ⟨before, y, after, rfl, hbefore, hy⟩ := ih hxs
        exact ⟨x :: before, y, after, rfl, List.forall_mem_cons.mpr ⟨⟨b, hx⟩, hbefore⟩, hy⟩
  · rintro ⟨before, x, after, rfl, hbefore, hx⟩
    obtain ⟨bs, hbs⟩ := exists_mapM_eq_ok_iff.mpr hbefore
    exact mapM_append_error hbs hx after

theorem exists_of_mapM_eq_error {f : α → Except ε β} {xs : List α} {e : ε} (h : xs.mapM f = .error e) :
    ∃ x ∈ xs, f x = .error e := by
  obtain ⟨before, x, after, rfl, -, hx⟩ := mapM_eq_error_iff.mp h
  exact ⟨x, List.mem_append_right before List.mem_cons_self, hx⟩

/-- **An invariant of a run over a list.** Each step carries it from the elements already dealt with to
one more. -/
theorem ensures_foldlM {f : σ → β → Except ε σ} (I : List β → σ → Prop) {xs : List β} {s : σ}
    (hs : I [] s)
    (step : ∀ dealt x rest s, xs = dealt ++ x :: rest → I dealt s →
      Ensures (f s x) (I (dealt ++ [x])) E) :
    Ensures (xs.foldlM f s) (I xs) E := by
  suffices h : ∀ rest dealt s, xs = dealt ++ rest → I dealt s →
      Ensures (rest.foldlM f s) (I xs) E from h xs [] s rfl hs
  intro rest
  induction rest with
  | nil =>
    intro dealt s hxs hI
    rw [List.append_nil] at hxs
    exact hxs ▸ hI
  | cons x rest ih =>
    intro dealt s hxs hI
    rw [List.foldlM_cons]
    refine (step dealt x rest s hxs hI).bind fun s' hs' => ?_
    exact ih (dealt ++ [x]) s' (by rw [hxs, List.append_assoc, List.singleton_append]) hs'

/-! ## Computations with the same value -/

/-- Two computations have the same value, or both fail. -/
def SameValue (r r' : Except ε α) : Prop :=
  ∀ a, r = .ok a ↔ r' = .ok a

namespace SameValue

variable {r r' r'' : Except ε α} {f f' : α → Except ε β}

theorem refl (r : Except ε α) : SameValue r r :=
  fun _ => Iff.rfl

theorem symm (h : SameValue r r') : SameValue r' r :=
  fun a => (h a).symm

theorem trans (h : SameValue r r') (h' : SameValue r' r'') : SameValue r r'' :=
  fun a => (h a).trans (h' a)

theorem error (e e' : ε) : SameValue (.error e : Except ε α) (.error e') :=
  fun _ => ⟨nofun, nofun⟩

theorem ite {p : Prop} [Decidable p] {s s' : Except ε α} (h : SameValue r r') (h' : SameValue s s') :
    SameValue (if p then r else s) (if p then r' else s') := by
  split
  · exact h
  · exact h'

theorem bind (h : SameValue r r') (hf : ∀ a, SameValue (f a) (f' a)) : SameValue (r >>= f) (r' >>= f') := by
  intro b
  rw [bind_eq_ok_iff, bind_eq_ok_iff]
  exact exists_congr fun a => and_congr (h a) (hf a b)

theorem map (h : SameValue r r') (g : α → β) : SameValue (r.map g) (r'.map g) := by
  intro b
  rw [map_eq_ok_iff, map_eq_ok_iff]
  exact exists_congr fun a => and_congr_left' (h a)

theorem foldlM {f f' : σ → β → Except ε σ} {xs : List β}
    (h : ∀ x ∈ xs, ∀ s, SameValue (f s x) (f' s x)) (s : σ) :
    SameValue (xs.foldlM f s) (xs.foldlM f' s) := by
  induction xs generalizing s with
  | nil => exact refl _
  | cons x xs ih =>
    obtain ⟨hx, hxs⟩ := List.forall_mem_cons.mp h
    rw [List.foldlM_cons, List.foldlM_cons]
    exact (hx s).bind fun s' => ih hxs s'

end SameValue

/-! ## Computations that agree up to their errors -/

/-- Two computations have the same value, or both fail and `R` relates their errors. -/
inductive SameUpTo (R : ε → ε → Prop) : Except ε α → Except ε α → Prop
  | ok (a : α) : SameUpTo R (.ok a) (.ok a)
  | error {e e' : ε} (h : R e e') : SameUpTo R (.error e) (.error e')

namespace SameUpTo

variable {R : ε → ε → Prop} {r r' : Except ε α}

theorem refl [Std.Refl R] (r : Except ε α) : SameUpTo R r r := by
  cases r with
  | ok a => exact .ok a
  | error e => exact .error (Std.Refl.refl e)

theorem ok_or_error (h : SameUpTo R r r') :
    (∃ a, r = .ok a ∧ r' = .ok a) ∨ ∃ e e', r = .error e ∧ r' = .error e' ∧ R e e' := by
  cases h with
  | ok a => exact Or.inl ⟨a, rfl, rfl⟩
  | error h => exact Or.inr ⟨_, _, rfl, rfl, h⟩

theorem eq_ok_iff (h : SameUpTo R r r') {a : α} : r = .ok a ↔ r' = .ok a := by
  cases h with
  | ok => exact Iff.rfl
  | error => exact ⟨nofun, nofun⟩

theorem bind {f f' : α → Except ε β} (h : SameUpTo R r r') (hf : ∀ a, SameUpTo R (f a) (f' a)) :
    SameUpTo R (r >>= f) (r' >>= f') := by
  cases h with
  | ok a => exact hf a
  | error h => exact .error h

theorem foldlM {f f' : σ → β → Except ε σ} (h : ∀ s x, SameUpTo R (f s x) (f' s x)) (xs : List β) (s : σ) :
    SameUpTo R (xs.foldlM f s) (xs.foldlM f' s) := by
  induction xs generalizing s with
  | nil => exact .ok s
  | cons x xs ih =>
    rw [List.foldlM_cons, List.foldlM_cons]
    exact (h s x).bind ih

end SameUpTo

end NativeClass
