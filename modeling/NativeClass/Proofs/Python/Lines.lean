import Mathlib.Algebra.GroupWithZero.Nat
import Mathlib.Data.Prod.Lex
import Mathlib.Order.Monotone.Basic
import NativeClass.Proofs.Utf8
import NativeClass.Python.Lines
/-!
# Lines and columns tell where a byte stands

The line of a byte counts the line feeds in front of it, and its column is what the lines before leave of the offset.
A line feed is one byte and no part of any other character, so it does not matter that the offsets count bytes and the
lines are found among the characters.

* `lineStarts`, `LineIndex.startsAfter_eq`: the starts of the lines, found among the bytes.
* **`takeWhile_lineStarts`**: the starts up to a byte are those that the bytes in front of it give.
* **`getLastD_lineStarts`**: the last of them lies behind all lines that end before.
* `SearchHit`, **`LineIndex.position_of_searchHit`**: the position from either answer of a search among the starts.
* **`LineIndex.locates_ofSource`**: positions as a map of byte offsets.
-/

namespace NativeClass.Python

variable {bytes before after : List UInt8} {offset pos start i : Nat} {source : String}

/-- The byte of a line feed. -/
def lineFeed : UInt8 := 10

/-- The starts of the lines behind each line feed, where the first byte stands at `pos`. -/
def lineStarts (pos : Nat) : List UInt8 → List Nat
  | [] => []
  | b :: bytes => if b = lineFeed then (pos + 1) :: lineStarts (pos + 1) bytes else lineStarts (pos + 1) bytes

/-- The bytes of some lines, each with its line feed. -/
def bytesOfLines (lines : List (List UInt8)) : Nat :=
  (lines.map fun line => line.length + 1).sum

theorem bytesOfLines_nil : bytesOfLines [] = 0 :=
  rfl

theorem bytesOfLines_cons (line : List UInt8) (lines : List (List UInt8)) :
    bytesOfLines (line :: lines) = line.length + 1 + bytesOfLines lines := by
  rw [bytesOfLines, List.map_cons, List.sum_cons, bytesOfLines]

/-! ## Line feeds among characters and bytes -/

theorem utf8EncodeChar_lineFeed : String.utf8EncodeChar '\n' = [lineFeed] := by
  decide

theorem lineFeed_notMem_utf8EncodeChar {c : Char} (hc : c ≠ '\n') : lineFeed ∉ String.utf8EncodeChar c := by
  intro h
  have hval : c.toNat = '\n'.toNat := Utf8.toNat_eq_of_mem_utf8EncodeChar (by decide) h
  exact hc (Char.toNat_inj.mp hval)

theorem lineStarts_append (pos : Nat) (before after : List UInt8) :
    lineStarts pos (before ++ after) = lineStarts pos before ++ lineStarts (pos + before.length) after := by
  induction before generalizing pos with
  | nil => rfl
  | cons b before ih =>
    rw [List.cons_append, lineStarts, lineStarts, ih (pos + 1), List.length_cons, Nat.add_right_comm, Nat.add_assoc]
    split <;> rfl

theorem lineStarts_of_notMem (pos : Nat) (h : lineFeed ∉ bytes) : lineStarts pos bytes = [] := by
  induction bytes generalizing pos with
  | nil => rfl
  | cons b bytes ih =>
    rw [List.mem_cons, not_or] at h
    rw [lineStarts, if_neg fun hb => h.1 hb.symm, ih (pos + 1) h.2]

/-- **The starts found among the characters are those found among the bytes.** -/
theorem LineIndex.startsAfter_eq (pos : Nat) (cs : List Char) :
    startsAfter pos cs = lineStarts pos (cs.flatMap String.utf8EncodeChar) := by
  induction cs generalizing pos with
  | nil => rfl
  | cons c cs ih =>
    rw [startsAfter, List.flatMap_cons, lineStarts_append, String.length_utf8EncodeChar, ih (pos + c.utf8Size)]
    by_cases hc : c = '\n'
    · subst hc
      rw [utf8EncodeChar_lineFeed]
      rfl
    · rw [if_neg hc, lineStarts_of_notMem pos (lineFeed_notMem_utf8EncodeChar hc), List.nil_append]

theorem LineIndex.starts_ofSource (source : String) :
    (ofSource source).starts = 0 :: lineStarts 0 source.toUTF8.toList := by
  rw [ofSource, startsAfter_eq, Utf8.toList_toUTF8]

/-! ## The starts up to a byte -/

theorem mem_lineStarts (h : start ∈ lineStarts pos bytes) : pos < start ∧ start ≤ pos + bytes.length := by
  induction bytes generalizing pos with
  | nil => cases h
  | cons b bytes ih =>
    rw [lineStarts] at h
    rw [List.length_cons]
    split at h
    · rcases List.mem_cons.mp h with rfl | h
      · omega
      · have := ih h
        omega
    · have := ih h
      omega

theorem pairwise_lineStarts (pos : Nat) (bytes : List UInt8) : (lineStarts pos bytes).Pairwise (· < ·) := by
  induction bytes generalizing pos with
  | nil => exact List.Pairwise.nil
  | cons b bytes ih =>
    rw [lineStarts]
    split
    · exact List.pairwise_cons.mpr ⟨fun _ h => (mem_lineStarts h).1, ih (pos + 1)⟩
    · exact ih (pos + 1)

theorem length_lineStarts (pos : Nat) (bytes : List UInt8) : (lineStarts pos bytes).length = bytes.count lineFeed := by
  induction bytes generalizing pos with
  | nil => rfl
  | cons b bytes ih =>
    rw [lineStarts]
    split
    next hb => rw [hb, List.count_cons_self, List.length_cons, ih (pos + 1)]
    next hb => rw [List.count_cons_of_ne hb, ih (pos + 1)]

/-- Starts in increasing order are cut behind the last one that is not behind a byte. -/
theorem takeWhile_le_append {starts rest : List Nat} (hle : ∀ start ∈ starts, start ≤ offset)
    (hlt : ∀ start ∈ rest, offset < start) : (starts ++ rest).takeWhile (· ≤ offset) = starts := by
  have hrest : rest.takeWhile (· ≤ offset) = [] := by
    cases rest with
    | nil => rfl
    | cons start rest =>
      have hbehind := hlt start List.mem_cons_self
      exact List.takeWhile_cons_of_neg (by simpa using hbehind)
  rw [List.takeWhile_append_of_pos fun start hstart => decide_eq_true (hle start hstart), hrest, List.append_nil]

/-- **The starts up to a byte are those that the bytes in front of it give.** -/
theorem takeWhile_lineStarts (offset : Nat) (bytes : List UInt8) :
    (0 :: lineStarts 0 bytes).takeWhile (· ≤ offset) = 0 :: lineStarts 0 (bytes.take offset) := by
  have hsplit := lineStarts_append 0 (bytes.take offset) (bytes.drop offset)
  rw [List.take_append_drop] at hsplit
  rw [hsplit, ← List.cons_append]
  refine takeWhile_le_append (fun start hstart => ?_) fun start hstart => ?_
  · rcases List.mem_cons.mp hstart with rfl | hstart
    · exact Nat.zero_le _
    · have hle := (mem_lineStarts hstart).2
      rw [List.length_take] at hle
      omega
  · have hmem := mem_lineStarts hstart
    rw [List.length_drop, List.length_take] at hmem
    omega

/-- **The last start among some bytes lies behind all lines that end in them.** Before the first line feed this is the
start that counts so far. -/
theorem getLastD_lineStarts (pos start : Nat) (before after : List UInt8) :
    (lineStarts pos before).getLastD start =
      if before.count lineFeed = 0 then start
      else pos + bytesOfLines (((before ++ after).splitOn lineFeed).take (before.count lineFeed)) := by
  induction before generalizing pos start with
  | nil => rfl
  | cons b before ih =>
    rw [lineStarts, List.cons_append, List.splitOn_cons_eq_if_modifyHead]
    by_cases hb : b = lineFeed
    · rw [if_pos hb, if_pos (beq_iff_eq.mpr hb), List.getLastD_cons, ih, hb, List.count_cons_self,
        if_neg (Nat.succ_ne_zero _), List.take_succ_cons, bytesOfLines_cons, List.length_nil]
      split
      next hcount => rw [hcount, List.take_zero, bytesOfLines_nil]
      · omega
    · rw [if_neg hb, if_neg (mt beq_iff_eq.mp hb), List.count_cons_of_ne hb, ih]
      split
      · rfl
      next hcount =>
        -- the byte makes the first line longer, and that line is one of those that end
        obtain ⟨n, hn⟩ := Nat.exists_eq_succ_of_ne_zero hcount
        obtain ⟨line, lines, hlines⟩ := List.exists_cons_of_ne_nil (List.splitOn_ne_nil lineFeed (before ++ after))
        rw [hn, hlines, List.modifyHead_cons, List.take_succ_cons, List.take_succ_cons, bytesOfLines_cons,
          bytesOfLines_cons, List.length_cons]
        omega

theorem getLastD_lineStarts_take (offset : Nat) (bytes : List UInt8) :
    (lineStarts 0 (bytes.take offset)).getLastD 0 =
      bytesOfLines ((bytes.splitOn lineFeed).take ((bytes.take offset).count lineFeed)) := by
  have hlast := getLastD_lineStarts 0 0 (bytes.take offset) (bytes.drop offset)
  rw [List.take_append_drop, Nat.zero_add] at hlast
  rw [hlast]
  split
  next hcount => rw [hcount, List.take_zero, bytesOfLines_nil]
  · rfl

theorem getLastD_lineStarts_take_le (offset : Nat) (bytes : List UInt8) :
    (lineStarts 0 (bytes.take offset)).getLastD 0 ≤ offset := by
  have hmem : (lineStarts 0 (bytes.take offset)).getLastD 0 ∈ 0 :: lineStarts 0 (bytes.take offset) :=
    List.getLastD_mem_cons
  rcases List.mem_cons.mp hmem with h | h
  · omega
  · have hle := (mem_lineStarts h).2
    rw [List.length_take] at hle
    omega

/-! ## Positions -/

/-- The answer of a search for a byte among increasing starts, as the line that it stands for: the byte is a start
itself, or it would have to be inserted behind the start of its line. -/
inductive SearchHit (starts : List Nat) (offset : Nat) : Nat → Prop
  | found {i : Nat} (h : starts[i]? = some offset) : SearchHit starts offset i
  | missing {i : Nat} (hle : i ≤ starts.length) (hbelow : ∀ start ∈ starts.take i, start < offset)
    (habove : ∀ start ∈ starts.drop i, offset < start) : SearchHit starts offset (i - 1)

namespace LineIndex

theorem position_ofSource (source : String) (offset : Nat) :
    (ofSource source).position offset =
      (1 + (source.toUTF8.toList.take offset).count lineFeed,
        offset - (lineStarts 0 (source.toUTF8.toList.take offset)).getLastD 0) := by
  rw [position, starts_ofSource, takeWhile_lineStarts, List.length_cons, length_lineStarts, List.getLastD_cons,
    Nat.add_comm]

/-- A start up to which the starts are not behind a byte, and from which on they are, begins its line. -/
theorem position_of_take {index : LineIndex} (hi : i < index.starts.length)
    (hle : ∀ start ∈ index.starts.take (i + 1), start ≤ offset)
    (hlt : ∀ start ∈ index.starts.drop (i + 1), offset < start) :
    index.position offset = (i + 1, offset - index.starts.getD i 0) := by
  have hbefore := takeWhile_le_append hle hlt
  rw [List.take_append_drop, ← List.take_append_getElem hi] at hbefore
  rw [position, hbefore, List.length_append, List.length_take_of_le hi.le, List.getLastD_concat,
    List.getD_eq_getElem?_getD, List.getElem?_eq_getElem hi]
  rfl

/-- **Both answers of a search among the starts of the lines lead to the position.** -/
theorem position_of_searchHit (h : SearchHit (ofSource source).starts offset i) :
    (ofSource source).position offset = (i + 1, offset - (ofSource source).starts.getD i 0) := by
  have hsorted : (ofSource source).starts.Pairwise (· < ·) := by
    rw [starts_ofSource]
    exact List.pairwise_cons.mpr ⟨fun _ h => (mem_lineStarts h).1, pairwise_lineStarts 0 _⟩
  cases h with
  | found h =>
    obtain ⟨hi, hget⟩ := List.getElem?_eq_some_iff.mp h
    have hsplit := List.take_append_drop i (ofSource source).starts
    rw [List.drop_eq_getElem_cons hi, hget] at hsplit
    rw [← hsplit, List.pairwise_append, List.pairwise_cons] at hsorted
    refine position_of_take hi (fun start hstart => ?_) hsorted.2.1.1
    rw [← List.take_append_getElem hi, hget] at hstart
    rcases List.mem_append.mp hstart with hstart | hstart
    · exact (hsorted.2.2 start hstart offset List.mem_cons_self).le
    · exact (List.mem_singleton.mp hstart).le
  | @missing n hle hbelow habove =>
    -- no byte is in front of the first line, so there is a start to go back to
    cases n with
    | zero =>
      have hfirst : 0 ∈ (ofSource source).starts.drop 0 := by
        rw [starts_ofSource]
        exact List.mem_cons_self
      exact absurd (habove 0 hfirst) (Nat.not_lt_zero _)
    | succ i => exact position_of_take hle (fun start hstart => (hbelow start hstart).le) habove

/-- What an index of a text says of byte offsets, beyond the end of the text too. -/
structure Locates (index : LineIndex) (source : String) : Prop where
  /-- The line is one more than the line feeds in front of the byte. -/
  line : ∀ offset, (index.position offset).1 = 1 + (source.toUTF8.toList.take offset).count lineFeed
  /-- The bytes of all lines before, line feeds included, and the column make the offset. -/
  column : ∀ offset,
    bytesOfLines ((source.toUTF8.toList.splitOn lineFeed).take ((index.position offset).1 - 1)) +
      (index.position offset).2 = offset
  injective : Function.Injective index.position
  strictMono : StrictMono fun offset => toLex (index.position offset)
  lineCount : index.lineCount = 1 + source.toUTF8.toList.count lineFeed
  search : ∀ offset i, SearchHit index.starts offset i →
    index.position offset = (i + 1, offset - index.starts.getD i 0)

/-- **The index of a text maps bytes to lines and columns in order, and the offset can be told from the position.** -/
theorem locates_ofSource (source : String) : (ofSource source).Locates source := by
  have hline : ∀ offset, ((ofSource source).position offset).1 =
      1 + (source.toUTF8.toList.take offset).count lineFeed := fun offset => by rw [position_ofSource]
  have hcolumn : ∀ offset,
      bytesOfLines ((source.toUTF8.toList.splitOn lineFeed).take (((ofSource source).position offset).1 - 1)) +
        ((ofSource source).position offset).2 = offset := fun offset => by
    rw [position_ofSource, Nat.add_sub_cancel_left, ← getLastD_lineStarts_take]
    exact Nat.add_sub_of_le (getLastD_lineStarts_take_le offset _)
  have hmono : StrictMono fun offset => toLex ((ofSource source).position offset) := by
    intro offset offset' hlt
    rw [Prod.Lex.toLex_lt_toLex]
    have hle : ((ofSource source).position offset).1 ≤ ((ofSource source).position offset').1 := by
      rw [hline, hline]
      exact Nat.add_le_add_left ((List.take_sublist_take_left hlt.le).count_le _) 1
    rcases hle.lt_or_eq with h | h
    · exact Or.inl h
    · -- on one line the lines before are the same, so the columns differ as the offsets do
      have hbefore := hcolumn offset
      have hbefore' := hcolumn offset'
      rw [← h] at hbefore'
      exact Or.inr ⟨h, by omega⟩
  exact
    { line := hline
      column := hcolumn
      injective := fun offset offset' h => hmono.injective (congrArg toLex h)
      strictMono := hmono
      lineCount := by rw [lineCount, starts_ofSource, List.length_cons, length_lineStarts, Nat.add_comm]
      search := fun _ _ => position_of_searchHit }

/-- A character of two bytes and an empty line: the byte of the line feed still belongs to the line that it ends. -/
example : [0, 2, 3, 4, 5, 9].map (ofSource "ä:\n\nx").position =
    [(1, 0), (1, 2), (1, 3), (2, 0), (3, 0), (3, 4)] := by
  decide

end LineIndex

end NativeClass.Python
