import ProtoSchema.Proofs.Rows

/-!
The segments of a text, character by character.

Every character of a text stands in a gap or in a word, and the scan decides on each of them when it
reads it. What it decides on a space follows from the text in front of the space alone: from the
character directly in front of it, and from the literals that are open there.
-/

namespace ProtoSchema.Layout

/-- For each character of the segment, whether it stands in the word. -/
def Segment.marks (s : Segment) : List Bool :=
  List.replicate s.gap.length false ++ List.replicate s.word.length true

/-- The character at a place of the text that the segments were cut from stands in a word. -/
def InWord (ss : List Segment) (place : Nat) : Prop :=
  (ss.flatMap Segment.marks)[place]? = some true

instance (ss : List Segment) (place : Nat) : Decidable (InWord ss place) :=
  inferInstanceAs (Decidable (_ = _))

namespace Scan

variable {q : Bool} {s : Scan}

/-- The character goes to a word: it is no space, or it is a space that does not separate. -/
def keeps (q : Bool) (s : Scan) (c : Char) : Bool :=
  c ≠ ' ' || q && s.word.head? == some ':' || s.quoted

/-- The marks of what is read so far. -/
def marks (s : Scan) : List Bool := s.segments.flatMap Segment.marks

/-! ### What the scan decides -/

lemma marks_space (s : Scan) : s.space.marks = s.marks ++ [false] := by
  by_cases hw : s.word = []
  · simp [space, hw, marks, segments, current, Segment.marks, List.replicate_succ']
  · simp [space, hw, marks, segments, current, Segment.marks]

lemma marks_longer {t : Scan} (hd : t.done = s.done) (hg : t.gap = s.gap) {c : Char}
    (hw : t.word = c :: s.word) : t.marks = s.marks ++ [true] := by
  simp [marks, segments, current, Segment.marks, hd, hg, hw, List.replicate_succ']

lemma marks_step (q : Bool) (s : Scan) (c : Char) :
    (s.step q c).marks = s.marks ++ [s.keeps q c] := by
  unfold step
  split
  · next h =>
    have hk : s.keeps q c = true := by simp_all [keeps]
    rw [hk]
    exact marks_longer rfl rfl rfl
  · next hn =>
    split
    · next h =>
      have hk : s.keeps q c = false := by simp_all [keeps]
      rw [hk]
      exact marks_space s
    · have hk : s.keeps q c = true := by by_cases hc : c = ' ' <;> simp_all [keeps]
      rw [hk]
      exact marks_longer (done_take q s c) (gap_take q s c) (word_take q s c)

/-- What is decided stays as it is. -/
lemma marks_run (q : Bool) (s : Scan) (text : List Char) : s.marks <+: (s.run q text).marks := by
  induction text generalizing s with
  | nil => exact List.prefix_rfl
  | cons c cs ih =>
    have hs : s.marks <+: (s.step q c).marks := marks_step q s c ▸ List.prefix_append _ _
    exact hs.trans (ih _)

lemma length_marks (s : Scan) : s.marks.length = s.consumed.length := by
  simp [marks, consumed, List.length_flatMap, Segment.marks, Segment.text]

lemma length_marks_run (q : Bool) (text : List Char) :
    (run q {} text).marks.length = text.length := by
  rw [length_marks, consumed_run]
  rfl

/-! ### What the text in front says -/

/-- The word being read ends in a colon if the text does. -/
lemma head?_word_eq_colon (q : Bool) (text : List Char) :
    (run q {} text).word.head? = some ':' ↔ text.getLast? = some ':' := by
  constructor
  · intro h
    have hw : (run q {} text).word ≠ [] := fun hn => by simp [hn] at h
    rwa [head?_word_run hw] at h
  · intro h
    obtain ⟨front, rfl⟩ := List.getLast?_eq_some_iff.1 h
    have hs : (run q {} front).step q ':' = (run q {} front).take q ':' := by simp [step]
    rw [run_append, run_cons, run_nil, hs, word_take]
    rfl

/-- What is escaped is quoted, so the scan is inside of a literal where it is quoted. -/
lemma quoted_run_iff (text : List Char) : (run true {} text).quoted = true ↔ InLiteral text := by
  have hs := (run_sane sane_start text).1
  rw [← not_iff_not, ← outside_iff, Outside]
  constructor
  · intro h
    refine ⟨by simpa using h, ?_⟩
    by_contra he
    exact h (hs.escaped (by simpa using he)).1
  · intro h
    simp [h.1]

lemma keeps_space_iff (q : Bool) (text : List Char) : (run q {} text).keeps q ' ' = true ↔
    q = true ∧ (text.getLast? = some ':' ∨ InLiteral text) := by
  have hc := head?_word_eq_colon q text
  cases q with
  | false =>
    have hq : (run false {} text).quoted = false := (outside_run_plain text).1
    simp [keeps, hq]
  | true => simp [keeps, hc, quoted_run_iff]

/-- Every word that is read to its end has a character. -/
lemma word_ne_nil_of_mem_done (q : Bool) (text : List Char) :
    ∀ t ∈ (run q {} text).done, t.word ≠ [] := by
  refine run_preserves (P := fun s => ∀ t ∈ s.done, t.word ≠ []) (fun s h c _ => ?_) (by simp)
  unfold step
  split
  · exact h
  · split
    · unfold space
      split
      · exact h
      · next hw => exact List.forall_mem_cons.2 ⟨by simpa [current] using hw, h⟩
    · rw [done_take]
      exact h

end Scan

/-! ### Segments -/

lemma word_ne_nil_of_mem_dropLast (q : Bool) (text : List Char) :
    ∀ s ∈ (segments q text).dropLast, s.word ≠ [] := by
  intro s hs
  rw [segments, Scan.segments, List.reverse_cons, List.dropLast_concat] at hs
  exact Scan.word_ne_nil_of_mem_done q text s (List.mem_reverse.1 hs)

/-- A character stands in a word if the scan of the text in front of it says so. -/
lemma inWord_iff_keeps (q : Bool) (front : List Char) (c : Char) (back : List Char) :
    InWord (segments q (front ++ c :: back)) front.length ↔
    (Scan.run q {} front).keeps q c = true := by
  have hm : (Scan.run q {} front).marks ++ [(Scan.run q {} front).keeps q c] <+:
      (Scan.run q {} (front ++ c :: back)).marks := by
    rw [Scan.run_append, Scan.run_cons, ← Scan.marks_step]
    exact Scan.marks_run q _ back
  obtain ⟨rest, hr⟩ := hm
  have hl := Scan.length_marks_run q front
  change (Scan.run q {} (front ++ c :: back)).marks[front.length]? = some true ↔ _
  rw [← hr, ← hl]
  simp

/-- **Segments**: nothing of a text is lost when it is cut. Gaps are made of spaces, only the first
may be empty, and only the last word may be. A space stands in a word if and only if quotes count
and it is directly behind a colon, or inside of a literal. -/
theorem segments_faithful (q : Bool) (text : List Char) :
    (segments q text).flatMap Segment.text = text ∧
      (∀ s ∈ segments q text, ∀ c ∈ s.gap, c = ' ') ∧
      (∀ s ∈ (segments q text).tail, s.gap ≠ []) ∧
      (∀ s ∈ (segments q text).dropLast, s.word ≠ []) ∧
      ∀ front back, text = front ++ ' ' :: back →
        (InWord (segments q text) front.length ↔
          q = true ∧ (front.getLast? = some ':' ∨ InLiteral front)) := by
  refine ⟨flatMap_text_segments q text, fun s => gap_of_mem_segments, parted_segments q text,
    word_ne_nil_of_mem_dropLast q text, ?_⟩
  rintro front back rfl
  rw [inWord_iff_keeps, Scan.keeps_space_iff]

/-- Spaces behind a colon, in an open literal with an escaped quote, and behind a word. -/
example : (List.range 15).filter
    (fun place => InWord (segments true "a:  \"b \\\" c\" d ".toList) place) =
    [0, 1, 2, 4, 5, 6, 7, 8, 9, 10, 11, 13] := by decide

end ProtoSchema.Layout
