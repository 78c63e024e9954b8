import Mathlib.Data.List.Chain
import ProtoSchema.Proofs.Quoting
import ProtoSchema.Proofs.Shift

/-!
Broken lines and the spaces at their ends.

A break replaces the spaces in front of a word, so only a word that ends in a space itself could
leave one at the end of a line. The scan reads such words where a colon stands in front of a space,
and inside of quotes; behind each of them the next word follows without a gap, or the text ends.
-/

namespace ProtoSchema.Layout

open Writer

/-- A chain whose condition holds of no element. -/
lemma isChain_of_not {α : Type} {p : α → Prop} {q : α → α → Prop} {l : List α}
    (h : ∀ a ∈ l, ¬ p a) :
    l.IsChain fun a b => p a → q a b := by
  induction l with
  | nil => exact .nil
  | cons a l ih =>
    obtain ⟨ha, hl⟩ := List.forall_mem_cons.1 h
    exact (ih hl).cons fun _ _ hp => absurd hp ha

/-! ### Where a text starts and ends -/

/-- The text starts, and not with a space. -/
def Opens (text : List Char) : Prop := text ≠ [] ∧ text.head? ≠ some ' '

/-- The text ends, and not in a space. -/
def Closes (text : List Char) : Prop := text ≠ [] ∧ text.getLast? ≠ some ' '

instance : DecidablePred Opens := fun text =>
  inferInstanceAs (Decidable (text ≠ [] ∧ text.head? ≠ some ' '))

instance : DecidablePred Closes := fun text =>
  inferInstanceAs (Decidable (text ≠ [] ∧ text.getLast? ≠ some ' '))

lemma Opens.append {a : List Char} (h : Opens a) (b : List Char) : Opens (a ++ b) := by
  obtain ⟨hn, hs⟩ := h
  exact ⟨by simp [hn], by rwa [List.head?_append_of_ne_nil _ hn]⟩

lemma Closes.behind {b : List Char} (h : Closes b) (a : List Char) : Closes (a ++ b) := by
  obtain ⟨hn, hs⟩ := h
  exact ⟨by simp [hn], by rwa [List.getLast?_append_of_ne_nil _ hn]⟩

/-! ### Lines that are ended -/

/-- No line but the last is empty or ends in a space. -/
def Settled (text : List Char) : Prop := ∀ l ∈ (lines text).dropLast, Closes l

lemma settled_of_no_newline {text : List Char} (h : '\n' ∉ text) : Settled text := by
  rw [Settled, lines_of_no_newline h]
  exact fun _ hl => absurd hl List.not_mem_nil

lemma getLast?_last_line {text l : List Char} {ls : List (List Char)} (h : lines text = ls ++ [l])
    (hl : l ≠ []) : text.getLast? = l.getLast? := by
  obtain rfl | ⟨front, c, rfl⟩ := text.eq_nil_or_concat'
  · have hn : lines [] = ([] : List (List Char)) ++ [[]] := rfl
    obtain ⟨-, he⟩ := List.append_inj' (hn.symm.trans h) rfl
    exact absurd (List.cons.inj he).1.symm hl
  · obtain ⟨ks, k, hk, hn⟩ := exists_last_line front
    rw [lines_append hk] at h
    by_cases hc : c = '\n'
    · subst hc
      have he : lines (k ++ ['\n']) = [k] ++ [[]] := by
        rw [lines_append_newline, lines_of_no_newline hn]
        rfl
      rw [he, ← List.append_assoc] at h
      obtain ⟨-, he⟩ := List.append_inj' h rfl
      exact absurd (List.cons.inj he).1.symm hl
    · have hkc : '\n' ∉ k ++ [c] := by simp [hn, Ne.symm hc]
      rw [lines_of_no_newline hkc] at h
      obtain ⟨-, he⟩ := List.append_inj' h rfl
      obtain rfl : k ++ [c] = l := (List.cons.inj he).1
      simp

namespace Settled

variable {text b : List Char}

lemma append (h : Settled text) (hb : '\n' ∉ b) : Settled (text ++ b) := by
  obtain ⟨ls, l, hl, hn⟩ := exists_last_line text
  have hlb : '\n' ∉ l ++ b := by simp [hn, hb]
  rw [Settled, hl, List.dropLast_concat] at h
  rw [Settled, lines_append hl, lines_of_no_newline hlb, List.dropLast_concat]
  exact h

lemma lines (h : Settled text) (hs : Started text) (he : text.getLast? ≠ some ' ') :
    ∀ l ∈ lines text, Closes l := by
  obtain ⟨ls, l, hl, hn⟩ := hs
  rw [Settled, hl, List.dropLast_concat] at h
  rw [hl]
  refine List.forall_mem_append.2 ⟨h, List.forall_mem_singleton.2 ⟨hn, ?_⟩⟩
  rwa [← getLast?_last_line hl hn]

lemma newline (h : Settled text) (hs : Started text) (he : text.getLast? ≠ some ' ')
    (hb : '\n' ∉ b) :
    Settled (text ++ '\n' :: b) := by
  rw [Settled, lines_append_newline, lines_of_no_newline hb, List.dropLast_concat]
  exact h.lines hs he

end Settled

/-! ### Words that end in a space -/

/-- Behind a word that ends in a space, a word follows without a gap. -/
def Segment.Meets (a b : Segment) : Prop :=
  a.word.getLast? = some ' ' → b.gap = [] ∧ b.word ≠ []

namespace Cursor

/-- The cursor stands behind a text, in front of some segments. If the text ends in a space, the
line is not broken here: either there is only the margin on it, or there is no gap. -/
structure Steady (continuation : Margin) (text : List Char) (c : Cursor) (ss : List Segment) :
    Prop where
  settled : Settled text
  column : c.column = columnAfter 0 text
  spaces : ∀ a ∈ c.held, a = ' '
  plain : ∀ s ∈ ss, s.Plain
  chain : ss.IsChain Segment.Meets
  unbroken : text.getLast? = some ' ' →
    c.column ≤ continuation.length ∨
      c.held = [] ∧ ∀ s ∈ ss.head?, s.gap = [] ∧ s.word ≠ []

namespace Steady

variable {continuation : Margin} {text : List Char} {c : Cursor} {s : Segment} {ss : List Segment}

/-- Behind a word. -/
lemma word (h : Steady continuation text c (s :: ss)) {front : List Char} (hw : s.word ≠ [])
    (hs : Settled (text ++ (front ++ s.word))) :
    Steady continuation (text ++ (front ++ s.word))
      (Cursor.append { c with held := [] } (front ++ s.word)).2 ss := by
  obtain ⟨hf, hc⟩ := List.isChain_cons.1 h.chain
  refine ⟨hs, ?_, by simp [Cursor.append], (List.forall_mem_cons.1 h.plain).2, hc, fun hl => ?_⟩
  · rw [column_append, columnAfter_append, ← h.column]
    rfl
  · rw [← List.append_assoc, List.getLast?_append_of_ne_nil _ hw] at hl
    exact .inr ⟨rfl, fun t ht => hf t ht hl⟩

lemma place (h : Steady continuation text c (s :: ss)) (width : Nat)
    (hn : '\n' ∉ continuation.text) :
    Steady continuation (text ++ (place width continuation c s).1) (place width continuation c s).2
      ss := by
  obtain ⟨⟨hg, hw⟩, hps⟩ := List.forall_mem_cons.1 h.plain
  have hb : ∀ a ∈ c.gapBefore s, a = ' ' := List.forall_mem_append.2 ⟨h.spaces, hg⟩
  unfold Cursor.place
  by_cases he : s.word = []
  · rw [if_pos (by simpa using he), List.append_nil]
    refine ⟨h.settled, h.column, hb, hps, h.chain.tail, fun hl => .inl ?_⟩
    exact (h.unbroken hl).resolve_right fun hr => (hr.2 s rfl).2 he
  · rw [if_neg (by simpa using he)]
    by_cases hk : (c.fits width s || !c.canBreak continuation s) = true
    · have hgw : '\n' ∉ c.gapBefore s ++ s.word := by simp [newline_not_mem_of_spaces hb, hw]
      rw [if_pos hk]
      exact h.word he (h.settled.append hgw)
    · obtain ⟨-, hk'⟩ : c.fits width s = false ∧ c.canBreak continuation s = true := by
        simpa using hk
      obtain ⟨hgap, hlt⟩ : c.gapBefore s ≠ [] ∧ continuation.length < c.column := by
        simpa [canBreak] using hk'
      have hs : Started text := started_of_column (h.column ▸ by omega)
      have hl : text.getLast? ≠ some ' ' := by
        intro hl
        rcases h.unbroken hl with hc | ⟨hh, hr⟩
        · omega
        · exact hgap (by simp [gapBefore, hh, (hr s rfl).1])
      have hnw : '\n' ∉ continuation.text ++ s.word := by simp [hn, hw]
      rw [if_neg hk]
      exact h.word he (h.settled.newline hs hl hnw)

/-- **Breaks leave no spaces**: segments are written steadily. -/
theorem placeAll (h : Steady continuation text c ss) (width : Nat) (hn : '\n' ∉ continuation.text) :
    Steady continuation (text ++ (placeAll width continuation c ss).1)
      (placeAll width continuation c ss).2 [] := by
  induction ss generalizing text c with
  | nil =>
    change Steady continuation (text ++ []) c []
    rwa [List.append_nil]
  | cons s ss ih =>
    have hi := ih (h.place width hn)
    rw [List.append_assoc] at hi
    rw [Cursor.placeAll, writeAll_cons]
    exact hi

end Steady

/-- What is written, with the spaces held back, ends as the segments do. -/
lemma getLast?_placeAll (width : Nat) (continuation : Margin) (c : Cursor) (ss : List Segment) :
    ((placeAll width continuation c ss).1 ++ (placeAll width continuation c ss).2.held).getLast? =
      (c.held ++ ss.flatMap Segment.text).getLast? := by
  induction ss generalizing c with
  | nil => simp [placeAll]
  | cons s ss ih =>
    have hi := ih (place width continuation c s).2
    rw [held_place] at hi
    rw [placeAll, writeAll_cons, List.append_assoc, List.flatMap_cons, Segment.text]
    by_cases hw : s.word = []
    · have ht : (place width continuation c s).1 = [] := by simp [place, hw]
      rw [ht, List.nil_append]
      simpa [placeAll, hw, gapBefore] using hi
    · obtain ⟨a, ha⟩ : ∃ a, s.word.getLast? = some a :=
        ⟨_, List.getLast?_eq_some_getLast hw⟩
      have ht : (place width continuation c s).1.getLast? = some a := by
        simp only [place, List.isEmpty_iff, hw, if_false]
        split <;> simp only [append, List.nil_append, List.getLast?_append, ha, Option.some_or]
      rw [if_neg (by simpa using hw), List.nil_append, placeAll] at hi
      simp only [List.getLast?_append, hi, ht, ha, Option.or_assoc, Option.some_or]

end Cursor

/-! ### The lines that a line takes -/

namespace Writer

variable {style : Style} (level : Nat) (comment : Bool)

/-- A line starts where no break would make it shorter. -/
lemma column_opened_le (hu : '\n' ∉ style.unit) :
    (opened style level comment).cursor.column ≤
    (opened style level comment).continuation.length := by
  have hc : (opened style level comment).cursor.column =
      (fresh style level comment).margin.length := by
    rw [← Margin.length_text, ← Nat.zero_add (Margin.text _).length]
    exact columnAfter_of_no_newline (newline_not_mem_margin level comment hu) 0
  rw [hc]
  cases comment
  · exact Nat.add_le_add_right (Nat.mul_le_mul_right _ (Nat.le_add_right level _)) _
  · exact Nat.le_refl _

lemma steady_opened (hu : '\n' ∉ style.unit) {ss : List Segment} (hs : ∀ s ∈ ss, s.Plain)
    (hm : ss.IsChain Segment.Meets) :
    Cursor.Steady (opened style level comment).continuation (fresh style level comment).margin.text
      (opened style level comment).cursor ss :=
  ⟨settled_of_no_newline (newline_not_mem_margin level comment hu), rfl,
    fun _ ha => absurd ha List.not_mem_nil, hs, hm, fun _ =>
      .inl (column_opened_le level comment hu)⟩

variable {runs : List (List Char)}

/-- Every line of a text that is broken closes, the last one if the text does. -/
lemma closes_lineText (hu : '\n' ∉ style.unit) (hn : '\n' ∉ runs.flatten) (ht : Closes runs.flatten)
    (hm : (runs.flatMap (segments (!comment))).IsChain Segment.Meets) :
    ∃ body, lineText style level comment runs = body ++ ['\n'] ∧
      ∀ r ∈ lines body, Closes r := by
  have hs := (steady_opened level comment hu (plain_of_mem_runs hn comment) hm).placeAll
    style.lineWidth (newline_not_mem_continuation level comment hu)
  have hr : 0 < (started style level comment runs).2.cursor.reach :=
    reach_started level comment hn ht.1
  have hl := Cursor.getLast?_placeAll style.lineWidth (opened style level comment).continuation
    (opened style level comment).cursor (runs.flatMap (segments (!comment)))
  refine ⟨_, lineText_of_text ht.1 style level comment, ?_⟩
  rw [started_of_text ht.1] at hr ⊢
  have hh := newline_not_mem_of_spaces hs.spaces
  refine (hs.settled.append hh).lines (started_of_column ?_) ?_
  · rw [columnAfter_append, columnAfter_of_no_newline hh, ← hs.column]
    exact hr
  · have he : (opened style level comment).cursor.held = [] := rfl
    rw [he, flatMap_text_runs, List.nil_append] at hl
    obtain ⟨a, ha⟩ : ∃ a, runs.flatten.getLast? = some a :=
      ⟨_, List.getLast?_eq_some_getLast ht.1⟩
    rw [List.append_assoc, List.getLast?_append, hl, ha, Option.some_or, ← ha]
    exact ht.2

end Writer

namespace Line

variable {style : Style} {level : Nat} {l : Line}

/-- The lines that a line is written on, one if it is not broken. -/
def rows (style : Style) (level : Nat) (l : Line) : List (List Char) :=
  (lines (l.write style level)).dropLast

lemma rows_eq {body : List Char} (h : l.write style level = body ++ ['\n']) :
    l.rows style level = lines body := by
  rw [rows, h, lines_append_newline]
  exact List.dropLast_concat

lemma exists_body (l : Line) (style : Style) (level : Nat) :
    ∃ body, l.write style level = body ++ ['\n'] := by
  by_cases he : l.runs.flatten = []
  · exact ⟨_, lineText_of_empty he ..⟩
  · exact ⟨_, lineText_of_text he ..⟩

lemma lines_write (l : Line) (style : Style) (level : Nat) :
    lines (l.write style level) = l.rows style level ++ [[]] := by
  obtain ⟨body, hb⟩ := l.exists_body style level
  rw [rows_eq hb, hb, lines_append_newline]
  rfl

lemma rows_ne_nil (l : Line) (style : Style) (level : Nat) : l.rows style level ≠ [] := by
  obtain ⟨body, hb⟩ := l.exists_body style level
  rw [rows_eq hb]
  exact lines_ne_nil body

/-- Lines one below the other take the lines of each of them. -/
theorem lines_flatMap_write (ls : List Line) (style : Style) (level : Nat) :
    lines (ls.flatMap (write style level)) = ls.flatMap (rows style level) ++ [[]] := by
  induction ls with
  | nil => rfl
  | cons l ls ih =>
    rw [List.flatMap_cons, lines_append (l.lines_write style level), List.nil_append, ih,
      List.flatMap_cons, List.append_assoc]

/-- A line that says nothing is an empty line, without its indentation. -/
lemma rows_of_blank (h : l.content = []) : l.rows style level = [[]] := by
  have hc : l.comment = false := by
    cases hc : l.comment with
    | false => rfl
    | true =>
      rw [content, if_pos hc] at h
      split at h <;> simp at h
  have he : l.runs.flatten = [] := by simpa [content, hc] using h
  have hw : l.write style level = [] ++ ['\n'] := by
    rw [write, lineText_of_empty he, hc]
    rfl
  rw [rows_eq hw]
  rfl

/-- However a line that says something is broken, no line that it takes is empty or ends
in a space. -/
def Trimmed (l : Line) : Prop :=
  ∀ style level, '\n' ∉ style.unit → l.content ≠ [] → ∀ r ∈ l.rows style level, Closes r

theorem trimmed (hn : '\n' ∉ l.runs.flatten)
    (hm : (l.runs.flatMap (segments (!l.comment))).IsChain Segment.Meets)
    (he : l.runs.flatten.getLast? ≠ some ' ') : l.Trimmed := by
  intro style level hu hc
  by_cases ht : l.runs.flatten = []
  · have hcm : l.comment = true := by
      cases h : l.comment with
      | false => simp [content, h, ht] at hc
      | true => rfl
    have hw : l.write style level =
        (copies (level + l.depth * style.indentSize) style.unit ++ ['/', '/']) ++ ['\n'] := by
      rw [write, lineText_of_empty ht, hcm]
      rfl
    have hd : '\n' ∉ copies (level + l.depth * style.indentSize) style.unit ++ ['/', '/'] := by
      simp [newline_not_mem_copies hu]
    rw [rows_eq hw, lines_of_no_newline hd]
    exact List.forall_mem_singleton.2 (Closes.behind (by decide) _)
  · obtain ⟨body, hw, hb⟩ := closes_lineText (level + l.depth * style.indentSize) l.comment hu hn
      ⟨ht, he⟩ hm
    rwa [rows_eq hw]

end Line

/-! ### Words as the scan reads them -/

/-- No space of the text is behind another. -/
def Single (text : List Char) : Prop := text.IsChain fun a b => a = ' ' → b ≠ ' '

instance : DecidablePred Single := fun text =>
  inferInstanceAs (Decidable (text.IsChain fun a b => a = ' ' → b ≠ ' '))

namespace Scan

variable {s : Scan}

/-- No word that is read to its end ends in a space. -/
def Fair (s : Scan) : Prop := ∀ g ∈ s.done, g.word.getLast? ≠ some ' '

lemma fair_step (h : s.Fair) {c : Char} (hc : s.word.head? = some ' ' → c ≠ ' ') (q : Bool) :
    (s.step q c).Fair := by
  unfold step
  split
  · exact h
  · split
    · next hs =>
      have hw : s.word.head? ≠ some ' ' := fun hw => hc hw (by simp_all)
      unfold space
      split
      · exact h
      · refine List.forall_mem_cons.2 ⟨?_, h⟩
        rwa [current, List.getLast?_reverse]
    · intro g hg
      rw [done_take] at hg
      exact h g hg

/-- A word ends in a space only right behind it. -/
lemma eq_space_of_head_step {q : Bool} {c : Char} (h : (s.step q c).word.head? = some ' ') :
    c = ' ' := by
  unfold step at h
  split at h
  · next hc => simp_all
  · split at h
    · next hc => simp_all
    · rw [word_take] at h
      exact Option.some.inj h

lemma fair_run (h : s.Fair) {text : List Char} (ht : Single text)
    (hs : s.word.head? = some ' ' → text.head? ≠ some ' ') (q : Bool) :
    (s.run q text).Fair := by
  induction text generalizing s with
  | nil => exact h
  | cons c cs ih =>
    obtain ⟨hc, hcs⟩ := List.isChain_cons.1 ht
    refine ih (fair_step h (fun hw hn => hs hw (congrArg some hn)) q) hcs fun hw hn => ?_
    exact hc ' ' hn (eq_space_of_head_step hw) rfl

/-- The first segment is a word that starts the text. -/
def Begun (s : Scan) : Prop :=
  ∀ g ∈ (s.current :: s.done).getLast?, g.gap = [] ∧ g.word ≠ []

lemma begun_step (h : s.Begun) (q : Bool) (c : Char) : (s.step q c).Begun := by
  have hw : ∀ t : Scan, t.done = s.done → t.gap = s.gap → t.word = c :: s.word →
      t.Begun := by
    intro t hd hg hw
    cases hs : s.done with
    | nil => simp_all [Begun, current]
    | cons d ds => simpa [Begun, hd, hs] using h
  unfold step
  split
  · exact hw _ rfl rfl rfl
  · split
    · unfold space
      split
      · next he =>
        cases hs : s.done with
        | nil => simp_all [Begun, current]
        | cons d ds => simpa [Begun, hs] using h
      · simpa [Begun] using h
    · exact hw _ (done_take q s c) (gap_take q s c) (word_take q s c)

lemma begun_run (h : s.Begun) (q : Bool) (text : List Char) : (s.run q text).Begun :=
  run_preserves (P := Begun) (fun _ h c _ => begun_step h q c) h

/-- Where quotes do not count, no word has a space in it. -/
def Clear (s : Scan) : Prop := s.quoted = false ∧ ∀ g ∈ s.current :: s.done, ' ' ∉ g.word

lemma clear_step (h : s.Clear) (c : Char) : (s.step false c).Clear := by
  obtain ⟨hq, hw⟩ := h
  obtain ⟨hc, hd⟩ := List.forall_mem_cons.1 hw
  by_cases hs : c = ' '
  · have ht : s.step false c = s.space := by simp [step, hs, hq]
    rw [ht]
    unfold space
    split
    · exact ⟨hq, List.forall_mem_cons.2 ⟨hc, hd⟩⟩
    · exact ⟨hq, List.forall_mem_cons.2 ⟨by simp [current], hw⟩⟩
  · have ht : s.step false c = { s with word := c :: s.word } := by simp [step, take, hs]
    rw [ht]
    refine ⟨hq, List.forall_mem_cons.2 ⟨?_, hd⟩⟩
    simpa [current, Ne.symm hs] using hc

lemma clear_run (h : s.Clear) (text : List Char) : (s.run false text).Clear :=
  run_preserves (P := Clear) (fun _ h c _ => clear_step h c) h

end Scan

/-! ### Segments of runs -/

lemma isChain_segments_comment (runs : List (List Char)) :
    (runs.flatMap (segments false)).IsChain Segment.Meets := by
  refine isChain_of_not fun g hg hl => ?_
  obtain ⟨r, -, hg⟩ := List.mem_flatMap.1 hg
  have hc : (Scan.run false {} r).Clear := Scan.clear_run (by simp [Scan.Clear, Scan.current]) r
  exact hc.2 g (List.mem_reverse.1 hg) (List.mem_of_getLast? hl)

lemma segments_eq (q : Bool) (text : List Char) :
    segments q text = (Scan.run q {} text).done.reverse ++ [(Scan.run q {} text).current] := by
  simp [segments, Scan.segments]

lemma head_segments {text : List Char} (h : Opens text) (q : Bool) :
    ∀ g ∈ (segments q text).head?, g.gap = [] ∧ g.word ≠ [] := by
  obtain ⟨c, cs, rfl⟩ := List.exists_cons_of_ne_nil h.1
  have hc : c ≠ ' ' := fun hc => h.2 (congrArg some hc)
  have hb : (Scan.step q {} c).Begun := by
    have hs : Scan.step q {} c = Scan.take q {} c := by simp [Scan.step, hc]
    simp [hs, Scan.Begun, Scan.done_take, Scan.gap_take, Scan.word_take, Scan.current]
  have hr := Scan.begun_run hb q cs
  rwa [segments, Scan.segments, List.head?_reverse]

/-- A run ends in a space if its last word does. -/
lemma getLast_segments {text : List Char} (h : text.getLast? ≠ some ' ') (q : Bool) :
    ∀ g ∈ (segments q text).getLast?, g.word.getLast? ≠ some ' ' := by
  intro g hg hl
  obtain rfl : (Scan.run q {} text).current = g := by simpa [segments_eq] using hg
  rw [Scan.current, List.getLast?_reverse] at hl
  obtain rfl | ⟨front, c, rfl⟩ := text.eq_nil_or_concat'
  · simp at hl
  · rw [Scan.run_append] at hl
    exact h (by simp [Scan.eq_space_of_head_step hl])

/-- Runs behind each other: where one ends in a space, the next starts with a word. -/
theorem isChain_segments {runs : List (List Char)} (hf : ∀ r ∈ runs, (Scan.run true {} r).Fair)
    (hm : runs.IsChain fun a b => a.getLast? = some ' ' → Opens b) :
    (runs.flatMap (segments true)).IsChain Segment.Meets := by
  have hn : [] ∉ runs.map (segments true) := by simp [segments_eq]
  rw [List.flatMap_def, List.isChain_flatten hn, List.forall_mem_map]
  refine ⟨fun r hr => ?_, List.isChain_map_of_isChain _ (fun a b hab g hg k hk hl => ?_) hm⟩
  · have hd : ∀ g ∈ (Scan.run true {} r).done.reverse, g.word.getLast? ≠ some ' ' :=
      fun g hg => hf r hr g (List.mem_reverse.1 hg)
    rw [segments_eq]
    refine (isChain_of_not hd).append (.singleton _) fun g hg k _ hl => ?_
    exact absurd hl (hd g (List.mem_of_getLast? hg))
  · by_cases ha : a.getLast? = some ' '
    · exact head_segments (hab ha) true k hk
    · exact absurd hl (getLast_segments ha true g hg)

end ProtoSchema.Layout
