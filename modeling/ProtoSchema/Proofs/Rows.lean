import ProtoSchema.Proofs.Cut

/-!
The lines that a run of text adds words to.

In front of a word the line is broken if there is a gap to replace, if the word would end beyond the
width, and if the word starts further left behind the continuation. What a run makes of a line is
told by rows: what stands at their start, the gap that gave way to them, and their words.
-/

namespace ProtoSchema.Layout

/-! ### Words of a run -/

/-- The words of a run, each behind its gap, where spaces held back count, and the spaces
behind the last. -/
def gather : List Char → List Segment → List Segment × List Char
  | held, [] => ([], held)
  | held, s :: ss =>
    if s.word = [] then gather (held ++ s.gap) ss
    else (⟨held ++ s.gap, s.word⟩ :: (gather [] ss).1, (gather [] ss).2)

/-- Only the first of the segments may stand without a gap. -/
def Parted (ss : List Segment) : Prop := ∀ s ∈ ss.tail, s.gap ≠ []

lemma gap_ne_nil_of_mem_gather {held : List Char} {ss : List Segment} (hs : ∀ s ∈ ss, s.gap ≠ []) :
    ∀ s ∈ (gather held ss).1, s.gap ≠ [] := by
  induction ss generalizing held with
  | nil => simp [gather]
  | cons s ss ih =>
    obtain ⟨hg, hss⟩ := List.forall_mem_cons.1 hs
    unfold gather
    split
    · exact ih hss
    · exact List.forall_mem_cons.2 ⟨by simp [hg], ih hss⟩

lemma parted_gather (held : List Char) {ss : List Segment} (hs : Parted ss) :
    Parted (gather held ss).1 := by
  cases ss with
  | nil => simp [gather, Parted]
  | cons s ss =>
    unfold gather
    split
    · exact fun t ht => gap_ne_nil_of_mem_gather hs t (List.mem_of_mem_tail ht)
    · exact gap_ne_nil_of_mem_gather hs

namespace Scan

/-- All segments but the first have a gap. -/
def Parted (s : Scan) : Prop := ∀ t ∈ (s.current :: s.done).dropLast, t.gap ≠ []

lemma parted_step {s : Scan} (h : s.Parted) (q : Bool) (c : Char) : (s.step q c).Parted := by
  have hsame : ∀ t : Scan, t.done = s.done → (s.gap ≠ [] → t.gap ≠ []) → t.Parted := by
    intro t hd hg
    unfold Parted at h ⊢
    rw [hd]
    cases hs : s.done with
    | nil => simp
    | cons e es =>
      rw [hs, List.dropLast_cons_cons] at h
      obtain ⟨hc, hes⟩ := List.forall_mem_cons.1 h
      rw [List.dropLast_cons_cons]
      have hc' : s.gap ≠ [] := by simpa [current] using hc
      exact List.forall_mem_cons.2 ⟨by simpa [current] using hg hc', hes⟩
  unfold step
  split
  · exact hsame _ rfl id
  · split
    · unfold space
      split
      · exact hsame _ rfl fun _ => List.cons_ne_nil _ _
      · exact List.forall_mem_cons.2 ⟨by simp [current], h⟩
    · exact hsame _ (done_take q s c) fun hg => (gap_take q s c).symm ▸ hg

end Scan

lemma parted_segments (q : Bool) (text : List Char) : Parted (segments q text) := by
  have hp : (Scan.run q {} text).Parted :=
    Scan.run_preserves (P := Scan.Parted) (fun _ h c _ => Scan.parted_step h q c)
      (by simp [Scan.Parted])
  intro s hs
  rw [segments, Scan.segments, List.tail_reverse] at hs
  exact hp s (List.mem_reverse.1 hs)

/-! ### Rows -/

/-- A line of output: what stands at its start, the gap that the break in front of it replaced, and
the words that a run put on it. -/
structure Row where
  front : List Char
  dropped : List Char := []
  words : List Segment := []

namespace Row

def text (r : Row) : List Char := r.front ++ r.words.flatMap Segment.text

/-- The words as they stand in the run, where the first still has the gap that was replaced. -/
def source (r : Row) : List Segment := widen r.dropped r.words

def add (r : Row) (s : Segment) : Row := { r with words := r.words ++ [s] }

/-- The row up to one of its words. -/
def upTo (r : Row) (before : List Segment) : Row := { r with words := before }

/-- The row that a break in front of a word starts. -/
def broken (continuation : Margin) (s : Segment) : Row :=
  ⟨continuation.text, s.gap, [⟨[], s.word⟩]⟩

/-- A break in front of the word is needed, and useful. -/
def Breaks (width : Nat) (continuation : Margin) (r : Row) (s : Segment) : Prop :=
  s.gap ≠ [] ∧ width < (r.text ++ s.text).length ∧ continuation.length < r.text.length

instance (width : Nat) (continuation : Margin) (r : Row) (s : Segment) :
    Decidable (r.Breaks width continuation s) :=
  inferInstanceAs (Decidable (_ ∧ _))

/-- No word of the row stands where a break was needed and useful. -/
def Settled (width : Nat) (continuation : Margin) (r : Row) : Prop :=
  ∀ before s after, r.words = before ++ s :: after →
    ¬ (r.upTo before).Breaks width continuation s

lemma text_add (r : Row) (s : Segment) : (r.add s).text = r.text ++ s.text := by
  simp [text, add]

lemma text_broken (continuation : Margin) (s : Segment) :
    (broken continuation s).text = continuation.text ++ s.word := by
  simp [text, broken, Segment.text]

variable {width : Nat} {continuation : Margin}

lemma settled_of_no_words {r : Row} (h : r.words = []) : r.Settled width continuation := by
  intro before s after he
  simp [h] at he

lemma Settled.add {r : Row} (h : r.Settled width continuation) {s : Segment}
    (hs : ¬ r.Breaks width continuation s) : (r.add s).Settled width continuation := by
  intro before t after he
  obtain rfl | ⟨after, u, rfl⟩ := after.eq_nil_or_concat'
  · obtain ⟨rfl, ht⟩ := List.append_inj' he rfl
    obtain rfl : s = t := (List.cons.inj ht).1
    exact hs
  · have hw : r.words = before ++ t :: after := by
      rw [← List.cons_append, ← List.append_assoc] at he
      exact (List.append_inj' he rfl).1
    exact h before t after hw

/-- A row that a break starts has its first word without a gap. -/
lemma settled_broken (s : Segment) : (broken continuation s).Settled width continuation := by
  intro before t after he
  cases before with
  | nil =>
    obtain rfl : (⟨[], s.word⟩ : Segment) = t := (List.cons.inj he).1
    exact fun h => h.1 rfl
  | cons b bs => simp [broken] at he

end Row

/-- The rows of a line that goes on with some words, where no word stays that can be broken and none
is broken that can stay. -/
def spread (width : Nat) (continuation : Margin) : Row → List Segment → List Row
  | r, [] => [r]
  | r, s :: ss =>
    if r.Breaks width continuation s then r :: spread width continuation (.broken continuation s) ss
    else spread width continuation (r.add s) ss

variable {width : Nat} {continuation : Margin}

lemma spread_cons_of_breaks {r : Row} {s : Segment} (h : r.Breaks width continuation s)
    (ss : List Segment) : spread width continuation r (s :: ss) =
      r :: spread width continuation (.broken continuation s) ss :=
  if_pos h

lemma spread_cons_of_stays {r : Row} {s : Segment} (h : ¬ r.Breaks width continuation s)
    (ss : List Segment) :
    spread width continuation r (s :: ss) = spread width continuation (r.add s) ss :=
  if_neg h

/-- The first row starts as the line did, the others start with the continuation. -/
lemma spread_eq_cons (width : Nat) (continuation : Margin) (r : Row) (ss : List Segment) :
    ∃ first rest, spread width continuation r ss = first :: rest ∧
      first.front = r.front ∧ first.dropped = r.dropped ∧ r.words <+: first.words ∧
      ∀ row ∈ rest, row.front = continuation.text := by
  induction ss generalizing r with
  | nil => exact ⟨r, [], rfl, rfl, rfl, List.prefix_rfl, by simp⟩
  | cons s ss ih =>
    by_cases hb : r.Breaks width continuation s
    · obtain ⟨first, rest, he, hf, -, -, hr⟩ := ih (.broken continuation s)
      refine ⟨r, first :: rest, by rw [spread_cons_of_breaks hb, he], rfl, rfl, List.prefix_rfl, ?_⟩
      exact List.forall_mem_cons.2 ⟨hf, hr⟩
    · obtain ⟨first, rest, he, hf, hd, hw, hr⟩ := ih (r.add s)
      refine ⟨first, rest, by rw [spread_cons_of_stays hb, he], hf, hd, ?_, hr⟩
      exact (List.prefix_append r.words [s]).trans hw

/-- No word is lost, and no gap but those that breaks replaced. -/
lemma flatMap_source_spread {r : Row} (h : r.words = [] → r.dropped = []) (ss : List Segment) :
    (spread width continuation r ss).flatMap Row.source = r.source ++ ss := by
  induction ss generalizing r with
  | nil => simp [spread]
  | cons s ss ih =>
    by_cases hb : r.Breaks width continuation s
    · have hi := @ih (.broken continuation s) (fun hn => absurd hn (List.cons_ne_nil _ _))
      have hs : (Row.broken continuation s).source = [s] := by simp [Row.source, Row.broken, widen]
      rw [spread_cons_of_breaks hb, List.flatMap_cons, hi, hs, List.singleton_append]
    · have hi := @ih (r.add s) (fun hn => absurd hn (by simp [Row.add]))
      have hs : (r.add s).source = r.source ++ [s] := by
        by_cases hw : r.words = []
        · simp [Row.source, Row.add, hw, h hw, widen]
        · exact widen_append r.dropped hw [s]
      rw [spread_cons_of_stays hb, hi, hs, List.append_assoc, List.singleton_append]

lemma settled_of_mem_spread {r : Row} (h : r.Settled width continuation) (ss : List Segment) :
    ∀ row ∈ spread width continuation r ss, row.Settled width continuation := by
  induction ss generalizing r with
  | nil => exact List.forall_mem_singleton.2 h
  | cons s ss ih =>
    by_cases hb : r.Breaks width continuation s
    · rw [spread_cons_of_breaks hb]
      exact List.forall_mem_cons.2 ⟨h, ih (Row.settled_broken s)⟩
    · rw [spread_cons_of_stays hb]
      exact ih (h.add hb)

/-- The row starts with a word whose gap gave way to the break between the rows. -/
def Row.Yields (width : Nat) (continuation : Margin) (above below : Row) : Prop :=
  ∃ word more, below.words = ⟨[], word⟩ :: more ∧
    above.Breaks width continuation ⟨below.dropped, word⟩

lemma isChain_spread (r : Row) (ss : List Segment) :
    (spread width continuation r ss).IsChain (Row.Yields width continuation) := by
  induction ss generalizing r with
  | nil => exact .singleton r
  | cons s ss ih =>
    by_cases hb : r.Breaks width continuation s
    · have hi := ih (.broken continuation s)
      obtain ⟨first, rest, he, -, hd, ⟨more, hw⟩, -⟩ :=
        spread_eq_cons width continuation (.broken continuation s) ss
      rw [spread_cons_of_breaks hb, he]
      rw [he] at hi
      refine List.isChain_cons_cons.2 ⟨⟨s.word, more, hw.symm, ?_⟩, hi⟩
      rw [hd]
      exact hb
    · rw [spread_cons_of_stays hb]
      exact ih (r.add s)

/-! ### Rows are what is written -/

namespace Cursor

lemma place_of_word {c : Cursor} {s : Segment} (hw : s.word ≠ []) {r : Row}
    (hc : c.column = r.text.length) :
    place width continuation c s =
      if r.Breaks width continuation ⟨c.gapBefore s, s.word⟩ then
        append { c with held := [] } ('\n' :: continuation.text ++ s.word)
      else append { c with held := [] } (c.gapBefore s ++ s.word) := by
  have hb : (c.fits width s || !c.canBreak continuation s) = true ↔
      ¬ r.Breaks width continuation ⟨c.gapBefore s, s.word⟩ := by
    simp only [fits, canBreak, Row.Breaks, Segment.text, List.length_append, ← hc, Bool.or_eq_true,
      Bool.not_eq_true', Bool.and_eq_false_iff, Bool.not_eq_false', List.isEmpty_iff,
      decide_eq_true_eq, decide_eq_false_iff_not]
    constructor
    · rintro h ⟨hg, hl, hk⟩
      rcases h with h | h | h
      · omega
      · exact hg h
      · exact h hk
    · intro h
      by_cases hg : c.gapBefore s = []
      · exact .inr (.inl hg)
      · by_cases hk : continuation.length < c.column
        · left
          by_contra hl
          exact h ⟨hg, by omega, hk⟩
        · exact .inr (.inr hk)
  rw [place, if_neg (by simpa using hw)]
  by_cases h : r.Breaks width continuation ⟨c.gapBefore s, s.word⟩
  · rw [if_pos h, if_neg (fun ht => hb.1 ht h)]
  · rw [if_neg h, if_pos (hb.2 h)]

lemma place_of_breaks {c : Cursor} {s : Segment} (hw : s.word ≠ []) {r : Row}
    (hc : c.column = r.text.length) (h : r.Breaks width continuation ⟨c.gapBefore s, s.word⟩)
    (hn : '\n' ∉ (Row.broken continuation ⟨c.gapBefore s, s.word⟩).text) :
    place width continuation c s = ('\n' :: (Row.broken continuation ⟨c.gapBefore s, s.word⟩).text,
      ⟨(Row.broken continuation ⟨c.gapBefore s, s.word⟩).text.length, []⟩) := by
  have ht : '\n' :: continuation.text ++ s.word =
      '\n' :: (Row.broken continuation ⟨c.gapBefore s, s.word⟩).text := by
    rw [Row.text_broken]
    rfl
  rw [place_of_word hw hc, if_pos h, append, ht, List.nil_append, columnAfter_cons,
    columnAfter_newline, columnAfter_of_no_newline hn, Nat.zero_add]

lemma place_of_stays {c : Cursor} {s : Segment} (hw : s.word ≠ []) {r : Row}
    (hc : c.column = r.text.length) (h : ¬ r.Breaks width continuation ⟨c.gapBefore s, s.word⟩)
    (hn : '\n' ∉ c.gapBefore s ++ s.word) :
    place width continuation c s = (c.gapBefore s ++ s.word,
      ⟨(r.add ⟨c.gapBefore s, s.word⟩).text.length, []⟩) := by
  have hl : columnAfter c.column (c.gapBefore s ++ s.word) =
      (r.add ⟨c.gapBefore s, s.word⟩).text.length := by
    rw [columnAfter_of_no_newline hn, hc, Row.text_add, Segment.text, ← List.length_append]
  rw [place_of_word hw hc, if_neg h, append, List.nil_append, hl]

/-- A line and the run that goes on with it are the rows of the line. -/
lemma placeAll_eq_spread (width : Nat) (hk : '\n' ∉ continuation.text) {c : Cursor}
    (hh : ∀ a ∈ c.held, a = ' ') {ss : List Segment} (hs : ∀ s ∈ ss, s.Plain) {r : Row}
    (hr : '\n' ∉ r.text) (hc : c.column = r.text.length) :
    lines (r.text ++ (placeAll width continuation c ss).1) =
        (spread width continuation r (gather c.held ss).1).map Row.text ∧
      (placeAll width continuation c ss).2.held = (gather c.held ss).2 := by
  induction ss generalizing c r with
  | nil =>
    have hw : placeAll width continuation c [] = ([], c) := rfl
    rw [hw, gather, List.append_nil, lines_of_no_newline hr]
    exact ⟨rfl, rfl⟩
  | cons s ss ih =>
    obtain ⟨⟨hg, hn⟩, hss⟩ := List.forall_mem_cons.1 hs
    have hb : ∀ a ∈ c.gapBefore s, a = ' ' := List.forall_mem_append.2 ⟨hh, hg⟩
    rw [placeAll_cons, gather]
    by_cases hw : s.word = []
    · have hp : place width continuation c s = ([], { c with held := c.gapBefore s }) := by
        simp [place, hw]
      rw [if_pos hw, hp]
      exact @ih { c with held := c.gapBefore s } hb hss r hr hc
    · by_cases hbr : r.Breaks width continuation ⟨c.gapBefore s, s.word⟩
      · have hrow : '\n' ∉ (Row.broken continuation ⟨c.gapBefore s, s.word⟩).text := by
          rw [Row.text_broken]
          simp [hk, hn]
        obtain ⟨hl, hd⟩ := @ih ⟨_, []⟩ (by simp) hss _ hrow rfl
        rw [if_neg hw, place_of_breaks hw hc hbr hrow, ← gapBefore, spread_cons_of_breaks hbr,
          List.map_cons, ← hl, List.cons_append, lines_append_newline, lines_of_no_newline hr]
        exact ⟨rfl, hd⟩
      · have hgw : '\n' ∉ c.gapBefore s ++ s.word := by simp [newline_not_mem_of_spaces hb, hn]
        have hrow : '\n' ∉ (r.add ⟨c.gapBefore s, s.word⟩).text := by
          rw [Row.text_add, Segment.text]
          simp only [List.mem_append, not_or] at hgw ⊢
          exact ⟨hr, hgw⟩
        obtain ⟨hl, hd⟩ := @ih ⟨_, []⟩ (by simp) hss _ hrow rfl
        have ht : r.text ++ (c.gapBefore s ++ s.word) = (r.add ⟨c.gapBefore s, s.word⟩).text :=
          (Row.text_add r ⟨c.gapBefore s, s.word⟩).symm
        rw [if_neg hw, place_of_stays hw hc hbr hgw, ← gapBefore, spread_cons_of_stays hbr, ← hl,
          ← List.append_assoc, ht]
        exact ⟨rfl, hd⟩

end Cursor

/-! ### Rows that go beyond the width -/

variable {width : Nat} {continuation : Margin}

namespace Row

lemma length_upTo_le {r : Row} {before after : List Segment} {s : Segment}
    (h : r.words = before ++ s :: after) :
    ((r.upTo before).text ++ s.text).length ≤ r.text.length := by
  obtain ⟨front, dropped, words⟩ := r
  obtain rfl : words = before ++ s :: after := h
  simp only [text, upTo, List.flatMap_append, List.flatMap_cons, List.length_append]
  omega

/-- The last word of a row that is too long could not be broken. -/
lemma Settled.last {r : Row} (h : r.Settled width continuation) (hl : width < r.text.length)
    {before : List Segment} {s : Segment} (hw : r.words = before ++ [s]) :
    s.gap = [] ∨ (r.upTo before).text.length ≤ continuation.length := by
  by_contra hn
  obtain ⟨hg, hk⟩ := not_or.1 hn
  have ht : (r.upTo before).text ++ s.text = r.text := by
    rw [← text_add, Row.add, upTo, ← hw]
  exact h before s [] hw ⟨hg, ht ▸ hl, by omega⟩

/-- A row that is too long ends with a word that could not be broken, unless that is its
only word. -/
lemma Settled.exists_last {r : Row} (h : r.Settled width continuation) (hp : Parted r.words)
    (hl : width < r.text.length) (hn : r.words ≠ []) :
    ∃ before last, r.words = before ++ [last] ∧
      ((r.upTo before).text.length ≤ continuation.length ∨ before = [] ∧ last.gap = []) := by
  obtain ⟨before, last, hw⟩ := r.words.eq_nil_or_concat'.resolve_left hn
  refine ⟨before, last, hw, ?_⟩
  rcases h.last hl hw with hg | hle
  · -- without a gap the word is the first of its row
    refine .inr ⟨?_, hg⟩
    by_contra hb
    have hmem : last ∈ r.words.tail := by
      rw [hw, List.tail_append_of_ne_nil hb]
      simp
    exact hp last hmem hg
  · exact .inl hle

/-- On a row that is too long no break would have been useful, not in front of an earlier
word either. -/
lemma Settled.useless {r : Row} (h : r.Settled width continuation) (hp : Parted r.words)
    (hl : width < r.text.length) {before after : List Segment} {s : Segment}
    (hw : r.words = before ++ s :: after) :
    s.gap = [] ∨ (r.upTo before).text.length ≤ continuation.length := by
  obtain rfl | ⟨after, t, rfl⟩ := after.eq_nil_or_concat'
  · exact h.last hl hw
  · have hw' : r.words = (before ++ s :: after) ++ [t] := by rw [hw, List.append_assoc]; rfl
    have ht : t ∈ r.words.tail := by
      rw [hw, List.tail_append]
      cases before <;> simp
    have hk := (h.last hl hw').resolve_left (hp t ht)
    have hle := length_upTo_le (r := r.upTo (before ++ s :: after)) rfl
    rw [List.length_append] at hle
    right
    calc (r.upTo before).text.length ≤ (r.upTo before).text.length + s.text.length :=
        Nat.le_add_right _ _
      _ ≤ (r.upTo (before ++ s :: after)).text.length := hle
      _ ≤ continuation.length := hk

end Row

/-- What stands apart in all texts stands apart in each. -/
lemma mem_tail_flatMap {α β : Type} {f : α → List β} {as : List α} {a : α} (ha : a ∈ as) {b : β}
    (hb : b ∈ (f a).tail) : b ∈ (as.flatMap f).tail := by
  induction as with
  | nil => simp at ha
  | cons x xs ih =>
    rw [List.flatMap_cons]
    rcases List.mem_cons.1 ha with rfl | ha
    · rw [List.tail_append_of_ne_nil (List.ne_nil_of_mem (List.mem_of_mem_tail hb))]
      exact List.mem_append_left _ hb
    · cases hx : f x with
      | nil => exact ih ha
      | cons y ys => exact List.mem_append_right ys (List.mem_of_mem_tail (ih ha))

lemma parted_of_mem_spread {r : Row} (h : r.words = [] → r.dropped = []) {ss : List Segment}
    (hp : Parted (r.source ++ ss)) : ∀ row ∈ spread width continuation r ss, Parted row.words := by
  intro row hrow s hs
  have ht : row.words.tail = row.source.tail := by
    rw [Row.source]
    cases row.words <;> rfl
  rw [← flatMap_source_spread h] at hp
  exact hp s (mem_tail_flatMap hrow (ht ▸ hs))

/-- The rows of a line that has no words yet. -/
lemma exists_rows (width : Nat) (continuation : Margin) (start : List Char) {ss : List Segment}
    (hp : Parted ss) : ∃ first rest, spread width continuation ⟨start, [], []⟩ ss = first :: rest ∧
      (first :: rest).flatMap Row.source = ss ∧ first.front = start ∧ first.dropped = [] ∧
      (∀ r ∈ rest, r.front = continuation.text) ∧
      (first :: rest).IsChain (Row.Yields width continuation) ∧
      (∀ r ∈ first :: rest, r.Settled width continuation) ∧
      ∀ r ∈ first :: rest, Parted r.words := by
  obtain ⟨first, rest, he, hfront, hdropped, -, hrest⟩ :=
    spread_eq_cons width continuation ⟨start, [], []⟩ ss
  refine ⟨first, rest, he, ?_, hfront, hdropped, hrest, ?_, ?_, ?_⟩ <;> rw [← he]
  · exact flatMap_source_spread (fun _ => rfl) ss
  · exact isChain_spread _ ss
  · exact settled_of_mem_spread (Row.settled_of_no_words rfl) ss
  · exact parted_of_mem_spread (fun _ => rfl) hp

/-- A break in front of a word takes characters away from its line. -/
lemma Row.Breaks.shorter {r : Row} {gap word : List Char}
    (h : r.Breaks width continuation ⟨gap, word⟩) :
    (continuation.text ++ word).length < (r.text ++ (gap ++ word)).length := by
  obtain ⟨-, -, hk⟩ := h
  simp only [List.length_append, Margin.length_text]
  omega

namespace Cursor

/-- A run that has room is written as it is, up to the spaces that are held back behind it. -/
lemma wrap_of_room {c : Cursor} (hh : ∀ a ∈ c.held, a = ' ') {q : Bool} {text : List Char}
    (ht : '\n' ∉ text)
    (h : c.column + (c.held ++ text).length ≤
      width + (c.wrap width continuation q text).2.held.length) :
    (c.wrap width continuation q text).1 ++ (c.wrap width continuation q text).2.held =
      c.held ++ text := by
  have hs : ∀ s ∈ segments q text, s.Plain := fun s => plain_of_mem_segments ht
  have hu := unbroken_placeAll width continuation c (segments q text)
  rw [flatMap_text_segments] at hu
  have hf : Fits width c.column
      (unbroken (planAll (placePlan continuation) (place width continuation) c
        (segments q text))) := by
    refine fits_of_length_le ?_
    rw [← hu, List.length_append] at h
    change _ ≤ width + (placeAll width continuation c (segments q text)).2.held.length at h
    omega
  rw [wrap, text_placeAll, fill_of_fits (proper_placeAll hh hs).1 hf, hu]

end Cursor

/-- **Rows of a run**: what a run makes of the line it goes on with. No word is lost, and no gap but
those that breaks replaced. A break stands in front of a word if and only if it is needed and
useful, and it makes the line of the word shorter. A line that is too long has no place for a break:
before its last word there is no more than the continuation, unless that word goes on with the line
that the run started on. A run that has room is written as it is. -/
theorem wrap_rows (c : Cursor) (hh : ∀ a ∈ c.held, a = ' ') (width : Nat) (continuation : Margin)
    (hk : '\n' ∉ continuation.text) (q : Bool) {text : List Char} (ht : '\n' ∉ text)
    {start : List Char} (hs : '\n' ∉ start) (hc : start.length = c.column) :
    ∃ (first : Row) (rest : List Row),
      lines (start ++ (c.wrap width continuation q text).1) = (first :: rest).map Row.text ∧
      (first :: rest).flatMap Row.source = (gather c.held (segments q text)).1 ∧
      (c.wrap width continuation q text).2.held = (gather c.held (segments q text)).2 ∧
      first.front = start ∧ first.dropped = [] ∧ (∀ r ∈ rest, r.front = continuation.text) ∧
      (first :: rest).IsChain (fun above below => ∃ word more, below.words = ⟨[], word⟩ :: more ∧
        above.Breaks width continuation ⟨below.dropped, word⟩ ∧
        (continuation.text ++ word).length < (above.text ++ (below.dropped ++ word)).length) ∧
      (∀ r ∈ first :: rest, r.Settled width continuation) ∧
      (∀ r ∈ first :: rest, r.words ≠ [] → width < r.text.length →
        ∃ before last, r.words = before ++ [last] ∧
          ((r.upTo before).text.length ≤ continuation.length ∨
            r = first ∧ before = [] ∧ last.gap = [])) ∧
      (∀ r ∈ first :: rest, width < r.text.length →
        ∀ before s after, r.words = before ++ s :: after →
        s.gap = [] ∨ (r.upTo before).text.length ≤ continuation.length) ∧
      (c.column + (c.held ++ text).length ≤
          width + (c.wrap width continuation q text).2.held.length →
        rest = [] ∧ (c.wrap width continuation q text).1 ++
          (c.wrap width continuation q text).2.held = c.held ++ text) := by
  have hstart : Row.text ⟨start, [], []⟩ = start := List.append_nil start
  obtain ⟨first, rest, he, hsource, hfront, hdropped, hrest, hchain, hsettled, hparted⟩ :=
    exists_rows width continuation start (parted_gather c.held (parted_segments q text))
  obtain ⟨hl, hheld⟩ : lines (start ++ (c.wrap width continuation q text).1) =
        (first :: rest).map Row.text ∧
      (c.wrap width continuation q text).2.held = (gather c.held (segments q text)).2 := by
    have hpl : ∀ s ∈ segments q text, s.Plain := fun s => plain_of_mem_segments ht
    have hp := Cursor.placeAll_eq_spread width hk hh hpl (r := ⟨start, [], []⟩) (by rwa [hstart])
      (by rw [hstart, hc])
    rwa [hstart, he] at hp
  refine ⟨first, rest, hl, hsource, hheld, hfront, hdropped, hrest, ?_, hsettled, ?_, ?_, ?_⟩
  · exact hchain.imp fun above below ⟨word, more, hw, hb⟩ => ⟨word, more, hw, hb, hb.shorter⟩
  · intro r hr hn hlong
    obtain ⟨before, last, hw, hle | ⟨rfl, hg⟩⟩ :=
      (hsettled r hr).exists_last (hparted r hr) hlong hn
    · exact ⟨before, last, hw, .inl hle⟩
    · refine ⟨[], last, hw, ?_⟩
      rcases List.mem_cons.1 hr with rfl | hr
      · exact .inr ⟨rfl, rfl, hg⟩
      · left
        simp [Row.upTo, Row.text, hrest r hr, Margin.length_text]
  · intro r hr hlong before s after hw
    exact (hsettled r hr).useless (hparted r hr) hlong hw
  · intro hroom
    have hwrite := Cursor.wrap_of_room hh ht hroom
    have hn : '\n' ∉ (c.wrap width continuation q text).1 := fun hm => by
      have hm' := hwrite ▸ List.mem_append_left (c.wrap width continuation q text).2.held hm
      exact (List.mem_append.1 hm').elim (newline_not_mem_of_spaces hh) ht
    refine ⟨?_, hwrite⟩
    have hone :=
      lines_of_no_newline (x := start ++ (c.wrap width continuation q text).1) (by simp [hs, hn])
    rw [hl] at hone
    have hlen := congrArg List.length hone
    exact List.eq_nil_of_length_eq_zero (by simpa using hlen)

/-- A run that goes on behind a space held back, with a word for each of two rows. -/
theorem wrap_rows_two :
    (∀ a ∈ [' '], a = ' ') ∧ '\n' ∉ (Margin.ofText [' ', ' ']).text ∧
      '\n' ∉ "bb cc".toList ∧
      '\n' ∉ "a =".toList ∧ ∃ first second : Row,
        lines ("a =".toList ++
          (Cursor.wrap 6 (.ofText [' ', ' ']) true ⟨3, [' ']⟩ "bb cc".toList).1) =
          [first.text, second.text] ∧
        first.text = "a = bb".toList ∧ second.text = "  cc".toList ∧
        first.Settled 6 (.ofText [' ', ' ']) := by
  have hh : ∀ a ∈ [' '], a = ' ' := fun _ => List.eq_of_mem_singleton
  have hk : '\n' ∉ (Margin.ofText [' ', ' ']).text := by decide
  have ht : '\n' ∉ "bb cc".toList := by decide
  have hs : '\n' ∉ "a =".toList := by decide
  obtain ⟨first, rest, hl, -, -, -, -, -, -, hsettled, -⟩ :=
    wrap_rows ⟨3, [' ']⟩ hh 6 (.ofText [' ', ' ']) hk true ht hs rfl
  have hw : lines ("a =".toList ++
      (Cursor.wrap 6 (.ofText [' ', ' ']) true ⟨3, [' ']⟩ "bb cc".toList).1) =
        ["a = bb".toList, "  cc".toList] := by decide
  obtain ⟨hfirst, second, hr, hsecond⟩ : "a = bb".toList = first.text ∧
      ∃ second, rest = [second] ∧ "  cc".toList = second.text := by
    rw [hw, List.map_cons] at hl
    obtain ⟨hf, hrest⟩ := List.cons.inj hl
    obtain ⟨second, more, rfl, h, hm⟩ := List.map_eq_cons_iff.1 hrest.symm
    obtain rfl : more = [] := by simpa using hm
    exact ⟨hf, second, rfl, h.symm⟩
  refine ⟨hh, hk, ht, hs, first, second, ?_, hfirst.symm, hsecond.symm,
    hsettled first List.mem_cons_self⟩
  rw [hl, hr]
  rfl

end ProtoSchema.Layout
