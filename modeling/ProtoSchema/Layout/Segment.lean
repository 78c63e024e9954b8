/-!
A line of text cut at its spaces: words, each with the gap of spaces in front of it.

Where literals are kept, a space inside a quoted literal and a space directly after a colon belong
to their word, so neither a literal nor a `key: value` pair is ever taken apart. The scan reads from
left to right and keeps what it has read newest first.
-/

namespace ProtoSchema.Layout

/-- A word and the gap in front of it. -/
structure Segment where
  gap : List Char
  word : List Char
  deriving DecidableEq, Repr

/-- The text a segment was cut from. -/
def Segment.text (s : Segment) : List Char := s.gap ++ s.word

/-- A scan between two characters; gap, word and finished segments are newest first. -/
structure Scan where
  done : List Segment := []
  gap : List Char := []
  word : List Char := []
  quoted : Bool := false
  escaped : Bool := false
  deriving DecidableEq, Repr

namespace Scan

/-- The segment being read. -/
def current (s : Scan) : Segment := ⟨s.gap.reverse, s.word.reverse⟩

/-- A space that separates: it ends the word being read, if there is one. -/
def space (s : Scan) : Scan :=
  if s.word.isEmpty then { s with gap := ' ' :: s.gap }
  else { s with done := s.current :: s.done, gap := [' '], word := [] }

/-- The quoting state after a character of a word: a backslash counts inside a literal only. -/
def quote (s : Scan) (c : Char) : Scan :=
  if s.escaped then { s with escaped := false }
  else if c = '\\' && s.quoted then { s with escaped := true }
  else if c = '"' then { s with quoted := !s.quoted }
  else s

/-- A character that belongs to the word being read. -/
def take (quoteAware : Bool) (s : Scan) (c : Char) : Scan :=
  let t := { s with word := c :: s.word }
  if quoteAware then t.quote c else t

def step (quoteAware : Bool) (s : Scan) (c : Char) : Scan :=
  if c = ' ' && quoteAware && s.word.head? == some ':' then { s with word := c :: s.word }
  else if c = ' ' && !s.quoted then s.space
  else s.take quoteAware c

def run (quoteAware : Bool) (s : Scan) (text : List Char) : Scan := text.foldl (step quoteAware) s

/-- All segments in reading order; the last word is empty when the text ends in spaces. -/
def segments (s : Scan) : List Segment := (s.current :: s.done).reverse

@[simp] theorem run_nil (q : Bool) (s : Scan) : run q s [] = s := rfl

@[simp] theorem run_cons (q : Bool) (s : Scan) (c : Char) (cs : List Char) :
    run q s (c :: cs) = run q (step q s c) cs := rfl

theorem run_append (q : Bool) (s : Scan) (a b : List Char) :
    run q s (a ++ b) = run q (run q s a) b := by
  simp [run, List.foldl_append]

/-- What a step preserves at each character of a text, a run over the text preserves. -/
theorem run_preserves {P : Scan → Prop} {q : Bool} {text : List Char}
    (hstep : ∀ s, P s → ∀ c ∈ text, P (s.step q c)) {s : Scan} (h : P s) :
    P (s.run q text) := by
  induction text generalizing s with
  | nil => exact h
  | cons c cs ih =>
    exact ih (fun s h d hd => hstep s h d (List.mem_cons_of_mem c hd))
      (hstep s h c List.mem_cons_self)

theorem word_take (q : Bool) (s : Scan) (c : Char) : (s.take q c).word = c :: s.word := by
  simp only [take, quote]
  repeat' split
  all_goals rfl

theorem done_take (q : Bool) (s : Scan) (c : Char) : (s.take q c).done = s.done := by
  simp only [take, quote]
  repeat' split
  all_goals rfl

theorem gap_take (q : Bool) (s : Scan) (c : Char) : (s.take q c).gap = s.gap := by
  simp only [take, quote]
  repeat' split
  all_goals rfl

/-! ### Nothing is lost -/

/-- The text read so far. -/
def consumed (s : Scan) : List Char := s.segments.flatMap Segment.text

theorem consumed_space (s : Scan) : s.space.consumed = s.consumed ++ [' '] := by
  by_cases hw : s.word.isEmpty
  · simp_all [space, consumed, segments, current, Segment.text]
  · simp [space, hw, consumed, segments, current, Segment.text]

theorem consumed_take (q : Bool) (s : Scan) (c : Char) :
    (s.take q c).consumed = s.consumed ++ [c] := by
  simp only [take, quote]
  repeat' split
  all_goals simp [consumed, segments, current, Segment.text]

theorem consumed_step (q : Bool) (s : Scan) (c : Char) :
    (s.step q c).consumed = s.consumed ++ [c] := by
  unfold step
  split
  · simp [consumed, segments, current, Segment.text]
  · split
    · next h =>
      have hc : c = ' ' := by simp_all
      rw [hc, consumed_space]
    · exact consumed_take q s c

theorem consumed_run (q : Bool) (s : Scan) (text : List Char) :
    (s.run q text).consumed = s.consumed ++ text := by
  induction text generalizing s with
  | nil => simp
  | cons c cs ih => simp [ih, consumed_step]

end Scan

/-- The segments of a text without newlines. -/
def segments (quoteAware : Bool) (text : List Char) : List Segment :=
  (Scan.run quoteAware {} text).segments

theorem flatMap_text_segments (quoteAware : Bool) (text : List Char) :
    (segments quoteAware text).flatMap Segment.text = text := by
  have h := Scan.consumed_run quoteAware {} text
  simpa [Scan.consumed, Scan.segments, Scan.current, Segment.text, segments] using h

/-! ### Text in pieces -/

/-- What a piece of text counts as: a single character as itself, any other piece as a letter. -/
def pieceMark : List Char → Char
  | [c] => c
  | _ => 'x'

/-- Takes a segment of marks for the pieces they stand for. -/
def joinNext (r : List Segment × List (List Char)) (s : Segment) :
    List Segment × List (List Char) :=
  let rest := r.2.drop s.gap.length
  (⟨(r.2.take s.gap.length).flatten, (rest.take s.word.length).flatten⟩ :: r.1,
    rest.drop s.word.length)

/-- The segments of a text that is given in pieces, none of which is taken apart. -/
def segmentsOfPieces (quoteAware : Bool) (pieces : List (List Char)) : List Segment :=
  ((segments quoteAware (pieces.map pieceMark)).foldl joinNext ([], pieces)).1.reverse

theorem flatMap_text_joined (ss : List Segment) (done : List Segment) (pieces : List (List Char)) :
    (ss.foldl joinNext (done, pieces)).1.reverse.flatMap Segment.text =
      done.reverse.flatMap Segment.text ++
        (pieces.take (ss.flatMap Segment.text).length).flatten := by
  induction ss generalizing done pieces with
  | nil => simp
  | cons s ss ih =>
    simp only [List.foldl_cons, joinNext, ih, List.reverse_cons, List.flatMap_append,
      List.flatMap_cons, List.flatMap_nil, List.append_nil, Segment.text, List.append_assoc,
      List.length_append, List.take_add, List.flatten_append, List.drop_drop]

theorem flatMap_text_segmentsOfPieces (quoteAware : Bool) (pieces : List (List Char)) :
    (segmentsOfPieces quoteAware pieces).flatMap Segment.text = pieces.flatten := by
  have h := flatMap_text_joined (segments quoteAware (pieces.map pieceMark)) [] pieces
  rw [flatMap_text_segments] at h
  simpa [segmentsOfPieces] using h

end ProtoSchema.Layout
