import ProtoSchema.Proofs.Cut

/-!
A cursor and all it has written.

The column is kept up to date from each text that is written, and spaces are held back in between.
Over any history of uses the column is the length of the line that the cursor stands on, and what
was given is written up to the spaces held back, unless a break replaced a gap.
-/

namespace ProtoSchema.Layout

/-! ### The column of a text -/

lemma lastLine_append_newline (text : List Char) : lastLine (text ++ ['\n']) = [] := by
  have hl : lines (text ++ ['\n']) = lines text ++ [[]] := lines_append_newline text []
  exact lastLine_of_lines hl

lemma lastLine_append_char (text : List Char) {c : Char} (hc : c ≠ '\n') :
    lastLine (text ++ [c]) = lastLine text ++ [c] := by
  obtain ⟨ls, l, h, hn⟩ := exists_last_line text
  have hlc : '\n' ∉ l ++ [c] := by simp [hn, Ne.symm hc]
  have hl : lines (text ++ [c]) = ls ++ [l ++ [c]] := by
    rw [lines_append h, lines_of_no_newline hlc]
  rw [lastLine_of_lines h, lastLine_of_lines hl]

/-- A text that starts at the left margin reaches the column that is the length of its last line. -/
lemma columnAfter_zero (text : List Char) : columnAfter 0 text = (lastLine text).length := by
  induction text using List.reverseRecOn with
  | nil => rfl
  | append_singleton text c ih =>
    rw [columnAfter_append, ih]
    by_cases hc : c = '\n'
    · rw [hc, columnAfter_newline, lastLine_append_newline, List.length_nil]
    · rw [columnAfter_char hc, lastLine_append_char text hc, List.length_append,
        List.length_singleton]

/-! ### Gaps of a text in pieces -/

lemma eq_space_of_pieceMark {piece : List Char} (h : pieceMark piece = ' ') : piece = [' '] := by
  unfold pieceMark at h
  split at h
  · rw [h]
  · exact absurd h (by decide)

lemma gap_of_mem_joined {ss : List Segment} (hs : ∀ s ∈ ss, ∀ c ∈ s.gap, c = ' ')
    {pieces : List (List Char)} (hp : pieces.map pieceMark = ss.flatMap Segment.text)
    {done : List Segment} (hd : ∀ s ∈ done, ∀ c ∈ s.gap, c = ' ') :
    ∀ s ∈ (ss.foldl joinNext (done, pieces)).1, ∀ c ∈ s.gap, c = ' ' := by
  induction ss generalizing pieces done with
  | nil => exact hd
  | cons s ss ih =>
    obtain ⟨hg, hss⟩ := List.forall_mem_cons.1 hs
    rw [List.flatMap_cons, Segment.text, List.append_assoc] at hp
    have hgap : (pieces.take s.gap.length).map pieceMark = s.gap := by
      rw [List.map_take, hp, List.take_left]
    have hrest : ((pieces.drop s.gap.length).drop s.word.length).map pieceMark =
        ss.flatMap Segment.text := by
      rw [List.map_drop, List.map_drop, hp, List.drop_left, List.drop_left]
    refine ih hss hrest (List.forall_mem_cons.2 ⟨fun c hc => ?_, hd⟩)
    obtain ⟨piece, hm, hc⟩ := List.mem_flatten.1 hc
    have hm' : pieceMark piece = ' ' := hg _ (hgap ▸ List.mem_map_of_mem hm)
    rw [eq_space_of_pieceMark hm'] at hc
    exact List.mem_singleton.1 hc

lemma gap_of_mem_segmentsOfPieces {q : Bool} {pieces : List (List Char)} {s : Segment}
    (h : s ∈ segmentsOfPieces q pieces) : ∀ c ∈ s.gap, c = ' ' :=
  gap_of_mem_joined (fun _ => gap_of_mem_segments) (flatMap_text_segments q _).symm (by simp) s
    (List.mem_reverse.1 h)

/-! ### Breaks -/

/-- What was given goes on with a space where what was written went on with a break. -/
def Departs (given written : List Char) : Prop :=
  ∃ front a b, given = front ++ ' ' :: a ∧ written = front ++ '\n' :: b

namespace Departs

variable {given written : List Char}

lemma ne (h : Departs given written) : written ≠ given := by
  obtain ⟨front, a, b, rfl, rfl⟩ := h
  simp

lemma append (h : Departs given written) (more further : List Char) :
    Departs (given ++ more) (written ++ further) := by
  obtain ⟨front, a, b, rfl, rfl⟩ := h
  exact ⟨front, a ++ more, b ++ further, by simp, by simp⟩

lemma behind (h : Departs given written) (front : List Char) :
    Departs (front ++ given) (front ++ written) := by
  obtain ⟨start, a, b, rfl, rfl⟩ := h
  exact ⟨front ++ start, a, b, by simp, by simp⟩

end Departs

/-- The sum of what is counted for each of several elements that are written one after another. -/
def countAll {σ α : Type} (count : σ → α → Nat) (write : σ → α → List Char × σ) :
    σ → List α → Nat
  | _, [] => 0
  | s, a :: as => count s a + countAll count write (write s a).2 as

namespace Cursor

/-- A use of a cursor that is given a text and puts breaks into it. The column is true, only spaces
are held back, and the text is written up to these, unless there is a break. -/
structure Records (write : Cursor → List Char × Cursor) (given : List Char)
    (breaks : Cursor → Nat) :
    Prop where
  column : ∀ c : Cursor, (write c).2.column = columnAfter c.column (write c).1
  spaces : ∀ c : Cursor, (∀ a ∈ c.held, a = ' ') → ∀ a ∈ (write c).2.held, a = ' '
  kept : ∀ c : Cursor, breaks c = 0 → (write c).1 ++ (write c).2.held = c.held ++ given
  departs : ∀ c : Cursor, (∀ a ∈ c.held, a = ' ') → breaks c ≠ 0 →
    Departs (c.held ++ given) (write c).1

namespace Records

variable {f g : Cursor → List Char × Cursor} {a b : List Char} {m n : Cursor → Nat}

lemma nothing : Records (fun c => ([], c)) [] fun _ => 0 :=
  ⟨fun _ => rfl, fun _ h => h, fun c _ => by simp, fun _ _ h => absurd rfl h⟩

lemma andThen (hf : Records f a m) (hg : Records g b n) :
    Records (fun c => ((f c).1 ++ (g (f c).2).1, (g (f c).2).2)) (a ++ b) fun c =>
      m c + n (f c).2 := by
  refine ⟨fun c => ?_, fun c hc => hg.spaces _ (hf.spaces c hc), fun c h => ?_, fun c hc h => ?_⟩
  · rw [hg.column, hf.column, columnAfter_append]
  · obtain ⟨hm, hn⟩ := Nat.add_eq_zero_iff.1 h
    rw [List.append_assoc, hg.kept _ hn, ← List.append_assoc, hf.kept c hm, List.append_assoc]
  · rw [← List.append_assoc]
    by_cases hm : m c = 0
    · -- what the first use held back starts what the second is given
      have hn : n (f c).2 ≠ 0 := by omega
      have hd := (hg.departs _ (hf.spaces c hc) hn).behind (f c).1
      rwa [← List.append_assoc, hf.kept c hm] at hd
    · exact (hf.departs c hc hm).append _ _

lemma writeAll {α : Type} {write : Cursor → α → List Char × Cursor} {given : α → List Char}
    {breaks : Cursor → α → Nat} {as : List α}
    (h : ∀ a ∈ as, Records (write · a) (given a) (breaks · a)) :
    Records (Layout.writeAll write · as) (as.flatMap given) (countAll breaks write · as) := by
  induction as with
  | nil => exact nothing
  | cons a as ih =>
    obtain ⟨ha, has⟩ := List.forall_mem_cons.1 h
    simp only [writeAll_cons, List.flatMap_cons, countAll]
    exact ha.andThen (ih has)

end Records

/-! ### Runs -/

/-- A break is put in front of the word of the segment. -/
def Breaks (width : Nat) (continuation : Margin) (c : Cursor) (s : Segment) : Prop :=
  s.word ≠ [] ∧ c.fits width s = false ∧ c.canBreak continuation s = true

instance (width : Nat) (continuation : Margin) (c : Cursor) (s : Segment) :
    Decidable (c.Breaks width continuation s) :=
  inferInstanceAs (Decidable (_ ∧ _))

/-- The breaks in front of one word: one, or none. -/
def breaksAt (width : Nat) (continuation : Margin) (c : Cursor) (s : Segment) : Nat :=
  if c.Breaks width continuation s then 1 else 0

/-- The number of breaks that are put into a run. -/
def breaksIn (width : Nat) (continuation : Margin) (c : Cursor) (ss : List Segment) : Nat :=
  countAll (breaksAt width continuation) (place width continuation) c ss

variable {width : Nat} {continuation : Margin} {c : Cursor} {s : Segment}

lemma place_of_not_breaks (h : ¬ c.Breaks width continuation s) :
    (place width continuation c s).1 ++ (place width continuation c s).2.held =
    c.held ++ s.text := by
  unfold place
  by_cases hw : s.word = []
  · simp [hw, gapBefore, Segment.text]
  · have hf : (c.fits width s || !c.canBreak continuation s) = true := by
      by_contra hn
      exact h ⟨hw, by simpa using hn⟩
    simp [hw, hf, append, gapBefore, Segment.text]

lemma Breaks.departs (h : c.Breaks width continuation s) (hc : ∀ a ∈ c.held, a = ' ')
    (hg : ∀ a ∈ s.gap, a = ' ') : Departs (c.held ++ s.text) (place width continuation c s).1 := by
  obtain ⟨hw, hf, hk⟩ := h
  have hb : c.gapBefore s ≠ [] := fun hn => by simp [canBreak, hn] at hk
  obtain ⟨a, rest, hr⟩ := List.exists_cons_of_ne_nil hb
  have ha : a = ' ' := by
    refine spaces_gapBefore hc hg a ?_
    rw [hr]
    exact List.mem_cons_self
  refine ⟨[], rest ++ s.word, continuation.text ++ s.word, ?_, ?_⟩
  · rw [Segment.text, ← List.append_assoc, ← gapBefore, hr, ha]
    rfl
  · simp [place, hw, hf, hk, append]

lemma records_place (hg : ∀ a ∈ s.gap, a = ' ') :
    Records (place width continuation · s) s.text (breaksAt width continuation · s) := by
  refine ⟨fun c => column_place width continuation c s, fun c hc => spaces_held_place hc hg,
    fun c h => ?_, fun c hc h => ?_⟩
  · exact place_of_not_breaks fun hb => by simp [breaksAt, hb] at h
  · exact Breaks.departs (by simpa [breaksAt] using h) hc hg

lemma records_placeAll {ss : List Segment} (hg : ∀ s ∈ ss, ∀ a ∈ s.gap, a = ' ') :
    Records (placeAll width continuation · ss) (ss.flatMap Segment.text)
      (breaksIn width continuation · ss) :=
  .writeAll fun s hs => records_place (hg s hs)

/-! ### Uses -/

/-- What can be done with a cursor: a text is written as it is, or a run of text, maybe in pieces,
is written that may be broken. -/
inductive Use where
  | append (text : List Char)
  | wrap (continuation : Margin) (quoteAware : Bool) (text : List Char)
  | wrapPieces (continuation : Margin) (quoteAware : Bool) (pieces : List (List Char))

namespace Use

/-- The text given. -/
def text : Use → List Char
  | append text => text
  | wrap _ _ text => text
  | wrapPieces _ _ pieces => pieces.flatten

def write (width : Nat) (c : Cursor) : Use → List Char × Cursor
  | append text => c.append text
  | wrap continuation quoteAware text => c.wrap width continuation quoteAware text
  | wrapPieces continuation quoteAware pieces => c.wrapPieces width continuation quoteAware pieces

/-- The number of breaks put into what is written. -/
def breaks (width : Nat) (c : Cursor) : Use → Nat
  | append _ => 0
  | wrap continuation quoteAware text => breaksIn width continuation c (segments quoteAware text)
  | wrapPieces continuation quoteAware pieces =>
    breaksIn width continuation c (segmentsOfPieces quoteAware pieces)

lemma records (width : Nat) (u : Use) : Records (write width · u) u.text (breaks width · u) := by
  cases u with
  | append text =>
    refine ⟨fun c => column_append c text, fun c _ => ?_, fun c _ => ?_, fun c _ h => absurd rfl h⟩
    · simp [write, Cursor.append]
    · simp [write, Cursor.append, Use.text]
  | wrap continuation q text =>
    have hg : ∀ s ∈ segments q text, ∀ a ∈ s.gap, a = ' ' :=
      fun s hs => gap_of_mem_segments hs
    have h : Records (write width · (.wrap continuation q text))
        ((segments q text).flatMap Segment.text)
        (breaks width · (.wrap continuation q text)) := records_placeAll hg
    rwa [flatMap_text_segments] at h
  | wrapPieces continuation q pieces =>
    have hg : ∀ s ∈ segmentsOfPieces q pieces, ∀ a ∈ s.gap, a = ' ' :=
      fun s hs => gap_of_mem_segmentsOfPieces hs
    have h : Records (write width · (.wrapPieces continuation q pieces))
        ((segmentsOfPieces q pieces).flatMap Segment.text)
        (breaks width · (.wrapPieces continuation q pieces)) := records_placeAll hg
    rwa [flatMap_text_segmentsOfPieces] at h

end Use

/-- All that some uses write on a cursor, from the start of an empty text. -/
def history (width : Nat) (us : List Use) : List Char × Cursor := writeAll (Use.write width) {} us

/-- **Columns**: whatever is done with a cursor, its column is the length of the line that is being
written, and what it holds back is made of spaces. What was given is written up to the spaces held
back if and only if no break was put in. -/
theorem history_column (width : Nat) (us : List Use) :
    (history width us).2.column = (lastLine (history width us).1).length ∧
      (∀ a ∈ (history width us).2.held, a = ' ') ∧
      (countAll (Use.breaks width) (Use.write width) {} us = 0 ↔
        (history width us).1 ++ (history width us).2.held = us.flatMap Use.text) := by
  have h : Records (writeAll (Use.write width) · us) (us.flatMap Use.text)
      (countAll (Use.breaks width) (Use.write width) · us) := .writeAll fun u _ => u.records width
  have hc : ∀ a ∈ ({} : Cursor).held, a = ' ' := fun a ha => absurd ha List.not_mem_nil
  refine ⟨?_, h.spaces {} hc, h.kept {}, fun he => ?_⟩
  · rw [history, h.column]
    exact columnAfter_zero _
  · by_contra hb
    have hd := (h.departs {} hc hb).append [] (history width us).2.held
    rw [List.append_nil] at hd
    exact hd.ne he

/-- Spaces that one run holds back, and a break in front of a word of the next that takes them. -/
example :
    let us : List Use := [.append "a\nbb".toList, .wrap (.ofText [' ']) true " =  ".toList,
      .wrap (.ofText [' ']) true "1;".toList]
    history 7 us = ("a\nbb =\n 1;".toList, ⟨3, []⟩) ∧
    history 8 us = ("a\nbb =  1;".toList, ⟨8, []⟩) := by
  decide

end Cursor

end ProtoSchema.Layout
