import Mathlib.Data.List.Basic
import ProtoSchema.Proofs.Quoting

/-!
Texts that are cut in two.

A text that is written in two pieces is laid out like the whole if it is cut at a separator: between
two lines, behind spaces that separate, or in front of one. There the scan stands as it does at the
start of a line, and the spaces held back carry the gap across the cut.
-/

namespace ProtoSchema.Layout

/-! ### Inside of literals -/

/-- Where the reading of a text stands: outside of literals, inside of one, or behind a
backslash there. -/
inductive Reader where
  | outside | inside | escaped
  deriving DecidableEq, Repr

namespace Reader

/-- Outside of a literal a backslash means nothing. -/
def next : Reader → Char → Reader
  | outside, c => if c = '"' then inside else outside
  | inside, c => if c = '\\' then escaped else if c = '"' then outside else inside
  | escaped, _ => inside

def read (r : Reader) (text : List Char) : Reader := text.foldl next r

@[simp] lemma read_nil (r : Reader) : r.read [] = r := rfl

@[simp] lemma read_cons (r : Reader) (c : Char) (cs : List Char) :
    r.read (c :: cs) = (r.next c).read cs := rfl

lemma read_append (r : Reader) (a b : List Char) : r.read (a ++ b) = (r.read a).read b :=
  List.foldl_append

end Reader

/-- A literal of the text is still open at its end. -/
def InLiteral (text : List Char) : Prop := Reader.outside.read text ≠ .outside

instance : DecidablePred InLiteral := fun text =>
  inferInstanceAs (Decidable (Reader.outside.read text ≠ .outside))

namespace Scan

variable {s : Scan}

/-- Where the scan stands in the reading of literals. -/
def reader (s : Scan) : Reader :=
  if s.escaped then .escaped else if s.quoted then .inside else .outside

/-- Only a backslash in a literal escapes, and no literal is open where no word is. -/
structure Sane (s : Scan) : Prop where
  escaped : s.escaped = true → s.quoted = true ∧ s.word.head? = some '\\'
  quoted : s.quoted = true → s.word ≠ []

lemma sane_start : Sane {} := ⟨by simp, by simp⟩

lemma reader_eq_outside (h : s.Sane) : s.reader = .outside ↔ s.Outside := by
  unfold reader Outside
  cases he : s.escaped
  · cases hq : s.quoted <;> simp
  · simp [(h.escaped he).1]

lemma outside_of_word_nil (h : s.Sane) (hw : s.word = []) : s.Outside := by
  have hq : s.quoted = false := by
    by_contra hq
    exact h.quoted (by simpa using hq) hw
  refine ⟨hq, ?_⟩
  by_contra he
  have := (h.escaped (by simpa using he)).1
  simp [hq] at this

/-- A space behind a colon is read past the quotes, which changes nothing: what is escaped stands
behind a backslash. -/
lemma step_sane (h : s.Sane) (c : Char) :
    (s.step true c).Sane ∧ (s.step true c).reader = s.reader.next c := by
  obtain ⟨done, gap, word, quoted, escaped⟩ := s
  obtain ⟨he, hq⟩ := h
  simp only at he hq
  unfold step
  split
  · next hc =>
    obtain ⟨rfl, hw⟩ : c = ' ' ∧ word.head? = some ':' := by simpa using hc
    have hn : escaped = false := by
      by_contra hn
      have := (he (by simpa using hn)).2
      simp [hw] at this
    subst hn
    refine ⟨⟨by simp, by simp⟩, ?_⟩
    cases quoted <;> simp [reader, Reader.next]
  · split
    · next hc =>
      obtain ⟨rfl, rfl⟩ : c = ' ' ∧ quoted = false := by simpa using hc
      obtain rfl : escaped = false := by simpa using he
      unfold space
      split <;> exact ⟨⟨by simp, by simp⟩, by simp [reader, Reader.next]⟩
    · unfold take quote
      cases escaped
      · cases quoted
        · by_cases hd : c = '"' <;>
            exact ⟨⟨by simp [hd], by simp [hd]⟩, by simp [hd, reader, Reader.next]⟩
        · by_cases hb : c = '\\'
          · exact ⟨⟨by simp [hb], by simp [hb]⟩, by simp [hb, reader, Reader.next]⟩
          · by_cases hd : c = '"' <;>
              exact ⟨⟨by simp [hb, hd], by simp [hb, hd]⟩, by simp [hb, hd, reader, Reader.next]⟩
      · have hqt : quoted = true := (he rfl).1
        exact ⟨⟨by simp, by simp [hqt]⟩, by simp [hqt, reader, Reader.next]⟩

lemma run_sane (h : s.Sane) (text : List Char) :
    (s.run true text).Sane ∧ (s.run true text).reader = s.reader.read text := by
  induction text generalizing s with
  | nil => exact ⟨h, rfl⟩
  | cons c cs ih =>
    obtain ⟨hs, hr⟩ := step_sane h c
    rw [run_cons, Reader.read_cons, ← hr]
    exact ih hs

/-- **Literals**: the scan of a text ends outside of them as the reading of the text does. -/
theorem outside_iff (text : List Char) : (run true {} text).Outside ↔ ¬ InLiteral text := by
  obtain ⟨hs, hr⟩ := run_sane sane_start text
  rw [← reader_eq_outside hs, hr, InLiteral, not_not]
  rfl

/-- Where quotes do not count, no literal is opened. -/
lemma outside_run_plain (text : List Char) : (run false {} text).Outside := by
  refine run_preserves (P := Outside) (fun s h c _ => ?_) ⟨rfl, rfl⟩
  unfold step
  split
  · exact h
  · split
    · exact outside_space h
    · exact h

/-- Between two words no literal is open. -/
lemma outside_of_blank {q : Bool} {text : List Char} (h : (run q {} text).word = []) :
    (run q {} text).Outside := by
  cases q with
  | false => exact outside_run_plain text
  | true => exact outside_of_word_nil (run_sane sane_start text).1 h

/-! ### A scan that starts between two words -/

/-- Two scans of the same text, one of which had read segments before, and a gap since. -/
inductive Resumes (done : List Segment) (gap : List Char) : Scan → Scan → Prop
  | first (more word : List Char) (quoted escaped : Bool) :
      Resumes done gap ⟨done, more ++ gap, word, quoted, escaped⟩ ⟨[], more, word, quoted, escaped⟩
  | later (front : List Segment) (s : Segment) (more word : List Char) (quoted escaped : Bool) :
      Resumes done gap
        ⟨front ++ ⟨gap.reverse ++ s.gap, s.word⟩ :: done, more, word, quoted, escaped⟩
        ⟨front ++ [s], more, word, quoted, escaped⟩

/-- A scan between two words goes on like one that starts there. -/
lemma Resumes.between (done : List Segment) (gap more : List Char) :
    Resumes done gap ⟨done, more ++ gap, [], false, false⟩ ⟨[], more, [], false, false⟩ :=
  .first more [] false false

variable {done : List Segment} {gap : List Char} {t : Scan}

lemma Resumes.quote (h : Resumes done gap s t) (c : Char) :
    Resumes done gap (s.quote c) (t.quote c) := by
  cases h <;> unfold Scan.quote <;> simp only <;> split_ifs <;> constructor

lemma Resumes.step (h : Resumes done gap s t) (q : Bool) (c : Char) :
    Resumes done gap (s.step q c) (t.step q c) := by
  have hw : Resumes done gap { s with word := c :: s.word } { t with word := c :: t.word } := by
    cases h <;> constructor
  have ht : Resumes done gap (s.take q c) (t.take q c) := by
    cases q with
    | false => exact hw
    | true => exact hw.quote c
  have hs : Resumes done gap s.space t.space := by
    cases h with
    | first more word quoted escaped =>
      unfold space
      split
      · exact .first (' ' :: more) word quoted escaped
      · have hl : Resumes done gap _ ⟨[⟨more.reverse, word.reverse⟩], [' '], [], quoted, escaped⟩ :=
          .later [] ⟨more.reverse, word.reverse⟩ [' '] [] quoted escaped
        simpa [current] using hl
    | later front s more word quoted escaped =>
      unfold space
      split
      · exact .later front s (' ' :: more) word quoted escaped
      · exact .later (⟨more.reverse, word.reverse⟩ :: front) s [' '] [] quoted escaped
  have he : t.word = s.word ∧ t.quoted = s.quoted := by cases h <;> exact ⟨rfl, rfl⟩
  unfold Scan.step
  rw [he.1, he.2] at hw ⊢
  split_ifs
  · exact hw
  · exact hs
  · exact ht

lemma Resumes.run (h : Resumes done gap s t) (q : Bool) (text : List Char) :
    Resumes done gap (s.run q text) (t.run q text) := by
  induction text generalizing s t with
  | nil => exact h
  | cons c cs ih => exact ih (h.step q c)

end Scan

/-! ### Segments of a text that is cut -/

/-- Some segments with a gap more in front of the first. -/
def widen (gap : List Char) : List Segment → List Segment
  | [] => []
  | s :: ss => ⟨gap ++ s.gap, s.word⟩ :: ss

lemma widen_nil (ss : List Segment) : widen [] ss = ss := by cases ss <;> rfl

lemma widen_append (gap : List Char) {ss : List Segment} (h : ss ≠ []) (ts : List Segment) :
    widen gap (ss ++ ts) = widen gap ss ++ ts := by
  cases ss with
  | nil => exact absurd rfl h
  | cons s ss => rfl

lemma Scan.Resumes.segments {done : List Segment} {gap : List Char} {s t : Scan}
    (h : Resumes done gap s t) : s.segments = done.reverse ++ widen gap.reverse t.segments := by
  cases h with
  | first more word quoted escaped => simp [Scan.segments, current, widen]
  | later front s more word quoted escaped => simp [Scan.segments, current, widen]

/-- A scan reads on behind a gap as if it were at the start, and the gap is in front of
what it reads. -/
lemma segments_append_of_blank {q : Bool} {a : List Char} (h : (Scan.run q {} a).word = [])
    (b : List Char) :
    ∃ (front : List Segment) (gap : List Char), segments q a = front ++ [⟨gap, []⟩] ∧
      segments q (a ++ b) = front ++ widen gap (segments q b) := by
  obtain ⟨hq, he⟩ := Scan.outside_of_blank h
  generalize hs : Scan.run q {} a = s at h hq he
  obtain ⟨done, gap, word, quoted, escaped⟩ := s
  simp only at h hq he
  subst h hq he
  have hr := (Scan.Resumes.between done gap []).run q b
  have hseg := hr.segments
  refine ⟨done.reverse, gap.reverse, ?_, ?_⟩
  · simp [segments, hs, Scan.segments, Scan.current]
  · rw [segments, Scan.run_append, hs]
    exact hseg

lemma Scan.word_step (q : Bool) (s : Scan) (c : Char) :
    (s.step q c).word = [] ∨ (s.step q c).word = c :: s.word := by
  unfold step
  split
  · exact .inr rfl
  · split
    · unfold space
      split
      · next hw => exact .inl (List.isEmpty_iff.1 hw)
      · exact .inl rfl
    · exact .inr (word_take q s c)

lemma Scan.head?_word_run {q : Bool} {text : List Char} (h : (run q {} text).word ≠ []) :
    (run q {} text).word.head? = text.getLast? := by
  obtain rfl | ⟨front, c, rfl⟩ := text.eq_nil_or_concat'
  · exact absurd rfl h
  · rw [run_append, run_cons, run_nil] at h ⊢
    have hw := (word_step q (run q {} front) c).resolve_left h
    rw [hw, List.getLast?_concat]
    rfl

/-- A space that separates stands between two texts that are scanned on their own. -/
lemma segments_append_of_space {q : Bool} {a b : List Char} (hw : (Scan.run q {} a).word ≠ [])
    (hb : b.head? = some ' ') (hl : q = true → ¬ InLiteral a ∧ a.getLast? ≠ some ':') :
    segments q (a ++ b) = segments q a ++ segments q b := by
  obtain ⟨b, rfl⟩ := List.head?_eq_some_iff.1 hb
  have ho : (Scan.run q {} a).Outside := by
    cases q with
    | false => exact Scan.outside_run_plain a
    | true => exact (Scan.outside_iff a).2 (hl rfl).1
  have hc : ¬ (q = true ∧ (Scan.run q {} a).word.head? = some ':') := by
    rintro ⟨hq, hc⟩
    exact (hl hq).2 (Scan.head?_word_run hw ▸ hc)
  generalize hs : Scan.run q {} a = s at hw ho hc
  have hstep : s.step q ' ' = s.space := by
    simp [Scan.step, ho.1, hc]
  have hstart : Scan.step q {} ' ' = ⟨[], [' '], [], false, false⟩ := by
    simp [Scan.step, Scan.space]
  have hspace : s.space = ⟨s.current :: s.done, [' '], [], false, false⟩ := by
    simp [Scan.space, hw, ho.1, ho.2]
  have hr := (Scan.Resumes.between (s.current :: s.done) [] [' ']).run q b
  have hseg := hr.segments
  rw [List.reverse_nil, widen_nil] at hseg
  rw [segments, Scan.run_append, hs, Scan.run_cons, hstep, hspace, segments, hs, segments,
    Scan.run_cons, hstart]
  exact hseg

/-! ### Runs that are cut -/

namespace Cursor

variable (width : Nat) (continuation : Margin)

lemma placeAll_cons (c : Cursor) (s : Segment) (ss : List Segment) :
    placeAll width continuation c (s :: ss) =
      ((place width continuation c s).1 ++
        (placeAll width continuation (place width continuation c s).2 ss).1,
        (placeAll width continuation (place width continuation c s).2 ss).2) :=
  writeAll_cons ..

/-- Spaces held back count as a gap in front of the next word. -/
lemma placeAll_widen (c : Cursor) (gap : List Char) {ss : List Segment} (h : ss ≠ []) :
    placeAll width continuation { c with held := c.held ++ gap } ss =
      placeAll width continuation c (widen gap ss) := by
  obtain ⟨s, ss, rfl⟩ := List.exists_cons_of_ne_nil h
  have hs : place width continuation { c with held := c.held ++ gap } s =
      place width continuation c ⟨gap ++ s.gap, s.word⟩ := by
    simp [place, gapBefore, fits, canBreak, append]
  rw [widen, placeAll_cons, placeAll_cons, hs]

end Cursor

/-- Between a line and what follows it stands a space that separates: it ends the line, or starts
what follows. -/
def Separates (q : Bool) (line after : List Char) : Prop :=
  (∃ s ∈ (segments q line).getLast?, s.word = []) ∨
    after.head? = some ' ' ∧ (q = true → ¬ InLiteral line ∧ line.getLast? ≠ some ':')

lemma word_run_of_getLast? {q : Bool} {text : List Char}
    (h : ∃ s ∈ (segments q text).getLast?, s.word = []) : (Scan.run q {} text).word = [] := by
  obtain ⟨s, hs, hw⟩ := h
  obtain rfl : (Scan.run q {} text).current = s := by
    simpa [segments, Scan.segments, Option.mem_def] using hs
  simpa [Scan.current] using hw

namespace Cursor

variable {width : Nat} {continuation : Margin}

lemma wrap_append_of_blank {q : Bool} {a : List Char} (h : (Scan.run q {} a).word = []) (c : Cursor)
    (b : List Char) :
    c.wrap width continuation q (a ++ b) =
      ((c.wrap width continuation q a).1 ++
        ((c.wrap width continuation q a).2.wrap width continuation q b).1,
        ((c.wrap width continuation q a).2.wrap width continuation q b).2) := by
  obtain ⟨front, gap, ha, hab⟩ := segments_append_of_blank h b
  have hb : segments q b ≠ [] := by simp [segments, Scan.segments]
  have hplace : ∀ d : Cursor, place width continuation d ⟨gap, []⟩ =
      ([], { d with held := d.held ++ gap }) := fun _ => rfl
  simp only [wrap, hab, ha, placeAll, writeAll_append, writeAll_cons, writeAll_nil, hplace,
    List.append_nil]
  have hw := placeAll_widen width continuation
    (writeAll (place width continuation) c front).2 gap hb
  simp only [placeAll] at hw
  rw [hw]

lemma wrap_append_of_segments {q : Bool} {a b : List Char}
    (h : segments q (a ++ b) = segments q a ++ segments q b) (c : Cursor) :
    c.wrap width continuation q (a ++ b) =
      ((c.wrap width continuation q a).1 ++
        ((c.wrap width continuation q a).2.wrap width continuation q b).1,
        ((c.wrap width continuation q a).2.wrap width continuation q b).2) := by
  rw [wrap, h, placeAll, writeAll_append]
  rfl

lemma wrap_nil (q : Bool) (c : Cursor) : c.wrap width continuation q [] = ([], c) := by
  obtain ⟨column, held⟩ := c
  have hs : segments q [] = [⟨[], []⟩] := rfl
  simp [wrap, hs, placeAll, writeAll_cons, place, gapBefore]

/-- Two runs that a separator stands between are written like the one run they are. -/
lemma wrap_append (width : Nat) (continuation : Margin) {q : Bool} {a b : List Char}
    (h : a = [] ∨ b = [] ∨ Separates q a b) (c : Cursor) :
    c.wrap width continuation q (a ++ b) =
      ((c.wrap width continuation q a).1 ++
        ((c.wrap width continuation q a).2.wrap width continuation q b).1,
        ((c.wrap width continuation q a).2.wrap width continuation q b).2) := by
  by_cases hw : (Scan.run q {} a).word = []
  · exact wrap_append_of_blank hw c b
  · rcases h with rfl | rfl | hs | ⟨hb, hl⟩
    · exact absurd rfl hw
    · rw [wrap_nil, List.append_nil, List.append_nil]
    · exact absurd (word_run_of_getLast? hs) hw
    · exact wrap_append_of_segments (segments_append_of_space hw hb hl) c

end Cursor

/-! ### Texts that are cut -/

/-- The line that a text ends in. -/
def lastLine (text : List Char) : List Char := (lines text).getLastD []

/-- A place where a text can be cut in two. -/
def SafeCut (q : Bool) (a b : List Char) : Prop :=
  a.getLast? = some '\n' ∨ b.head? = some '\n' ∨ a = [] ∨ b = [] ∨
  Separates q (lastLine a) b

lemma lastLine_of_lines {text l : List Char} {ls : List (List Char)} (h : lines text = ls ++ [l]) :
    lastLine text = l := by
  rw [lastLine, h, List.getLastD_concat]

/-- Where a text is cut, the last line before the cut and the first behind it are one line of
the whole. -/
lemma SafeCut.lines {q : Bool} {a b l m : List Char} {ls ms : List (List Char)} (h : SafeCut q a b)
    (ha : lines a = ls ++ [l]) (hb : lines b = m :: ms) :
    l = [] ∨ m = [] ∨ Separates q l m := by
  rcases h with h | h | rfl | rfl | h
  · obtain ⟨front, rfl⟩ := List.getLast?_eq_some_iff.1 h
    rw [lines_append_newline] at ha
    exact .inl (List.cons.inj (List.append_inj' ha rfl).2).1.symm
  · obtain ⟨b, rfl⟩ := List.head?_eq_some_iff.1 h
    exact .inr (.inl (List.cons.inj hb).1.symm)
  · exact .inl (lastLine_of_lines ha).symm
  · exact .inr (.inl (List.cons.inj hb).1.symm)
  · rw [lastLine_of_lines ha] at h
    refine .inr (.inr (h.imp_right fun ⟨hs, hl⟩ => ⟨?_, hl⟩))
    obtain ⟨b, rfl⟩ := List.head?_eq_some_iff.1 hs
    obtain ⟨k, ks, hk⟩ := List.exists_cons_of_ne_nil (lines_ne_nil b)
    rw [lines_cons_char (by decide) hk] at hb
    rw [← (List.cons.inj hb).1, List.head?_cons]

namespace Writer

variable {w : Writer}

lemma run_append {l m : List Char} (h : l = [] ∨ m = [] ∨ Separates (!w.comment) l m) :
    w.run (l ++ m) = ((w.run l).1 ++ ((w.run l).2.run m).1, ((w.run l).2.run m).2) := by
  by_cases hl : l = []
  · subst hl
    rfl
  · by_cases hm : m = []
    · subst hm
      rw [List.append_nil]
      exact Prod.ext (List.append_nil _).symm rfl
    · have hc := Cursor.wrap_append w.style.lineWidth w.continuation h w.openLine.2.cursor
      obtain ⟨style, cursor, level, lineStart, comment⟩ := w
      cases lineStart <;>
        simp_all [run, openLine, append, continuation, margin, indentation]

lemma nextLine_append {l m : List Char} (h : l = [] ∨ m = [] ∨ Separates (!w.comment) l m) :
    w.nextLine (l ++ m) =
      ((w.nextLine l).1 ++ ((w.nextLine l).2.run m).1, ((w.nextLine l).2.run m).2) := by
  have hc : w.newline.2.comment = w.comment := rfl
  rw [nextLine, run_append (hc ▸ h), nextLine, List.append_assoc]

lemma comment_nextLine (w : Writer) (line : List Char) : (w.nextLine line).2.comment = w.comment :=
  congrArg (fun f => f.2.2) (frame_run w.newline.2 line)

/-- A text that is cut at a safe place is written like the whole. -/
lemma emit_append {a b : List Char} (h : SafeCut (!w.comment) a b) :
    w.emit (a ++ b) = ((w.emit a).1 ++ ((w.emit a).2.emit b).1, ((w.emit a).2.emit b).2) := by
  obtain ⟨ls, l, ha, hl⟩ := exists_last_line a
  obtain ⟨m, ms, hb⟩ := List.exists_cons_of_ne_nil (lines_ne_nil b)
  have hcut := h.lines ha hb
  have hab : lines (a ++ b) = ls ++ (l ++ m) :: ms := by
    rw [lines_append ha, lines_append_of_no_newline hl hb]
  cases ls with
  | nil =>
    simp only [emit, hab, ha, hb, List.nil_append, run_append hcut, writeAll_nil, List.append_nil,
      List.append_assoc]
  | cons k ks =>
    have hc : (writeAll nextLine (w.run k).2 ks).2.comment = w.comment := by
      rw [writeAll_preserves comment comment_nextLine]
      exact congrArg (fun f => f.2.2) (frame_run w k)
    simp only [emit, hab, ha, hb, List.cons_append, writeAll_append, writeAll_cons, writeAll_nil,
      nextLine_append (hc ▸ hcut), List.append_nil, List.append_assoc]

end Writer

/-- **Cuts**: a text that is cut at a safe place is laid out like the whole, and the writer behind
it is the same. The same holds for two runs that a separator stands between. -/
theorem emit_cut :
    (∀ (w : Writer) (a b : List Char), SafeCut (!w.comment) a b →
      w.emit (a ++ b) = ((w.emit a).1 ++ ((w.emit a).2.emit b).1, ((w.emit a).2.emit b).2)) ∧
    ∀ (c : Cursor) (width : Nat) (continuation : Margin) (q : Bool) (a b : List Char),
      a = [] ∨ b = [] ∨ Separates q a b →
      c.wrap width continuation q (a ++ b) =
        ((c.wrap width continuation q a).1 ++
            ((c.wrap width continuation q a).2.wrap width continuation q b).1,
          ((c.wrap width continuation q a).2.wrap width continuation q b).2) :=
  ⟨fun _ _ _ h => Writer.emit_append h, fun c _ _ _ _ _ h => Cursor.wrap_append _ _ h c⟩

/-- A line that is broken at a cut, where the space that ends the first text was held back, and a
run that is broken where a cut stands in front of a space. -/
theorem emit_cut_narrow :
    (∃ w : Writer, w.style.lineWidth = 8 ∧ SafeCut (!w.comment) "a = 1, ".toList "b=2;".toList ∧
      (w.emit "a = 1, ".toList).1 = "a = 1,".toList ∧
      ((w.emit "a = 1, ".toList).2.emit "b=2;".toList).1 = "\n    b=2;".toList ∧
      (w.emit "a = 1, b=2;".toList).1 = "a = 1,\n    b=2;".toList) ∧
    Separates true "a =".toList " 1;".toList ∧
      Cursor.wrap 4 (.ofText []) true {} "a = 1;".toList = ("a =\n1;".toList, ⟨2, []⟩) := by
  have hr : Separates true "a =".toList " 1;".toList := .inr ⟨rfl, fun _ => by decide⟩
  refine ⟨⟨.ofStyle ⟨[' '], 2, 8, by decide, by decide⟩, rfl, ?_⟩, hr, ?_⟩
  · have hs : SafeCut true "a = 1, ".toList "b=2;".toList :=
      .inr (.inr (.inr (.inr (.inl ⟨⟨[' '], []⟩, rfl, rfl⟩))))
    have he := congrArg Prod.fst
      (emit_cut.1 (.ofStyle ⟨[' '], 2, 8, by decide, by decide⟩) _ _ hs)
    exact ⟨hs, by decide, by decide, he.trans (by decide)⟩
  · exact (emit_cut.2 {} 4 (.ofText []) true _ _ (.inr (.inr hr))).trans (by decide)

end ProtoSchema.Layout
