import ProtoSchema.Proofs.Literals
import ProtoSchema.Proofs.Neat
import ProtoSchema.Proofs.Rows

/-!
Lines of a declaration that are longer than the width.

Each run of a declaration is broken on its own, without a look at the runs behind it. So a line may
be too long though it has spaces at which it could be broken. But all of these stand in a part of
the line that was within the width when a run had ended there: what follows was put behind it
without a gap.
-/

namespace ProtoSchema

open Layout Print

namespace Layout

/-! ### Words without a place for a break -/

lemma inLiteral_append_iff {a : List Char} (h : ¬ InLiteral a) (b : List Char) :
    InLiteral (a ++ b) ↔ InLiteral b := by
  have ha : Reader.outside.read a = .outside := not_not.1 h
  rw [InLiteral, InLiteral, Reader.read_append, ha]

lemma not_inLiteral_of_no_quote {text : List Char} (h : '"' ∉ text) : ¬ InLiteral text :=
  (Scan.outside_iff text).1 (Scan.outside_run h ⟨rfl, rfl⟩)

lemma not_inLiteral_of_quoted {q : List Char} (h : Literal.Quoted q) : ¬ InLiteral q := by
  rw [← Scan.outside_iff, Scan.run_quoted h ⟨rfl, rfl⟩]
  exact ⟨rfl, rfl⟩

lemma not_inLiteral_of_spaces {text : List Char} (h : ∀ c ∈ text, c = ' ') :
    ¬ InLiteral text :=
  not_inLiteral_of_no_quote fun hm => absurd (h _ hm) (by decide)

/-- Every space of the word stands inside of a literal or behind a colon. -/
def Tight (word : List Char) : Prop :=
  ∀ a b, word = a ++ ' ' :: b → InLiteral a ∨ a.getLast? = some ':'

lemma tight_nil : Tight [] := by
  intro a b h
  simp at h

lemma Tight.concat {word : List Char} (h : Tight word) {c : Char}
    (hc : c = ' ' → InLiteral word ∨ word.getLast? = some ':') : Tight (word ++ [c]) := by
  intro a b he
  obtain rfl | ⟨b, d, rfl⟩ := b.eq_nil_or_concat'
  · obtain ⟨rfl, hcs⟩ := List.append_inj' he rfl
    exact hc (List.cons.inj hcs).1
  · rw [← List.cons_append, ← List.append_assoc] at he
    exact h a b (List.append_inj' he rfl).1

namespace Scan

variable {s : Scan}

/-- The words read so far have no place for a break, and the finished ones leave no literal open. -/
structure Firm (s : Scan) : Prop where
  sane : s.Sane
  tight : Tight s.word.reverse
  reader : Reader.outside.read s.word.reverse = s.reader
  done : ∀ g ∈ s.done, Tight g.word ∧ ¬ InLiteral g.word

lemma firm_start : Firm {} := ⟨sane_start, tight_nil, rfl, by simp⟩

lemma Firm.extend {t : Scan} {c : Char} (h : s.Firm) (ht : t.Sane) (hr : t.reader = s.reader.next c)
    (hw : t.word = c :: s.word) (hd : t.done = s.done)
    (hc : c = ' ' → InLiteral s.word.reverse ∨ s.word.reverse.getLast? = some ':') :
    t.Firm := by
  refine ⟨ht, ?_, ?_, hd ▸ h.done⟩
  · rw [hw, List.reverse_cons]
    exact h.tight.concat hc
  · rw [hw, List.reverse_cons, Reader.read_append, h.reader, hr]
    rfl

lemma firm_step (h : s.Firm) (c : Char) : (s.step true c).Firm := by
  obtain ⟨ht, hr⟩ := step_sane h.sane c
  by_cases hcolon : (c = ' ' && true && s.word.head? == some ':') = true
  · have hstep : s.step true c = { s with word := c :: s.word } := if_pos hcolon
    rw [hstep] at ht hr ⊢
    refine h.extend ht hr rfl rfl fun _ => .inr ?_
    rw [List.getLast?_reverse]
    simpa using (Bool.and_eq_true_iff.1 hcolon).2
  · by_cases hspace : (c = ' ' && !s.quoted) = true
    · have hstep : s.step true c = s.space := by rw [step, if_neg hcolon, if_pos hspace]
      rw [hstep] at ht
      rw [hstep]
      unfold space at ht ⊢
      split at ht
      · next hw =>
        rw [if_pos hw]
        exact ⟨ht, h.tight, h.reader, h.done⟩
      · next hw =>
        rw [if_neg hw]
        have hout : s.reader = .outside := (reader_eq_outside ht).2 (outside_of_word_nil ht rfl)
        refine ⟨ht, tight_nil, hout.symm, List.forall_mem_cons.2 ⟨⟨h.tight, ?_⟩, h.done⟩⟩
        exact not_not.2 (h.reader.trans hout)
    · have hstep : s.step true c = s.take true c := by rw [step, if_neg hcolon, if_neg hspace]
      rw [hstep] at ht hr ⊢
      refine h.extend ht hr (word_take true s c) (done_take true s c) fun hc => .inl ?_
      have hq : s.quoted = true := by simpa [hc] using hspace
      rw [InLiteral, h.reader, Ne, reader_eq_outside h.sane]
      exact fun ho => Bool.false_ne_true (ho.1.symm.trans hq)

lemma firm_run (h : s.Firm) (text : List Char) : (s.run true text).Firm :=
  run_preserves (P := Firm) (fun _ h c _ => firm_step h c) h

end Scan

/-- A word without a place for a break, behind a gap, which leaves no literal open. -/
structure Segment.Calm (s : Segment) : Prop where
  plain : s.Plain
  tight : Tight s.word
  closed : ¬ InLiteral s.word

lemma calm_of_mem_segments {text : List Char} (hn : '\n' ∉ text) (hc : ¬ InLiteral text) :
    ∀ s ∈ segments true text, s.Calm := by
  have hf : (Scan.run true {} text).Firm := Scan.firm_run Scan.firm_start text
  intro s hs
  have hp : s.Plain := plain_of_mem_segments hn hs
  rcases List.mem_cons.1 (List.mem_reverse.1 hs) with rfl | hs
  · have ho := (Scan.reader_eq_outside hf.sane).2 ((Scan.outside_iff text).2 hc)
    exact ⟨hp, hf.tight, not_not.2 (hf.reader.trans ho)⟩
  · obtain ⟨ht, hl⟩ := hf.done s hs
    exact ⟨hp, ht, hl⟩

/-! ### Lines that are too long -/

/-- A character of two texts stands in one of them. -/
lemma append_eq_append_cons {x y a b : List Char} {c : Char} (h : x ++ y = a ++ c :: b) :
    (∃ z, x = a ++ c :: z) ∨ ∃ z, a = x ++ z ∧ y = z ++ c :: b := by
  rcases List.append_eq_append_iff.1 h with ⟨z, ha, hy⟩ | ⟨z, hx, hc⟩
  · exact .inr ⟨z, ha, hy⟩
  · cases z with
    | nil =>
      rw [List.append_nil] at hx
      exact .inr ⟨[], by rw [hx, List.append_nil], hc.symm⟩
    | cons d z =>
      obtain rfl : c = d := (List.cons.inj hc).1
      exact .inl ⟨z, hx⟩

/-- Behind `line` a space can give way to a break: it is outside of literals and not behind a
colon, and in front of the spaces it belongs to there are more characters than in front of a
continued line. -/
structure Breakable (margin : Nat) (line : List Char) : Prop where
  outside : ¬ InLiteral line
  colon : line.getLast? ≠ some ':'
  far : ∀ front spaces, line = front ++ spaces → (∀ c ∈ spaces, c = ' ') → margin < front.length

lemma Breakable.far_self {margin : Nat} {line : List Char} (h : Breakable margin line) :
    margin < line.length := h.far line [] (List.append_nil line).symm (by simp)

/-- In front of a single space there are all the characters of the line. -/
lemma Breakable.single {margin : Nat} {line : List Char} (ho : ¬ InLiteral line)
    (hc : line.getLast? ≠ some ':') (hs : line.getLast? ≠ some ' ') (hl : margin < line.length) :
    Breakable margin line := by
  refine ⟨ho, hc, fun front spaces he hsp => ?_⟩
  obtain rfl | ⟨spaces, c, rfl⟩ := spaces.eq_nil_or_concat'
  · rw [he, List.append_nil] at hl
    exact hl
  · rw [he, ← List.append_assoc, List.getLast?_concat, hsp c (by simp)] at hs
    exact absurd rfl hs

/-- A text at whose end a line starts. -/
def StartsLine (text : List Char) : Prop := text = [] ∨ text.getLast? = some '\n'

/-- A line behind some lines is the only one there that starts behind a newline. -/
lemma StartsLine.suffix {before earlier : List Char} (h : StartsLine (before ++ earlier))
    (hn : '\n' ∉ earlier) : earlier = [] := by
  obtain rfl | ⟨front, c, rfl⟩ := earlier.eq_nil_or_concat'
  · rfl
  · rcases h with h | h
    · simp at h
    · rw [← List.append_assoc, List.getLast?_concat] at h
      simp [Option.some.inj h] at hn

lemma StartsLine.unique {before earlier l line : List Char} (he : before ++ l = earlier ++ line)
    (hb : StartsLine before) (hs : StartsLine earlier) (hl : '\n' ∉ l) (hn : '\n' ∉ line) :
    before = earlier ∧ l = line := by
  rcases List.append_eq_append_iff.1 he with ⟨z, rfl, rfl⟩ | ⟨z, rfl, rfl⟩
  · obtain rfl := hs.suffix fun hm => hl (List.mem_append_left _ hm)
    simp
  · obtain rfl := hb.suffix fun hm => hn (List.mem_append_left _ hm)
    simp

/-- The start of the line up to some place is part of a start that is within the width and ends
at a mark. -/
def Covered (width : Nat) (mark : List Char → Prop) (earlier line front : List Char) : Prop :=
  ∃ x y, line = x ++ y ∧ x.length ≤ width ∧ front.length < x.length ∧ mark (earlier ++ x)

/-- If the line is too long, all spaces where it can be broken stand in a start of it that ends
at a mark. -/
def Excused (width margin : Nat) (mark : List Char → Prop) (earlier line : List Char) : Prop :=
  width < line.length → ∀ a b, line = a ++ ' ' :: b → Breakable margin a →
    Covered width mark earlier line a

/-- A text of ended lines and the line that is being written, all of which are excused. -/
structure Sound (width margin : Nat) (mark : List Char → Prop) (earlier line : List Char) :
    Prop where
  start : StartsLine earlier
  oneLine : '\n' ∉ line
  closed : ¬ InLiteral line
  current : Excused width margin mark earlier line
  ended : ∀ before l after, earlier = before ++ l ++ '\n' :: after → StartsLine before →
    '\n' ∉ l → Excused width margin mark before l

namespace Sound

variable {width margin : Nat} {mark : List Char → Prop} {earlier line : List Char}

lemma nil : Sound width margin mark [] [] := by
  refine ⟨.inl rfl, List.not_mem_nil, not_inLiteral_of_no_quote List.not_mem_nil, ?_, ?_⟩
  · intro h
    simp at h
  · intro before l after h
    simp at h

/-- The line goes on with a word that stays behind its gap. Without a gap the line must have come
to a mark. -/
lemma goOn (h : Sound width margin mark earlier line) {s : Segment} (hs : s.Calm)
    (hstay : s.gap = [] ∨ (line ++ s.text).length ≤ width ∨ line.length ≤ margin)
    (hmark : s.gap = [] → mark (earlier ++ line) ∨ line.length ≤ margin) :
    Sound width margin mark earlier (line ++ s.text) := by
  obtain ⟨⟨hg, hn⟩, htight, hclosed⟩ := hs
  have hgap : ¬ InLiteral (line ++ s.gap) :=
    (inLiteral_append_iff h.closed _).not.2 (not_inLiteral_of_spaces hg)
  refine ⟨h.start, ?_, ?_, ?_, h.ended⟩
  · simp [Segment.text, h.oneLine, newline_not_mem_of_spaces hg, hn]
  · rw [Segment.text, ← List.append_assoc, inLiteral_append_iff hgap]
    exact hclosed
  · intro hlong a b he hb
    rcases append_eq_append_cons he with ⟨z, hz⟩ | ⟨a, rfl, hz⟩
    · -- the line has the space already, so it is beyond the margin, and the word stands there
      -- without a gap
      have hlt : a.length < line.length := by simp [hz]
      have hfar := hb.far_self
      have hgap : s.gap = [] := by
        rcases hstay with hg | hw | hm
        · exact hg
        · omega
        · omega
      have hm : mark (earlier ++ line) := (hmark hgap).resolve_right (by omega)
      by_cases hfit : line.length ≤ width
      · exact ⟨line, s.text, rfl, hfit, hlt, hm⟩
      · obtain ⟨x, y, hxy, hx, ha, hmx⟩ := h.current (by omega) a z hz hb
        exact ⟨x, y ++ s.text, by rw [hxy, List.append_assoc], hx, ha, hmx⟩
    · rcases append_eq_append_cons hz with ⟨z, hgz⟩ | ⟨w, rfl, hwz⟩
      · have hfar : margin < line.length := by
          refine hb.far line a rfl fun c hc => hg c ?_
          rw [hgz]
          exact List.mem_append_left _ hc
        rcases hstay with hg | hw | hm
        · simp [hgz] at hg
        · omega
        · omega
      · rcases htight w b hwz with hi | hc
        · refine absurd ?_ hb.outside
          rw [← List.append_assoc, inLiteral_append_iff hgap]
          exact hi
        · refine absurd ?_ hb.colon
          have hw : w ≠ [] := by
            rintro rfl
            simp at hc
          rw [← List.append_assoc, List.getLast?_append_of_ne_nil _ hw]
          exact hc

/-- The line comes to its end. -/
lemma endLine (h : Sound width margin mark earlier line) :
    Sound width margin mark (earlier ++ line ++ ['\n']) [] := by
  have hn : Sound width margin mark [] [] := nil
  refine ⟨.inr (by simp), hn.oneLine, hn.closed, ?_, ?_⟩
  · intro hl
    simp at hl
  · intro before l after he hs hl
    rw [List.append_assoc] at he
    rcases append_eq_append_cons he with ⟨z, hz⟩ | ⟨z, hbl, hz⟩
    · exact h.ended before l z hz hs hl
    · rcases append_eq_append_cons hz with ⟨w, hw⟩ | ⟨w, rfl, hw⟩
      · exact absurd (by simp [hw]) h.oneLine
      · obtain rfl : w = [] := by
          cases w with
          | nil => rfl
          | cons d w => simp at hw
        rw [List.append_nil] at hbl
        obtain ⟨rfl, rfl⟩ := StartsLine.unique hbl hs h.start hl h.oneLine
        exact h.current

/-- A word is placed on the line, or on the next if a break is needed and useful. -/
lemma place (h : Sound width margin mark earlier line) {continuation : Margin}
    (hk : continuation.length = margin) (hu : ∀ c ∈ continuation.text, c = ' ') {c : Cursor}
    (hc : c.column = line.length) (hh : ∀ a ∈ c.held, a = ' ') {s : Segment} (hs : s.Calm)
    (hmark : mark (earlier ++ line) ∨ line.length ≤ margin ∨ s.gap ≠ []) :
    ∃ ended current, earlier ++ line ++ (c.place width continuation s).1 = ended ++ current ∧
      Sound width margin mark ended current ∧
      (c.place width continuation s).2.column = current.length ∧
      ∀ a ∈ (c.place width continuation s).2.held, a = ' ' := by
  have hb : ∀ a ∈ c.gapBefore s, a = ' ' := List.forall_mem_append.2 ⟨hh, hs.plain.1⟩
  by_cases hw : s.word = []
  · have hplace : Cursor.place width continuation c s = ([], { c with held := c.gapBefore s }) := by
      simp [Cursor.place, hw]
    rw [hplace, List.append_nil]
    exact ⟨earlier, line, rfl, h, hc, hb⟩
  · have hr : Row.text ⟨line, [], []⟩ = line := List.append_nil line
    have hcr : c.column = (Row.text ⟨line, [], []⟩).length := by rw [hr, hc]
    by_cases hbr : Row.Breaks width continuation ⟨line, [], []⟩ ⟨c.gapBefore s, s.word⟩
    · -- the word starts a line, behind the continuation instead of a gap
      have hbroken : Segment.Calm ⟨continuation.text, s.word⟩ :=
        ⟨⟨hu, hs.plain.2⟩, hs.tight, hs.closed⟩
      have hsound := h.endLine.goOn hbroken (.inr (.inr (Nat.zero_le margin)))
        fun _ => .inr (Nat.zero_le margin)
      have hplace := Cursor.place_of_breaks hw hcr hbr
        (by rw [Row.text_broken]; exact hsound.oneLine)
      rw [hplace, Row.text_broken]
      exact ⟨_, _, by simp [Segment.text], hsound, rfl, by simp⟩
    · have hstays : Segment.Calm ⟨c.gapBefore s, s.word⟩ :=
        ⟨⟨hb, hs.plain.2⟩, hs.tight, hs.closed⟩
      have hsound : Sound width margin mark earlier (line ++ (c.gapBefore s ++ s.word)) := by
        refine h.goOn hstays ?_ fun hg => ?_
        · rw [Row.Breaks, hr, hk] at hbr
          by_contra hn
          simp only [not_or, not_le] at hn
          exact hbr hn
        · rcases hmark with hm | hm | hm
          · exact .inl hm
          · exact .inr hm
          · exact absurd (List.append_eq_nil_iff.1 hg).2 hm
      have hplace := Cursor.place_of_stays hw hcr hbr
        (fun hm => hsound.oneLine (List.mem_append_right line hm))
      have hadd : (Row.add ⟨line, [], []⟩ ⟨c.gapBefore s, s.word⟩).text =
          line ++ (c.gapBefore s ++ s.word) := by
        rw [Row.text_add, hr]
        rfl
      rw [hplace, hadd]
      exact ⟨_, _, List.append_assoc .., hsound, rfl, by simp⟩

lemma placeAll (h : Sound width margin mark earlier line) {continuation : Margin}
    (hk : continuation.length = margin) (hu : ∀ c ∈ continuation.text, c = ' ') {c : Cursor}
    (hc : c.column = line.length) (hh : ∀ a ∈ c.held, a = ' ') {ss : List Segment}
    (hs : ∀ s ∈ ss, s.Calm) (hp : Parted ss)
    (hmark : mark (earlier ++ line) ∨ line.length ≤ margin ∨ ∀ s ∈ ss, s.gap ≠ []) :
    ∃ ended current, earlier ++ line ++ (c.placeAll width continuation ss).1 = ended ++ current ∧
      Sound width margin mark ended current ∧
      (c.placeAll width continuation ss).2.column = current.length ∧
      ∀ a ∈ (c.placeAll width continuation ss).2.held, a = ' ' := by
  induction ss generalizing c earlier line with
  | nil => exact ⟨earlier, line, List.append_nil _, h, hc, hh⟩
  | cons s ss ih =>
    obtain ⟨hcalm, hss⟩ := List.forall_mem_cons.1 hs
    -- only the first word may stand without a gap
    have hrest : ∀ t ∈ ss, t.gap ≠ [] := hp
    have hpss : Parted ss := fun t ht => hrest t (List.mem_of_mem_tail ht)
    obtain ⟨ended, current, he, hsound, hcol, hheld⟩ := h.place hk hu hc hh hcalm
      (hmark.imp_right fun hm => hm.imp_right fun hg => hg s List.mem_cons_self)
    obtain ⟨ended', current', he', hr⟩ := ih hsound hcol hheld hss hpss (.inr (.inr hrest))
    rw [Cursor.placeAll_cons]
    exact ⟨ended', current', by rw [← List.append_assoc, he, he'], hr⟩

end Sound

namespace Writer

variable {w : Writer} {mark : List Char → Prop} {text : List Char}

lemma spaces_copies {unit : List Char} (hu : ∀ c ∈ unit, c = ' ') (n : Nat) :
    ∀ c ∈ copies n unit, c = ' ' := by
  intro c hc
  rw [copies_eq, List.mem_flatten] at hc
  obtain ⟨l, hl, hc⟩ := hc
  exact hu c (List.eq_of_mem_replicate hl ▸ hc)

/-- A writer of declarations behind a text whose lines are all excused. -/
structure Behind (mark : List Char → Prop) (text : List Char) (w : Writer) : Prop where
  comment : w.comment = false
  unit : ∀ c ∈ w.style.unit, c = ' '
  held : ∀ c ∈ w.cursor.held, c = ' '
  lines : ∃ earlier line, text = earlier ++ line ∧ w.cursor.column = line.length ∧
    (w.lineStart = true → line = [] ∧ w.cursor.held = []) ∧
    Sound w.style.lineWidth w.continuation.length mark earlier line

lemma behind_fresh {style : Style} (hu : ∀ c ∈ style.unit, c = ' ') (level : Nat) :
    Behind mark [] (fresh style level false) :=
  ⟨rfl, hu, by simp [fresh], [], [], rfl, rfl, fun _ => ⟨rfl, rfl⟩, .nil⟩

namespace Behind

lemma margin_le_continuation (hc : w.comment = false) :
    w.margin.text.length ≤ w.continuation.length := by
  have hle : w.level * w.style.unit.length ≤
      (w.level + 2 * w.style.indentSize) * w.style.unit.length :=
    Nat.mul_le_mul_right _ (Nat.le_add_right _ _)
  simpa [Margin.length_text, Margin.length, margin, continuation, hc, indentation] using hle

lemma spaces_margin (h : Behind mark text w) : ∀ c ∈ w.margin.text, c = ' ' := by
  have hm : w.margin.text = copies w.level w.style.unit := by
    simp [margin, h.comment, Margin.text, indentation]
  rw [hm]
  exact spaces_copies h.unit _

lemma spaces_continuation (h : Behind mark text w) : ∀ c ∈ w.continuation.text, c = ' ' := by
  have hm : w.continuation.text = copies (w.level + 2 * w.style.indentSize) w.style.unit := by
    simp [continuation, margin, h.comment, Margin.text, indentation]
  rw [hm]
  exact spaces_copies h.unit _

/-- At the start of a line the margin is written, which is no longer than the continuation. -/
lemma openLine (h : Behind mark text w) (hm : mark text) :
    ∃ earlier line, text ++ w.openLine.1 = earlier ++ line ∧
      w.openLine.2.cursor.column = line.length ∧ (∀ c ∈ w.openLine.2.cursor.held, c = ' ') ∧
      Sound w.style.lineWidth w.continuation.length mark earlier line ∧
      (mark (earlier ++ line) ∨ line.length ≤ w.continuation.length) := by
  obtain ⟨earlier, line, ht, hcol, hstart, hs⟩ := h.lines
  unfold Writer.openLine
  split
  · next hl =>
    obtain ⟨rfl, hheld⟩ := hstart hl
    have hcalm : Segment.Calm ⟨w.margin.text, []⟩ :=
      ⟨⟨h.spaces_margin, List.not_mem_nil⟩, tight_nil, not_inLiteral_of_no_quote List.not_mem_nil⟩
    have hsm := hs.goOn hcalm (.inr (.inr (Nat.zero_le _))) fun _ => .inr (Nat.zero_le _)
    have hmt : Segment.text ⟨w.margin.text, []⟩ = w.margin.text := List.append_nil _
    rw [hmt, List.nil_append] at hsm
    refine ⟨earlier, w.margin.text, ?_, ?_, ?_, hsm, .inr (margin_le_continuation h.comment)⟩
    · rw [ht]
      simp [append, Cursor.append, hheld]
    · have hc := columnAfter_of_no_newline hsm.oneLine w.cursor.column
      rw [hcol] at hc
      simpa [append, Cursor.append, hheld, hcol] using hc
    · simp [append, Cursor.append]
  · exact ⟨earlier, line, by rw [ht, List.append_nil], hcol, h.held, hs, .inl (ht ▸ hm)⟩

lemma continuation_of_frame {v : Writer} (h : v.frame = w.frame) :
    v.continuation = w.continuation := by
  obtain ⟨hs, hr⟩ := Prod.mk.inj h
  obtain ⟨hl, hc⟩ := Prod.mk.inj hr
  rw [continuation, continuation, margin, margin, indentation, indentation, hs, hl, hc]

lemma run_eq (hc : w.comment = false) {r : List Char} (hr : r ≠ []) :
    w.run r = (w.openLine.1 ++ (w.openLine.2.cursor.placeAll w.style.lineWidth w.continuation
        (segments true r)).1, { w.openLine.2 with
          cursor := (w.openLine.2.cursor.placeAll w.style.lineWidth w.continuation
            (segments true r)).2,
          lineStart := false }) := by
  have hn : ¬ r.isEmpty = true := by simpa using hr
  rw [Writer.run, if_neg hn, hc]
  rfl

/-- A run that leaves no literal open, written behind a mark. -/
lemma run (h : Behind mark text w) (hm : mark text) {r : List Char} (hn : '\n' ∉ r)
    (hc : ¬ InLiteral r) : Behind mark (text ++ (w.run r).1) (w.run r).2 := by
  obtain ⟨hstyle, hframe⟩ := Prod.mk.inj (frame_run w r)
  obtain ⟨-, hcomment⟩ := Prod.mk.inj hframe
  by_cases hr : r = []
  · subst hr
    rw [show w.run [] = ([], w) from rfl, List.append_nil]
    exact h
  · obtain ⟨earlier, line, ht, hcol, hheld, hs, hmark⟩ := h.openLine hm
    obtain ⟨ended, current, he, hsc, hcc, hhc⟩ := hs.placeAll rfl h.spaces_continuation hcol hheld
      (calm_of_mem_segments hn hc) (parted_segments true r)
      (hmark.imp_right .inl)
    have hrun := run_eq h.comment hr
    refine ⟨hcomment.trans h.comment, hstyle ▸ h.unit, ?_, ended, current, ?_, ?_, ?_, ?_⟩
    · rw [hrun]
      exact hhc
    · rw [hrun, ← List.append_assoc, ht, he]
    · rw [hrun]
      exact hcc
    · rw [hrun]
      intro hl
      cases hl
    · rw [continuation_of_frame (frame_run w r), show (w.run r).2.style = w.style from hstyle]
      exact hsc

/-- Several runs, between which there are marks. -/
lemma runs (h : Behind mark text w) {runs : List (List Char)}
    (hr : ∀ run ∈ runs, '\n' ∉ run ∧ ¬ InLiteral run)
    (hm : ∀ done todo, runs = done ++ todo → mark (text ++ (writeAll Writer.run w done).1)) :
    Behind mark (text ++ (writeAll Writer.run w runs).1) (writeAll Writer.run w runs).2 := by
  induction runs generalizing text w with
  | nil => simpa using h
  | cons run runs ih =>
    obtain ⟨⟨hn, hc⟩, hrs⟩ := List.forall_mem_cons.1 hr
    have hfirst : mark text := by simpa using hm [] (run :: runs) rfl
    have hi := ih (h.run hfirst hn hc) hrs fun done todo he => by
      have hd := hm (run :: done) todo (by rw [he, List.cons_append])
      rwa [writeAll_cons, ← List.append_assoc] at hd
    rwa [writeAll_cons, ← List.append_assoc]

/-- A statement ends with the end of its line. -/
lemma endStatement (h : Behind mark text w) (hm : mark text) :
    ∀ before l after, text ++ (w.emit ";\n".toList).1 = before ++ l ++ '\n' :: after →
      StartsLine before → '\n' ∉ l →
      Excused w.style.lineWidth w.continuation.length mark before l := by
  have hr := h.run hm (r := [';']) (by decide) (by decide)
  obtain ⟨earlier, line, ht, -, -, hs⟩ := hr.lines
  have hrun := run_eq h.comment (r := [';']) (by decide)
  have hn : (w.run [';']).2.newline.1 = ['\n'] := by
    have hheld : (w.run [';']).2.cursor.held = [] := by
      rw [hrun]
      exact Cursor.held_place _ ⟨[], [';']⟩
    have hstart : (w.run [';']).2.lineStart = false := by rw [hrun]
    simp [newline, append, Cursor.append, hheld, hstart]
  rw [show ";\n".toList = [';'] ++ ['\n'] from rfl, emit_ended (by decide), hn,
    ← List.append_assoc, ht]
  rw [continuation_of_frame (frame_run w [';']),
    show (w.run [';']).2.style = w.style from congrArg Prod.fst (frame_run w [';'])] at hs
  exact hs.endLine.ended

end Behind

/-- A statement whose parts leave no literal open, where a mark stands behind each of the parts. -/
lemma excused_statement {style : Style} (hu : ∀ c ∈ style.unit, c = ' ') {parts : List (List Char)}
    (hp : ∀ p ∈ parts, '\n' ∉ p ∧ ¬ InLiteral p)
    (hm : ∀ done todo, parts = done ++ todo → mark (writeAll emit (fresh style 0 false) done).1)
    {before l after : List Char}
    (he : (writeAll emit (fresh style 0 false) (parts ++ [";\n".toList])).1 =
      before ++ l ++ '\n' :: after)
    (hb : StartsLine before) (hl : '\n' ∉ l) :
    Excused style.lineWidth (2 * style.indentSize * style.unit.length) mark before l := by
  have hmark : ∀ done todo, parts = done ++ todo →
      mark ([] ++ (writeAll Writer.run (fresh style 0 false) done).1) := by
    intro done todo hd
    have hdone : ∀ p ∈ done, '\n' ∉ p := fun p hm => (hp p (by simp [hd, hm])).1
    rw [List.nil_append, ← writeAll_emit hdone]
    exact hm done todo hd
  have hstart : Behind mark [] (fresh style 0 false) := behind_fresh hu 0
  have hend := (hstart.runs hp hmark).endStatement (hmark parts [] (List.append_nil _).symm)
  -- the parts change neither the style nor the indentation
  have hframe := writeAll_preserves frame frame_run (fresh style 0 false) parts
  have hstyle : (writeAll Writer.run (fresh style 0 false) parts).2.style = style :=
    congrArg Prod.fst hframe
  have hk : (fresh style 0 false).continuation.length =
      2 * style.indentSize * style.unit.length := by
    simp [continuation, margin, indentation, fresh, Margin.length]
  rw [Behind.continuation_of_frame hframe, hk, hstyle] at hend
  refine hend before l after ?_ hb hl
  rw [← he, writeAll_append, writeAll_emit fun p hm => (hp p hm).1, writeAll_cons, writeAll_nil,
    List.append_nil, List.nil_append]

end Writer

end Layout

/-! ### Scripts that write runs of a line -/

/-- A text without quotes and newlines. -/
def Bare (s : String) : Prop := '"' ∉ s.toList ∧ '\n' ∉ s.toList

instance : DecidablePred Bare :=
  fun s => inferInstanceAs (Decidable ('"' ∉ s.toList ∧ '\n' ∉ s.toList))

lemma Bare.append {a b : String} (ha : Bare a) (hb : Bare b) : Bare (a ++ b) :=
  ⟨by simp [ha.1, hb.1], by simp [ha.2, hb.2]⟩

lemma IsNumber.bare {s : String} (h : IsNumber s) : Bare s :=
  ⟨h.2.not_mem (by decide), h.2.not_mem (by decide)⟩

namespace Print

/-- The step writes a text without newlines that leaves no literal open, or it fails. -/
def Step.Calm : Step → Prop
  | .emit text => '\n' ∉ text.toList ∧ ¬ InLiteral text.toList
  | .fail _ => True
  | _ => False

lemma exists_parts {s : Script} (h : ∀ step ∈ s, step.Calm) (hf : s.fault? = none) :
    ∃ parts : List String, s = parts.map .emit ∧
      ∀ p ∈ parts.map String.toList, '\n' ∉ p ∧ ¬ InLiteral p := by
  induction s with
  | nil => exact ⟨[], rfl, by simp⟩
  | cons step s ih =>
    obtain ⟨hstep, hs⟩ := List.forall_mem_cons.1 h
    rw [Script.fault?_cons, Option.or_eq_none_iff] at hf
    obtain ⟨parts, rfl, hp⟩ := ih hs hf.2
    cases step with
    | emit text => exact ⟨text :: parts, rfl, List.forall_mem_cons.2 ⟨hstep, hp⟩⟩
    | fail e => simp [Step.fault?] at hf
    | comment | indent | unindent | body => exact hstep.elim

lemma Step.calm_emit {text : String} (h : Bare text) : (Step.emit text).Calm :=
  ⟨h.2, not_inLiteral_of_no_quote h.1⟩

lemma calm_literal {before after : String} (hb : Bare before) (ha : Bare after) {type : FieldType}
    {value : Scalar} (hm : type.mismatch? value = none) (he : type = .enum → Bare value.plainText) :
    (Step.literal before (type.format value) after).Calm := by
  cases hl : type.format value with
  | error e => trivial
  | ok literal =>
    have hlit : '\n' ∉ literal.toList ∧ ¬ InLiteral literal.toList := by
      by_cases hq : type.isQuoted
      · obtain ⟨q, hq, hquoted⟩ := FieldType.format_quoted hq value
        obtain rfl : literal = q := Except.ok.inj (hl.symm.trans hq)
        exact ⟨hquoted.newline_not_mem, not_inLiteral_of_quoted hquoted⟩
      · have hbare : Bare literal := by
          rcases FieldType.format_cases hm (by simpa using hq) hl with ⟨ht, rfl⟩ | rfl | rfl | hn
          · exact he ht
          · decide
          · decide
          · exact IsNumber.bare hn
        exact Step.calm_emit hbare
    refine ⟨by simp [hb.2, hlit.1, ha.2], ?_⟩
    rw [String.toList_append, String.toList_append, List.append_assoc,
      inLiteral_append_iff (not_inLiteral_of_no_quote hb.1), inLiteral_append_iff hlit.2]
    exact not_inLiteral_of_no_quote ha.1

lemma forall_mem_intercalate {P : Step → Prop} {b : Script} (hb : ∀ step ∈ b, P step)
    {ss : List Script} (h : ∀ s ∈ ss, ∀ step ∈ s, P step) :
    ∀ step ∈ List.intercalate b ss, P step := by
  induction ss with
  | nil => simp
  | cons s ss ih =>
    obtain ⟨hs, hss⟩ := List.forall_mem_cons.1 h
    by_cases hn : ss = []
    · subst hn
      simpa using hs
    · rw [List.intercalate_cons_of_ne_nil hn]
      exact List.forall_mem_append.2 ⟨List.forall_mem_append.2 ⟨hs, hb⟩, ih hss⟩

end Print

namespace OptionDecl

variable {o : OptionDecl}

lemma bare_writtenName (h : Bare o.name) : Bare o.writtenName := by
  unfold writtenName
  split
  · exact h
  · exact (Bare.append (by decide) h).append (by decide)

/-- The names of the option and the texts of its enum values are bare. -/
structure BareTexts (o : OptionDecl) : Prop where
  names : ∀ name ∈ o.names, Bare name
  enums : ∀ v ∈ o.typedValues, v.1 = .enum → Bare v.2.plainText

lemma calm_inlineScript (hw : o.value.WellFormed) (hb : o.BareTexts) :
    ∀ step ∈ o.inlineScript, step.Calm := by
  have hn := bare_writtenName (hb.names o.name List.mem_cons_self)
  have henums := hb.enums
  have hnames := hb.names
  unfold typedValues at henums
  unfold names at hnames
  unfold inlineScript
  cases hv : o.value with
  | literal type value =>
    rw [hv] at hw henums
    refine List.forall_mem_singleton.2 (calm_literal (hn.append (by decide)) (by decide) hw ?_)
    exact henums _ List.mem_cons_self
  | entries es =>
    rw [hv] at hw henums hnames
    refine List.forall_mem_cons.2 ⟨Step.calm_emit (hn.append (by decide)),
      List.forall_mem_append.2 ⟨?_, ?_⟩⟩
    · refine List.forall_mem_map.2 fun e he => calm_literal ?_ (by decide) (hw e he) ?_
      · exact (hnames _ (List.mem_cons_of_mem _ (List.mem_map_of_mem he))).append (by decide)
      · exact henums _ (List.mem_map_of_mem he)
    · exact List.forall_mem_singleton.2 (Step.calm_emit (by decide))

lemma calm_bracketScript {options : List OptionDecl} (hw : ∀ o ∈ options, o.value.WellFormed)
    (hb : ∀ o ∈ options, o.BareTexts) : ∀ step ∈ bracketScript options, step.Calm := by
  unfold bracketScript
  split
  · simp
  · have hi := forall_mem_intercalate (P := Step.Calm) (b := [.emit ", "])
      (List.forall_mem_singleton.2 (Step.calm_emit (by decide)))
      (List.forall_mem_map.2 fun o ho => calm_inlineScript (hw o ho) (hb o ho))
    refine List.forall_mem_cons.2 ⟨Step.calm_emit (by decide), List.forall_mem_append.2 ⟨hi, ?_⟩⟩
    exact List.forall_mem_singleton.2 (Step.calm_emit (by decide))

end OptionDecl

/-! ### Declarations on a line -/

lemma exists_parts_lineScript (comment : List String) {number : Int} {text : String}
    {options : List OptionDecl} (ht : Bare text) (hw : ∀ o ∈ options, o.value.WellFormed)
    (hb : ∀ o ∈ options, o.BareTexts)
    (hf : Script.fault? (lineScript comment number text options) = none) :
    ∃ parts : List String, lineScript comment number text options =
        .comment comment :: (parts.map .emit ++ [.emit ";\n"]) ∧
      ∀ p ∈ parts.map String.toList, '\n' ∉ p ∧ ¬ InLiteral p := by
  obtain ⟨hn, hbr⟩ := fault?_lineScript_eq_none hf
  have hs : Script.fault? (.emit text :: OptionDecl.bracketScript options) = none := by
    simpa [Step.fault?] using hbr
  have hc : ∀ step ∈ Step.emit text :: OptionDecl.bracketScript options, step.Calm :=
    List.forall_mem_cons.2 ⟨Step.calm_emit ht, OptionDecl.calm_bracketScript hw hb⟩
  obtain ⟨parts, he, hp⟩ := exists_parts hc hs
  exact ⟨parts, by rw [lineScript, hn, ← he, List.cons_append], hp⟩

namespace Node

/-- A field or an enum value. -/
def IsOnLine : Node → Prop
  | .field _ | .mapField _ | .enumValue _ => True
  | _ => False

/-- The names that a field or an enum value is written with, and those of its options. -/
def lineNames : Node → List String
  | .field f => f.label :: f.name :: f.options.flatMap OptionDecl.names
  | .mapField f => f.valueLabel :: f.name :: f.options.flatMap OptionDecl.names
  | .enumValue v => v.name :: v.options.flatMap OptionDecl.names
  | _ => []

variable {n : Node}

lemma bareTexts_of_names {options : List OptionDecl}
    (hn : ∀ name ∈ options.flatMap OptionDecl.names, Bare name)
    (hv : ∀ v ∈ valuesOf options, v.1 = .enum → Bare v.2.plainText) :
    ∀ o ∈ options, o.BareTexts :=
  fun o ho => ⟨fun name hm => hn name (List.mem_flatMap.2 ⟨o, ho, hm⟩),
    fun v hm => hv v (List.mem_flatMap.2 ⟨o, ho, hm⟩)⟩

lemma exists_lineScript (hi : n.IsOnLine) (hw : n.WellFormed) (hn : ∀ name ∈ n.lineNames, Bare name)
    (hv : ∀ v ∈ n.typedValues, v.1 = .enum → Bare v.2.plainText) :
    ∃ comment number text options, n.script = lineScript comment number text options ∧
      Bare text ∧ (∀ o ∈ options, o.value.WellFormed) ∧ ∀ o ∈ options, o.BareTexts := by
  have hint : ∀ k : Int, Bare (toString k) := fun k => (IsNumber.toString_int k).bare
  cases n with
  | field f =>
    obtain ⟨hl, hn⟩ := List.forall_mem_cons.1 hn
    obtain ⟨hname, hn⟩ := List.forall_mem_cons.1 hn
    have hm : Bare (leading f.modifier.name) := by cases f.modifier <;> decide
    exact ⟨_, _, _, _, rfl, (((hm.append hl).append (by decide)).append hname).append (by decide)
      |>.append (hint _), fun o ho => (hw.options o ho).value, bareTexts_of_names hn hv⟩
  | mapField f =>
    obtain ⟨hl, hn⟩ := List.forall_mem_cons.1 hn
    obtain ⟨hname, hn⟩ := List.forall_mem_cons.1 hn
    have hk : Bare f.keyType.name := by cases f.keyType <;> decide
    have ht := ((((Bare.append (a := "map<") (by decide) hk).append (b := ", ") (by decide)).append
      hl).append (b := "> ") (by decide)).append hname
    exact ⟨_, _, _, _, rfl, (ht.append (by decide)).append (hint _),
      fun o ho => (hw.options o ho).value, bareTexts_of_names hn hv⟩
  | enumValue v =>
    obtain ⟨hname, hn⟩ := List.forall_mem_cons.1 hn
    exact ⟨_, _, _, _, rfl, (hname.append (by decide)).append (hint _),
      fun o ho => (hw.options o ho).value, bareTexts_of_names hn hv⟩
  | _ => exact hi.elim

/-- **Lines of a declaration**: if a line of a field or of an enum value is too long, all spaces
where it could be broken stand in a start of the line that is not too long, and that was what the
line had when one of the texts of the declaration had been written. -/
theorem print_excused (n : Node) (hi : n.IsOnLine) (hw : n.WellFormed)
    (hn : ∀ name ∈ n.lineNames, Bare name)
    (hv : ∀ v ∈ n.typedValues, v.1 = .enum → Bare v.2.plainText) (style : Style)
    (hu : ∀ c ∈ style.unit, c = ' ') {text : String} (hp : n.print style = .ok text) :
    ∃ (comment : List String) (steps : Script) (body : List Char),
      n.script = .comment comment :: steps ∧
      text.toList = ((Writer.ofStyle style).emitComment comment).1 ++ body ∧
      ∀ before l after, body = before ++ l ++ '\n' :: after → StartsLine before →
        '\n' ∉ l → style.lineWidth < l.length → ∀ a b, l = a ++ ' ' :: b →
          Breakable (2 * style.indentSize * style.unit.length) a →
          ∃ done todo x y, n.script = done ++ todo ∧ l = x ++ y ∧
            x.length ≤ style.lineWidth ∧ a.length < x.length ∧
            (Script.run done (.ofStyle style)).text =
              ((Writer.ofStyle style).emitComment comment).1 ++ (before ++ x) := by
  obtain ⟨hf, htext⟩ := print_eq_ok.1 hp
  obtain ⟨comment, number, line, options, hs, hline, ho, hb⟩ := exists_lineScript hi hw hn hv
  obtain ⟨parts, he, hparts⟩ := exists_parts_lineScript comment hline ho hb (hs ▸ hf)
  obtain ⟨_, -, -, hcomment⟩ := exists_commentLines comment
  -- the text of the comment and some of the parts behind it
  have hrun : ∀ ps : List String,
      (Script.run (.comment comment :: ps.map .emit) (.ofStyle style)).text =
      ((Writer.ofStyle style).emitComment comment).1 ++
        (writeAll Writer.emit (Writer.fresh style 0 false) (ps.map String.toList)).1 := by
    intro ps
    rw [Script.run, Step.run, Outcome.andThen_of_no_error rfl, run_emits]
    have hw : (Writer.ofStyle style).emitComment comment = _ := hcomment style 0
    simp only [Outcome.ofWritten, hw]
  have hscript : n.script = .comment comment :: (parts ++ [";\n"]).map .emit := by
    rw [hs, he, List.map_append]
    rfl
  refine ⟨comment, (parts ++ [";\n"]).map .emit, (writeAll Writer.emit (Writer.fresh style 0 false)
    ((parts ++ [";\n"]).map String.toList)).1, hscript, ?_,
      fun before l after hbody hstart hl => ?_⟩
  · rw [← htext, String.toList_ofList, emit, hscript, hrun]
  · rw [List.map_append, List.map_singleton] at hbody
    have hexcused : Excused style.lineWidth (2 * style.indentSize * style.unit.length)
        (fun p => ∃ done todo, n.script = done ++ todo ∧ (Script.run done (.ofStyle style)).text =
          ((Writer.ofStyle style).emitComment comment).1 ++ p) before l :=
      Writer.excused_statement hu hparts ?_ hbody hstart hl
    · intro hlong a b hab hbreak
      obtain ⟨x, y, hxy, hx, ha, done, todo, hd, hr⟩ := hexcused hlong a b hab hbreak
      exact ⟨done, todo, x, y, hd, hxy, hx, ha, hr⟩
    · intro done todo hd
      obtain ⟨ps, qs, rfl, rfl, rfl⟩ := List.map_eq_append_iff.1 hd
      exact ⟨.comment comment :: ps.map .emit, (qs ++ [";\n"]).map .emit,
        by simp [hscript], hrun ps⟩

/-- A field whose first line is too long: the bracket was put there within the width, and the name
of the option behind it without a gap. -/
theorem print_excused_narrow :
    ∃ f : Field, (field f).IsOnLine ∧ f.WellFormed ∧ (∀ name ∈ (field f).lineNames, Bare name) ∧
      (∀ v ∈ (field f).typedValues, v.1 = .enum → Bare v.2.plainText) ∧
      (field f).print ⟨[' '], 2, 15, by decide, by decide⟩ =
        .ok "string n = 1 [deprecated\n    = true];\n" ∧
      ∃ x y, "string n = 1 [deprecated".toList = x ++ y ∧ x.length ≤ 15 ∧
        "string n = 1".length < x.length := by
  let f : Field := { type := .string, name := "n", number := 1, options :=
    [{ target := .field, name := "deprecated", value := .literal .bool (.bool true) }] }
  have hw : f.WellFormed := ⟨by decide, rfl, List.forall_mem_singleton.2 ⟨rfl, fun _ => rfl, rfl⟩⟩
  have hn : ∀ name ∈ (field f).lineNames, Bare name := by decide
  have hv : ∀ v ∈ (field f).typedValues, v.1 = .enum → Bare v.2.plainText :=
    List.forall_mem_singleton.2 fun h => by cases h
  have hu : ∀ c ∈ [' '], c = ' ' := fun _ => List.eq_of_mem_singleton
  have hp : (field f).print ⟨[' '], 2, 15, by decide, by decide⟩ =
      .ok "string n = 1 [deprecated\n    = true];\n" := by decide +kernel
  obtain ⟨comment, steps, body, hs, ht, hl⟩ := print_excused (field f) trivial hw hn hv _ hu hp
  obtain rfl : f.comment = comment := Step.comment.inj (List.cons.inj hs).1
  have hb : body = "string n = 1 [deprecated\n    = true];\n".toList := ht.symm
  have hbreak : Breakable 4 "string n = 1".toList :=
    .single (by decide) (by decide) (by decide) (by decide)
  obtain ⟨-, -, x, y, -, hxy, hx, ha, -⟩ := hl [] "string n = 1 [deprecated".toList _ hb (.inl rfl)
    (by decide) (by decide) "string n = 1".toList "[deprecated".toList rfl hbreak
  exact ⟨f, trivial, hw, hn, hv, hp, x, y, hxy, hx, ha⟩

/-- A line of the text is too long, though more than a margin stands in front of one of its spaces
outside of literals, and something behind it. -/
def Overflows (n : Node) (style : Style) (text : String) : Prop :=
  n.print style = .ok text ∧ ∃ a b, a ++ ' ' :: b ∈ lines text.toList ∧
    style.lineWidth < (a ++ ' ' :: b).length ∧ ¬ InLiteral a ∧ a.getLast? ≠ some ':' ∧
    2 * style.indentSize * style.unit.length < a.length ∧ ∃ c ∈ b, c ≠ ' '

/-- Lines that are too long with a space to break at: a semicolon behind a line that is full, a gap
that starts at the margin, quotes in the texts of enum values that pair up on the line only, and
spaces in front of a newline in such a text. -/
theorem overflows_narrow :
    (field { type := .string, name := "name", number := 1 }).Overflows
        ⟨[' '], 2, 15, by decide, by decide⟩ "string name = 1;\n" ∧
      (enumValue { name := "abcd  x", number := 1 }).Overflows
        ⟨[' '], 2, 6, by decide, by decide⟩ "abcd  x\n    =\n    1;\n" ∧
      (enumValue { name := "x", number := 1, options := [⟨.enumValue, "p", [], .entries
          [⟨"k", .enum, .text "\""⟩, ⟨"m", .enum, .text "\"a b c"⟩]⟩] }).Overflows
        ⟨[' '], 2, 24, by decide, by decide⟩ "x = 1 [(p) = \x7b k: \" m: \"a b c \x7d];\n" ∧
      (enumValue { name := "x", number := 1, options := [⟨.enumValue, "p", [],
          .literal .enum (.text "y z   \nw")⟩] }).Overflows
        ⟨[' '], 2, 18, by decide, by decide⟩ "x = 1 [(p) = y z   \nw];\n" := by
  refine ⟨⟨by decide +kernel, "string name =".toList, "1;".toList, ?_, ?_, ?_, ?_, ?_, '1', ?_, ?_⟩,
    ⟨by decide +kernel, "abcd ".toList, "x".toList, ?_, ?_, ?_, ?_, ?_, 'x', ?_, ?_⟩,
    ⟨by decide +kernel, "x = 1 [(p) = \x7b k: \" m: \"a b".toList, "c \x7d];".toList,
      ?_, ?_, ?_, ?_, ?_, 'c', ?_, ?_⟩,
    ⟨by decide +kernel, "x = 1 [(p) = y".toList, "z   ".toList, ?_, ?_, ?_, ?_, ?_, 'z', ?_,
      ?_⟩⟩ <;> decide

end Node

end ProtoSchema
