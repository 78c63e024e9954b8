import Mathlib.Tactic.Lemma
import ProtoSchema.Layout.Writer

/-!
Text before any of its lines is broken.

A piece is a text that is written as it is, or a word behind a gap. What becomes of the gap depends
on the width and on the column alone, so the same pieces can be set at any width. If no line is too
long for the width, all gaps are kept.
-/

namespace ProtoSchema.Layout

/-! ### Columns -/

/-- No line of the text goes beyond the width, when it is written from a column. -/
def Fits (width : Nat) : Nat → List Char → Prop
  | column, [] => column ≤ width
  | column, c :: cs => column ≤ width ∧ Fits width (columnAfter column [c]) cs

lemma columnAfter_cons (column : Nat) (c : Char) (cs : List Char) :
    columnAfter column (c :: cs) = columnAfter (columnAfter column [c]) cs := rfl

lemma columnAfter_newline (column : Nat) : columnAfter column ['\n'] = 0 := rfl

lemma columnAfter_char {c : Char} (h : c ≠ '\n') (column : Nat) :
    columnAfter column [c] = column + 1 := by
  simp [columnAfter, h]

lemma columnAfter_of_no_newline {text : List Char} (h : '\n' ∉ text) (column : Nat) :
    columnAfter column text = column + text.length := by
  induction text generalizing column with
  | nil => rfl
  | cons c cs ih =>
    obtain ⟨hc, hcs⟩ := not_or.1 (mt List.mem_cons.2 h)
    rw [columnAfter_cons, columnAfter_char (Ne.symm hc), ih hcs, List.length_cons]
    omega

lemma newline_not_mem_of_spaces {l : List Char} (h : ∀ c ∈ l, c = ' ') : '\n' ∉ l :=
  fun hm => absurd (h _ hm) (by decide)

lemma Fits.start {width column : Nat} {text : List Char} (h : Fits width column text) :
    column ≤ width := by
  cases text with
  | nil => exact h
  | cons c cs => exact h.1

lemma fits_append {width column : Nat} {a b : List Char} :
    Fits width column (a ++ b) ↔ Fits width column a ∧ Fits width (columnAfter column a) b := by
  induction a generalizing column with
  | nil =>
    constructor
    · intro h
      exact ⟨h.start, h⟩
    · exact fun h => h.2
  | cons c cs ih =>
    rw [List.cons_append, Fits, Fits, ih, and_assoc]
    rfl

lemma Fits.end {width column : Nat} {text : List Char} (h : Fits width column text) :
    columnAfter column text ≤ width := by
  rw [← List.append_nil text, fits_append] at h
  exact h.2

lemma lines_cons_newline (cs : List Char) : lines ('\n' :: cs) = [] :: lines cs := rfl

lemma lines_ne_nil (text : List Char) : lines text ≠ [] := by
  induction text with
  | nil => simp [lines]
  | cons c cs ih =>
    by_cases hc : c = '\n'
    · rw [hc, lines_cons_newline]
      simp
    · change prependChar c (lines cs) ≠ []
      unfold prependChar
      split
      · simp
      · split <;> simp

lemma lines_cons_char {c : Char} (hc : c ≠ '\n') {cs l : List Char} {ls : List (List Char)}
    (h : lines cs = l :: ls) : lines (c :: cs) = (c :: l) :: ls := by
  change prependChar c (lines cs) = _
  rw [h]
  exact if_neg hc

lemma fits_iff_lines {width column : Nat} {text l : List Char} {ls : List (List Char)}
    (h : lines text = l :: ls) :
    Fits width column text ↔ column + l.length ≤ width ∧ ∀ k ∈ ls, k.length ≤ width := by
  induction text generalizing column l ls with
  | nil =>
    obtain ⟨rfl, rfl⟩ := List.cons.inj h
    simp [Fits]
  | cons c cs ih =>
    obtain ⟨k, ks, hk⟩ := List.exists_cons_of_ne_nil (lines_ne_nil cs)
    by_cases hc : c = '\n'
    · rw [hc, lines_cons_newline, hk] at h
      obtain ⟨rfl, rfl⟩ := List.cons.inj h
      rw [Fits, hc, columnAfter_newline, ih hk, List.forall_mem_cons, Nat.zero_add]
      rfl
    · rw [lines_cons_char hc hk] at h
      obtain ⟨rfl, rfl⟩ := List.cons.inj h
      rw [Fits, columnAfter_char hc, ih hk, List.length_cons]
      constructor
      · rintro ⟨-, hl, hs⟩
        exact ⟨by omega, hs⟩
      · rintro ⟨hl, hs⟩
        exact ⟨by omega, by omega, hs⟩

theorem fits_zero_iff {width : Nat} {text : List Char} :
    Fits width 0 text ↔ ∀ l ∈ lines text, l.length ≤ width := by
  obtain ⟨l, ls, h⟩ := List.exists_cons_of_ne_nil (lines_ne_nil text)
  rw [fits_iff_lines h, h, List.forall_mem_cons, Nat.zero_add]

/-! ### Pieces -/

inductive Piece where
  /-- A text that stays as it is. -/
  | text (t : List Char)
  /-- A word, and the gap in front of it, which a newline and the continuation may replace. -/
  | word (gap : List Char) (continuation : Margin) (w : List Char)

namespace Piece

/-- Gaps are made of spaces, words stand on one line, and continuations are indented by the unit. -/
def Proper (unit : List Char) : Piece → Prop
  | text _ => True
  | word gap continuation w => (∀ c ∈ gap, c = ' ') ∧ '\n' ∉ w ∧ continuation.unit = unit

/-- No break of the piece repeats the marker of a comment. -/
def IsStatement : Piece → Prop
  | text _ => True
  | word _ continuation _ => continuation.marker = []

/-- The piece with its gap. -/
def kept : Piece → List Char
  | text t => t
  | word gap _ w => gap ++ w

/-- The piece as it is set at a column. -/
def set (width column : Nat) : Piece → List Char
  | text t => t
  | word gap continuation w =>
    if column + gap.length + w.length ≤ width ∨ gap = [] ∨ column ≤ continuation.length then
      gap ++ w
    else '\n' :: continuation.text ++ w

end Piece

/-- Several pieces with all their gaps. -/
def unbroken (ps : List Piece) : List Char := ps.flatMap Piece.kept

lemma unbroken_cons (p : Piece) (ps : List Piece) : unbroken (p :: ps) = p.kept ++ unbroken ps :=
  List.flatMap_cons

lemma unbroken_append (ps qs : List Piece) : unbroken (ps ++ qs) = unbroken ps ++ unbroken qs :=
  List.flatMap_append

/-- Several pieces set one after another. -/
def fill (width : Nat) : Nat → List Piece → List Char
  | _, [] => []
  | column, p :: ps =>
    p.set width column ++ fill width (columnAfter column (p.set width column)) ps

lemma fill_append (width column : Nat) (ps qs : List Piece) :
    fill width column (ps ++ qs) =
      fill width column ps ++ fill width (columnAfter column (fill width column ps)) qs := by
  induction ps generalizing column with
  | nil => rfl
  | cons p ps ih => simp only [List.cons_append, fill, ih, List.append_assoc, columnAfter_append]

/-- Text in which some gaps, none of them empty, have given way to a newline and a continuation. -/
inductive Rebroken : List Piece → List Char → Prop
  | nil : Rebroken [] []
  | text (t : List Char) {ps : List Piece} {rest : List Char} : Rebroken ps rest →
      Rebroken (.text t :: ps) (t ++ rest)
  | kept (gap : List Char) (continuation : Margin) (w : List Char) {ps : List Piece}
      {rest : List Char} : Rebroken ps rest →
      Rebroken (.word gap continuation w :: ps) (gap ++ w ++ rest)
  | broken {gap : List Char} (hs : ∀ c ∈ gap, c = ' ') (hn : gap ≠ []) (continuation : Margin)
      (w : List Char) {ps : List Piece} {rest : List Char} : Rebroken ps rest →
      Rebroken (.word gap continuation w :: ps) ('\n' :: continuation.text ++ w ++ rest)

lemma rebroken_fill {unit : List Char} {ps : List Piece} (hp : ∀ p ∈ ps, p.Proper unit)
    (width column : Nat) : Rebroken ps (fill width column ps) := by
  induction ps generalizing column with
  | nil => exact .nil
  | cons p ps ih =>
    obtain ⟨h, hps⟩ := List.forall_mem_cons.1 hp
    have hr := ih hps (columnAfter column (p.set width column))
    rw [fill]
    cases p with
    | text t => exact .text t hr
    | word gap continuation w =>
      by_cases hb : column + gap.length + w.length ≤ width ∨ gap = [] ∨
          column ≤ continuation.length
      · simp only [Piece.set, if_pos hb] at hr ⊢
        exact .kept gap continuation w hr
      · simp only [Piece.set, if_neg hb] at hr ⊢
        have hn : gap ≠ [] := fun he => hb (.inr (.inl he))
        exact .broken h.1 hn continuation w hr

lemma fill_of_fits {unit : List Char} {ps : List Piece} (hp : ∀ p ∈ ps, p.Proper unit)
    {width column : Nat}
    (hf : Fits width column (unbroken ps)) : fill width column ps = unbroken ps := by
  induction ps generalizing column with
  | nil => rfl
  | cons p ps ih =>
    obtain ⟨h, hps⟩ := List.forall_mem_cons.1 hp
    rw [unbroken_cons, fits_append] at hf
    have hs : p.set width column = p.kept := by
      cases p with
      | text t => rfl
      | word gap continuation w =>
        have hn : '\n' ∉ gap ++ w := by
          intro hm
          rcases List.mem_append.1 hm with hm | hm
          · exact newline_not_mem_of_spaces h.1 hm
          · exact h.2.1 hm
        have he : columnAfter column (gap ++ w) ≤ width := hf.1.end
        rw [columnAfter_of_no_newline hn, List.length_append] at he
        exact if_pos (.inl (by omega))
    rw [fill, hs, ih hps hf.2, unbroken_cons]

/-! ### Words -/

/-- Characters that stand between words. -/
def isBlank (c : Char) : Bool := c = ' ' || c = '\n'

lemma isBlank_of_spaces {text : List Char} (h : ∀ c ∈ text, c = ' ') :
    ∀ c ∈ text, isBlank c := by
  intro c hc
  rw [h c hc]
  rfl

/-- The words of a text, cut at its spaces and newlines. -/
def words (text : List Char) : List (List Char) := (text.splitOnP isBlank).filter (· ≠ [])

lemma words_append_cons {c : Char} (hc : isBlank c) (a b : List Char) :
    words (a ++ c :: b) = words a ++ words b := by
  rw [words, List.splitOnP_append_cons a b hc, List.filter_append]
  rfl

lemma words_nil : words [] = [] := by simp [words]

lemma words_blank_append {b : List Char} (hb : ∀ c ∈ b, isBlank c) (y : List Char) :
    words (b ++ y) = words y := by
  induction b with
  | nil => rfl
  | cons c cs ih =>
    obtain ⟨hc, hcs⟩ := List.forall_mem_cons.1 hb
    have h := words_append_cons hc [] (cs ++ y)
    rw [words_nil, List.nil_append, List.nil_append, ih hcs] at h
    exact h

lemma words_append_blank {b : List Char} (hb : ∀ c ∈ b, isBlank c) (hn : b ≠ []) (x y : List Char) :
    words (x ++ (b ++ y)) = words x ++ words y := by
  obtain ⟨c, cs, rfl⟩ := List.exists_cons_of_ne_nil hn
  obtain ⟨hc, hcs⟩ := List.forall_mem_cons.1 hb
  rw [List.cons_append, words_append_cons hc, words_blank_append hcs]

lemma isBlank_of_statement {unit gap w : List Char} {continuation : Margin}
    (hu : ∀ c ∈ unit, c = ' ') (hp : (Piece.word gap continuation w).Proper unit)
    (hs : (Piece.word gap continuation w).IsStatement) :
    ∀ c ∈ continuation.text, isBlank c := by
  have hk : continuation.unit = unit := hp.2.2
  have hm : continuation.marker = [] := hs
  intro c hc
  rw [Margin.text, hm, hk, List.append_nil, copies_eq, List.mem_flatten] at hc
  obtain ⟨l, hl, hc⟩ := hc
  rw [List.eq_of_mem_replicate hl] at hc
  rw [hu c hc]
  rfl

/-- Outside of comments, lines that are broken and indented by spaces have the words they
had before. -/
theorem Rebroken.words_eq {unit : List Char} (hu : ∀ c ∈ unit, c = ' ') {ps : List Piece}
    {text : List Char} (h : Rebroken ps text) (hp : ∀ p ∈ ps, p.Proper unit)
    (hs : ∀ p ∈ ps, p.IsStatement) : words text = words (unbroken ps) := by
  -- what stands in front may end in the middle of a word
  suffices hx : ∀ x, words (x ++ text) = words (x ++ unbroken ps) from hx []
  induction h with
  | nil => exact fun x => rfl
  | text t _ ih =>
    intro x
    have hi := ih (List.forall_mem_cons.1 hp).2 (List.forall_mem_cons.1 hs).2 (x ++ t)
    simpa [unbroken, Piece.kept] using hi
  | kept gap k w _ ih =>
    intro x
    have hi := ih (List.forall_mem_cons.1 hp).2 (List.forall_mem_cons.1 hs).2 (x ++ (gap ++ w))
    simpa [unbroken, Piece.kept] using hi
  | @broken gap hg hn k w ps rest _ ih =>
    intro x
    obtain ⟨hpw, hps⟩ := List.forall_mem_cons.1 hp
    obtain ⟨hsw, hss⟩ := List.forall_mem_cons.1 hs
    have hi := ih hps hss w
    have hb : ∀ c ∈ gap, isBlank c := isBlank_of_spaces hg
    have hk : ∀ c ∈ '\n' :: k.text, isBlank c :=
      List.forall_mem_cons.2 ⟨rfl, isBlank_of_statement hu hpw hsw⟩
    have hbroken := words_append_blank hk (List.cons_ne_nil _ _) x (w ++ rest)
    have hkept := words_append_blank hb hn x (w ++ unbroken ps)
    rw [List.append_assoc, hbroken, hi, ← hkept]
    simp [unbroken, Piece.kept]

end ProtoSchema.Layout
