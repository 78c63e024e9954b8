import ProtoSchema.Proofs.Idle
import ProtoSchema.Proofs.Laid
import ProtoSchema.Proofs.Shift

/-!
Comments stay comments.

Every line of a comment starts with the marker: the first line of an entry, an empty line, and a
line that goes on with the one above. Behind the markers stand the words of the entries, for a break
in front of a word repeats the marker with a space.
-/

namespace ProtoSchema.Layout

open Print

/-! ### Lines with a marker -/

/-- A whole line of a comment, with what stands behind its marker. -/
def remark (indentation rest : List Char) : List Char := indentation ++ ['/', '/'] ++ rest ++ ['\n']

/-- The text is made of whole lines of a comment, and the words behind their markers are the
given ones. -/
def Remarks (indentation text : List Char) (ws : List (List Char)) : Prop :=
  ∃ rests : List (List Char), (∀ rest ∈ rests, '\n' ∉ rest) ∧
    text = rests.flatMap (remark indentation) ∧ rests.flatMap words = ws

lemma lines_remarks {indentation : List Char} (hi : '\n' ∉ indentation) {rests : List (List Char)}
    (hr : ∀ rest ∈ rests, '\n' ∉ rest) :
    lines (rests.flatMap (remark indentation)) =
      rests.map (indentation ++ ['/', '/'] ++ ·) ++ [[]] := by
  induction rests with
  | nil => rfl
  | cons rest rests ih =>
    obtain ⟨hn, hns⟩ := List.forall_mem_cons.1 hr
    have hl : '\n' ∉ indentation ++ ['/', '/'] ++ rest := by simp [hi, hn]
    rw [List.flatMap_cons, remark, List.append_assoc _ ['\n'], List.singleton_append,
      lines_append_newline, lines_of_no_newline hl, ih hns]
    rfl

namespace Remarks

variable {indentation a b : List Char} {vs ws : List (List Char)}

lemma nil : Remarks indentation [] [] := ⟨[], by simp, rfl, rfl⟩

lemma append (ha : Remarks indentation a vs) (hb : Remarks indentation b ws) :
    Remarks indentation (a ++ b) (vs ++ ws) := by
  obtain ⟨rs, hr, rfl, rfl⟩ := ha
  obtain ⟨ss, hs, rfl, rfl⟩ := hb
  exact ⟨rs ++ ss, List.forall_mem_append.2 ⟨hr, hs⟩, List.flatMap_append.symm, List.flatMap_append⟩

lemma flatMap {α : Type} {text : α → List Char} {said : α → List (List Char)} {as : List α}
    (h : ∀ a ∈ as, Remarks indentation (text a) (said a)) :
    Remarks indentation (as.flatMap text) (as.flatMap said) := by
  induction as with
  | nil => exact nil
  | cons a as ih =>
    exact (h a List.mem_cons_self).append (ih fun b hb => h b (List.mem_cons_of_mem a hb))

end Remarks

/-! ### The lines of one run -/

/-- The text goes on with a line of a comment, and each line below starts with the marker. The words
are those of `said`, where what stands in front may end in the middle of a word. -/
def Continues (indentation text said : List Char) : Prop :=
  ∃ (first : List Char) (rests : List (List Char)), '\n' ∉ first ∧
    (∀ rest ∈ rests, '\n' ∉ rest) ∧
    text ++ ['\n'] = first ++ ['\n'] ++ rests.flatMap (remark indentation) ∧
    ∀ x, words (x ++ first) ++ rests.flatMap words = words (x ++ said)

namespace Continues

variable {indentation text said : List Char}

lemma nil : Continues indentation [] [] := ⟨[], [], by simp, by simp, rfl, by simp⟩

lemma behind {t : List Char} (ht : '\n' ∉ t) (h : Continues indentation text said) :
    Continues indentation (t ++ text) (t ++ said) := by
  obtain ⟨first, rests, hf, hr, he, hw⟩ := h
  refine ⟨t ++ first, rests, by simp [ht, hf], hr, by simp [he], fun x => ?_⟩
  have hx := hw (x ++ t)
  rwa [List.append_assoc, List.append_assoc] at hx

/-- A break puts the marker and a space in the place of a gap. -/
lemma broken {gap w : List Char} (hg : ∀ c ∈ gap, c = ' ') (hn : gap ≠ []) (hw : '\n' ∉ w)
    (h : Continues indentation text said) :
    Continues indentation ('\n' :: (indentation ++ ['/', '/', ' ']) ++ w ++ text)
      (gap ++ w ++ said) := by
  obtain ⟨first, rests, hf, hr, he, hws⟩ := h
  have hb : ∀ c ∈ gap, isBlank c := isBlank_of_spaces hg
  refine ⟨[], (' ' :: w ++ first) :: rests, by simp, ?_, ?_, fun x => ?_⟩
  · exact List.forall_mem_cons.2 ⟨by simp [hw, hf], hr⟩
  · rw [List.append_assoc, he, List.flatMap_cons, remark]
    simp
  · calc words (x ++ []) ++ ((' ' :: w ++ first) :: rests).flatMap words
        = words x ++ words ([' '] ++ (w ++ said)) := by
          rw [List.append_nil, List.flatMap_cons, hws]
          rfl
      _ = words x ++ words (w ++ said) := by
        rw [words_blank_append (List.forall_mem_singleton.2 rfl)]
      _ = words (x ++ (gap ++ (w ++ said))) := (words_append_blank hb hn x _).symm
      _ = words (x ++ (gap ++ w ++ said)) := by rw [List.append_assoc]

/-- Behind a marker and a space the text is made of whole lines. -/
lemma remarks (h : Continues indentation text said) :
    Remarks indentation (indentation ++ ['/', '/', ' '] ++ text ++ ['\n']) (words said) := by
  obtain ⟨first, rests, hf, hr, he, hw⟩ := h
  refine ⟨(' ' :: first) :: rests, List.forall_mem_cons.2 ⟨by simp [hf], hr⟩, ?_, ?_⟩
  · rw [List.append_assoc, he, List.flatMap_cons, remark]
    simp
  · have hs := hw [' ']
    rwa [words_blank_append (List.forall_mem_singleton.2 rfl)] at hs

end Continues

/-- What a run in a comment is set from: spaces as they are, and words that a break puts behind
the marker. -/
def Piece.IsSaid (continuation : Margin) : Piece → Prop
  | .text t => '\n' ∉ t
  | .word gap k w => (∀ c ∈ gap, c = ' ') ∧ '\n' ∉ w ∧ k = continuation

lemma Rebroken.continues {indentation : List Char} {continuation : Margin}
    (hk : continuation.text = indentation ++ ['/', '/', ' ']) {ps : List Piece} {text : List Char}
    (h : Rebroken ps text) (hp : ∀ p ∈ ps, p.IsSaid continuation) :
    Continues indentation text (unbroken ps) := by
  induction h with
  | nil => exact .nil
  | text t _ ih =>
    obtain ⟨ht, hps⟩ := List.forall_mem_cons.1 hp
    exact (ih hps).behind ht
  | kept gap k w _ ih =>
    obtain ⟨⟨hg, hn, -⟩, hps⟩ := List.forall_mem_cons.1 hp
    have ht : '\n' ∉ gap ++ w := by simp [newline_not_mem_of_spaces hg, hn]
    exact (ih hps).behind ht
  | broken hg hne k w _ ih =>
    obtain ⟨⟨-, hn, rfl⟩, hps⟩ := List.forall_mem_cons.1 hp
    rw [hk]
    exact (ih hps).broken hg hne hn

lemma isSaid_placeAll {width : Nat} {continuation : Margin} {c : Cursor}
    (hc : ∀ a ∈ c.held, a = ' ') {ss : List Segment} (hs : ∀ s ∈ ss, s.Plain) :
    ∀ p ∈ planAll (Cursor.placePlan continuation) (Cursor.place width continuation) c ss,
      p.IsSaid continuation := by
  refine (forall_mem_planAll (P := fun c : Cursor => ∀ a ∈ c.held, a = ' ')
    (fun c hc s hm => ⟨?_, Cursor.spaces_held_place hc (hs s hm).1⟩) hc).1
  unfold Cursor.placePlan
  split
  · simp
  · exact List.forall_mem_singleton.2 ⟨Cursor.spaces_gapBefore hc (hs s hm).1, (hs s hm).2, rfl⟩

lemma proper_of_isSaid {continuation : Margin} {p : Piece} (h : p.IsSaid continuation) :
    p.Proper continuation.unit := by
  cases p with
  | text t => trivial
  | word gap k w => exact ⟨h.1, h.2.1, congrArg Margin.unit h.2.2⟩

open Writer

/-- Segments placed behind a marker, with the spaces held back in the end. -/
lemma continues_placed {w : Writer} {indentation : List Char}
    (hk : w.continuation.text = indentation ++ ['/', '/', ' ']) (hh : ∀ a ∈ w.cursor.held, a = ' ')
    {ss : List Segment} (hs : ∀ s ∈ ss, s.Plain) :
    Continues indentation ((w.placed ss).1 ++ (w.placed ss).2.cursor.held)
      (w.cursor.held ++ ss.flatMap Segment.text) := by
  let plan := planAll (Cursor.placePlan w.continuation)
    (Cursor.place w.style.lineWidth w.continuation) w.cursor ss
  have hl : ∀ a ∈ (w.placed ss).2.cursor.held, a = ' ' := (Cursor.proper_placeAll hh hs).2
  have hp : ∀ p ∈ plan ++ [.text (w.placed ss).2.cursor.held], p.IsSaid w.continuation :=
    List.forall_mem_append.2 ⟨isSaid_placeAll hh hs,
      List.forall_mem_singleton.2 (newline_not_mem_of_spaces hl)⟩
  have hf : fill w.style.lineWidth w.cursor.column (plan ++ [.text (w.placed ss).2.cursor.held]) =
      (w.placed ss).1 ++ (w.placed ss).2.cursor.held := by
    rw [fill_append, ← Cursor.text_placeAll]
    simp [fill, Piece.set, placed]
  have hu : unbroken (plan ++ [.text (w.placed ss).2.cursor.held]) =
      w.cursor.held ++ ss.flatMap Segment.text := by
    rw [unbroken_append, ← Cursor.unbroken_placeAll w.style.lineWidth w.continuation]
    simp [unbroken, Piece.kept, placed, plan]
  have hb := rebroken_fill (fun p h => proper_of_isSaid (hp p h)) w.style.lineWidth w.cursor.column
  rw [← hf, ← hu]
  exact hb.continues hk hp

/-- A line of a comment is written in whole lines, however wide it is. -/
lemma remarks_lineText {runs : List (List Char)} (hn : '\n' ∉ runs.flatten) (style : Style)
    (level : Nat) :
    Remarks (copies level style.unit) (lineText style level true runs) (words runs.flatten) := by
  by_cases he : runs.flatten = []
  · rw [Line.lineText_of_empty he, he, words_nil]
    exact ⟨[[]], by simp, by simp [remark], by simp [words_nil]⟩
  · have hh : ∀ a ∈ (opened style level true).cursor.held, a = ' ' :=
      fun a ha => absurd ha List.not_mem_nil
    have hk : (opened style level true).continuation.text =
        copies level style.unit ++ ['/', '/', ' '] := rfl
    have hc := continues_placed hk hh (plain_of_mem_runs hn true)
    rw [flatMap_text_runs] at hc
    have hr := hc.remarks
    rw [lineText_of_text he, started_of_text he, List.append_assoc (margin _).text]
    exact hr

/-! ### Comments -/

lemma words_lines (text : List Char) : (lines text).flatMap words = words text := by
  -- what stands in front is the beginning of the first line
  suffices h : ∀ x, '\n' ∉ x → (lines (x ++ text)).flatMap words = words (x ++ text) from
    h [] List.not_mem_nil
  induction text with
  | nil =>
    intro x hx
    rw [List.append_nil, lines_of_no_newline hx, List.flatMap_singleton]
  | cons c cs ih =>
    intro x hx
    by_cases hc : c = '\n'
    · subst hc
      have hcs := ih [] List.not_mem_nil
      rw [List.nil_append] at hcs
      rw [lines_append_newline, lines_of_no_newline hx, List.singleton_append, List.flatMap_cons,
        hcs, words_append_cons rfl]
    · have hxc := ih (x ++ [c]) (by simp [hx, Ne.symm hc])
      rwa [List.append_assoc, List.singleton_append] at hxc

namespace Writer

lemma remarks_commentLine (style : Style) (level : Nat) (entry : String) :
    Remarks (copies level style.unit) ((fresh style level false).commentLine entry).1
      (words entry.toList) := by
  obtain ⟨ended, he, hw⟩ := exists_commentLine entry
  have hn : ∀ runs ∈ ended, '\n' ∉ runs.flatten := fun runs hr =>
    newline_not_mem_of_mem_lines (he ▸ List.mem_map_of_mem hr)
  have hr := Remarks.flatMap fun runs h => remarks_lineText (hn runs h) style level
  have hs : (ended.flatMap fun runs => words runs.flatten) = words entry.toList := by
    rw [← words_lines, ← he, List.flatMap_map]
  rw [hw]
  exact hs ▸ hr

lemma commentLine_ends (w : Writer) (entry : String) :
    (w.commentLine entry).1.getLast? = some '\n' := by
  have he := emit_append_newline
    (emit { w with lineStart := true, comment := true } entry.toList).2 []
  rw [List.nil_append] at he
  rw [commentLine, he]
  simp [newline, append, Cursor.append, List.getLast?_append]

lemma remarks_emitComment (style : Style) (level : Nat) (entries : List String) :
    Remarks (copies level style.unit) ((fresh style level false).emitComment entries).1
        (entries.flatMap (words ·.toList)) ∧
      ((fresh style level false).emitComment entries).2 = fresh style level false := by
  induction entries with
  | nil => exact ⟨.nil, rfl⟩
  | cons entry entries ih =>
    have hl := commentLine_eq_fresh (fresh style level false) entry
    rw [emitComment] at ih
    rw [emitComment, writeAll_cons, hl]
    exact ⟨(remarks_commentLine style level entry).append ih.1, ih.2⟩

lemma emitComment_ends (w : Writer) {entries : List String} (hn : entries ≠ []) :
    (w.emitComment entries).1.getLast? = some '\n' := by
  obtain rfl | ⟨init, last, rfl⟩ := entries.eq_nil_or_concat'
  · exact absurd rfl hn
  · rw [emitComment, writeAll_append, writeAll_cons, writeAll_nil, List.append_nil,
      List.getLast?_append, commentLine_ends, Option.some_or]

/-- **Comments**: from the start of a line, every line of a comment is the indentation, the marker
and a rest, and the words of the rests are those of the entries, in order. A comment ends its last
line, and leaves the writer as it was. -/
theorem emitComment_marked {w : Writer} (hw : w.Idle) (hs : w.lineStart = true)
    (hu : '\n' ∉ w.style.unit) (entries : List String) :
    ∃ rests : List (List Char),
      lines (w.emitComment entries).1 = rests.map (w.indentation.text ++ ['/', '/'] ++ ·) ++ [[]] ∧
      rests.flatMap words = entries.flatMap (words ·.toList) ∧
      (entries ≠ [] → (w.emitComment entries).1.getLast? = some '\n') ∧
      (w.emitComment entries).2 = w := by
  have hf := hw.eq_fresh hs
  obtain ⟨⟨rests, hr, ht, hws⟩, hl⟩ := remarks_emitComment w.style w.level entries
  rw [← hf] at ht hl
  have hi : w.indentation.text = copies w.level w.style.unit := by simp [indentation, Margin.text]
  have hn : '\n' ∉ copies w.level w.style.unit := newline_not_mem_copies hu w.level
  refine ⟨rests, ?_, hws, w.emitComment_ends, hl⟩
  rw [ht, hi, lines_remarks hn hr]

/-- An empty line, quotes, a word that is too long, and an entry without a word, in lines of twelve
characters. -/
theorem emitComment_marked_tabs :
    let w := fresh ⟨['\t'], 1, 12, by decide, by decide⟩ 2 false
    let entries := ["a \"key\": of\n\n  unabbreviated  words", " "]
    w.Idle ∧ w.lineStart = true ∧ '\n' ∉ w.style.unit ∧
      String.ofList (w.emitComment entries).1 =
        "\t\t// a\n\t\t// \"key\":\n\t\t// of\n\t\t//\n" ++
          "\t\t//   unabbreviated\n\t\t// words\n\t\t//  \n" ∧
      ∃ rests : List (List Char),
        lines (w.emitComment entries).1 = rests.map ("\t\t//".toList ++ ·) ++ [[]] ∧
        rests.flatMap words = ["a", "\"key\":", "of", "unabbreviated", "words"].map String.toList ∧
        (w.emitComment entries).2 = w := by
  intro w entries
  have hw : w.Idle := .fresh _ 2
  have hu : '\n' ∉ w.style.unit := by decide
  obtain ⟨rests, hl, hws, -, hk⟩ := emitComment_marked hw rfl hu entries
  have he : entries.flatMap (words ·.toList) =
      ["a", "\"key\":", "of", "unabbreviated", "words"].map String.toList := by decide
  exact ⟨hw, rfl, hu, by decide, rests, hl, hws.trans he, hk⟩

end Writer

end ProtoSchema.Layout
