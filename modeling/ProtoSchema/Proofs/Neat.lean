import ProtoSchema.Proofs.Document
import ProtoSchema.Proofs.Phrase

/-!
Scripts that are laid out neatly.

The lines of such a script close wherever they are broken. There are single empty lines between some
of them, but none at the ends, and none above a line that closes a body. One rule for each way to
put scripts together keeps them neat.
-/

namespace ProtoSchema

open Layout Layout.Writer

/-! ### Empty lines -/

namespace Layout

/-- A line that closes a body. -/
def IsClosing (l : List Char) : Prop := l = ['\x7d'] ∨ l = ['\x7d', ';']

/-- A line that may stand below an empty one. -/
def Starts (l : List Char) : Prop := l ≠ [] ∧ ¬ IsClosing l

lemma starts_of_space {l : List Char} (h : ' ' ∈ l) : Starts l := by
  refine ⟨List.ne_nil_of_mem h, ?_⟩
  rintro (rfl | rfl)
  · exact absurd h (by decide)
  · exact absurd h (by decide)

/-- Lines with single empty lines between some of them. -/
structure Paragraphs (doc : List (List Char)) : Prop where
  start : ∃ l ls, doc = l :: ls ∧ Starts l
  stop : ∀ l ∈ doc.getLast?, l ≠ []
  chain : doc.IsChain fun a b => a = [] → Starts b

namespace Paragraphs

variable {a b : List (List Char)}

lemma single {l : List Char} (h : Starts l) : Paragraphs [l] :=
  ⟨⟨l, [], rfl, h⟩, fun _ hk => Option.some.inj hk ▸ h.1, .singleton l⟩

lemma append (ha : Paragraphs a) (hb : Paragraphs b) : Paragraphs (a ++ b) := by
  obtain ⟨l, ls, rfl, hl⟩ := ha.start
  obtain ⟨k, ks, rfl, hk⟩ := hb.start
  refine ⟨⟨l, _, rfl, hl⟩, ?_, ha.chain.append hb.chain fun x hx y _ he => absurd he (ha.stop x hx)⟩
  rw [List.getLast?_append_of_ne_nil _ (List.cons_ne_nil k ks)]
  exact hb.stop

/-- An empty line between. -/
lemma apart (ha : Paragraphs a) (hb : Paragraphs b) : Paragraphs (a ++ [] :: b) := by
  obtain ⟨l, ls, rfl, hl⟩ := ha.start
  obtain ⟨k, ks, rfl, hk⟩ := hb.start
  have hc : ([] :: k :: ks).IsChain fun a b => a = [] → Starts b :=
    hb.chain.cons fun y hy _ => Option.some.inj hy ▸ hk
  refine ⟨⟨l, _, rfl, hl⟩, ?_, ha.chain.append hc fun x hx y _ he => absurd he (ha.stop x hx)⟩
  rw [List.getLast?_append_of_ne_nil _ (List.cons_ne_nil _ _), List.getLast?_cons_cons]
  exact hb.stop

/-- A line at the end that closes a body. -/
lemma closed (ha : Paragraphs a) {l : List Char} (h : l ≠ []) : Paragraphs (a ++ [l]) := by
  obtain ⟨k, ks, rfl, hk⟩ := ha.start
  refine ⟨⟨k, _, rfl, hk⟩, ?_, ha.chain.append (.singleton l) fun x hx y _ he =>
    absurd he (ha.stop x hx)⟩
  rw [List.getLast?_concat]
  exact fun x hx => Option.some.inj hx ▸ h

/-- Lines in front, maybe none. -/
lemma behind (hb : Paragraphs b) (ha : ∀ l ∈ a, Starts l) : Paragraphs (a ++ b) := by
  induction a with
  | nil => exact hb
  | cons l ls ih =>
    obtain ⟨hl, hls⟩ := List.forall_mem_cons.1 ha
    exact (single hl).append (ih hls)

/-- More lines, maybe none. -/
lemma more (ha : Paragraphs a) (hb : ∀ l ∈ b, Starts l) : Paragraphs (a ++ b) := by
  induction b generalizing a with
  | nil => rwa [List.append_nil]
  | cons l ls ih =>
    obtain ⟨hl, hls⟩ := List.forall_mem_cons.1 hb
    rw [← List.singleton_append, ← List.append_assoc]
    exact ih (ha.append (single hl)) hls

end Paragraphs

lemma Line.trimmed_deeper {l : Line} (h : l.Trimmed) : l.deeper.Trimmed := by
  intro style level hu hc r hr
  rw [rows, write_deeper] at hr
  exact h style (level + style.indentSize) hu hc r hr

lemma map_content_deeper (ls : List Line) :
    (ls.map Line.deeper).map Line.content = ls.map Line.content := by
  rw [List.map_map]
  rfl

/-- The runs of a line that may be broken anywhere between its words. -/
structure Flow (runs : List (List Char)) : Prop where
  clean : ∀ r ∈ runs, Clean r
  chain : runs.IsChain fun a b => a.getLast? = some ' ' → Opens b
  closes : Closes runs.flatten

namespace Flow

variable {runs more : List (List Char)}

lemma single {r : List Char} (hr : Clean r) (hc : Closes r) : Flow [r] :=
  ⟨List.forall_mem_singleton.2 hr, .singleton _, by rwa [List.flatten_singleton]⟩

lemma phrase {s : String} (h : Phrase s) : Flow [s.toList] := .single h.smooth.clean h.closes

lemma of_opens (h : ∀ r ∈ runs, Clean r ∧ Opens r) (hc : Closes runs.flatten) :
    Flow runs := by
  refine ⟨fun r hr => (h r hr).1, ?_, hc⟩
  clear hc
  induction runs with
  | nil => exact .nil
  | cons r rs ih =>
    obtain ⟨-, hrs⟩ := List.forall_mem_cons.1 h
    exact (ih hrs).cons fun t ht _ => (hrs t (List.mem_of_head? ht)).2

lemma append (h : Flow runs) (hm : Flow more) : Flow (runs ++ more) := by
  refine ⟨List.forall_mem_append.2 ⟨h.clean, hm.clean⟩, h.chain.append hm.chain ?_, ?_⟩
  · -- the last run may be empty, but then it does not end in a space
    rintro r hr t - hl
    obtain ⟨front, rfl⟩ := List.getLast?_eq_some_iff.1 hr
    have hf : (front ++ [r]).flatten.getLast? = some ' ' := by
      rw [List.flatten_append, List.flatten_singleton, List.getLast?_append, hl, Option.some_or]
    exact absurd hf h.closes.2
  · rw [List.flatten_append]
    exact hm.closes.behind _

lemma newline_not_mem (h : Flow runs) : '\n' ∉ runs.flatten := by
  intro hm
  obtain ⟨r, hr, hm⟩ := List.mem_flatten.1 hm
  exact (h.clean r hr).newline hm

/-- **Lines of clean runs** are trimmed. -/
theorem trimmed (h : Flow runs) : (Line.mk 0 false runs).Trimmed :=
  Line.trimmed h.newline_not_mem (isChain_segments (fun r hr => (h.clean r hr).fair) h.chain)
    h.closes.2

end Flow

end Layout

/-! ### Lines that are wide enough -/

namespace Layout

/-- Lines with room for some characters, and no indentation. -/
def wide (n : Nat) : Style := ⟨[], 1, n + 1, Nat.one_pos, Nat.succ_pos n⟩

lemma Line.plain_nil (l : Line) : l.plain [] = l.content := by
  rw [plain]
  split
  · next hc => exact hc.symm
  · rfl

lemma Line.rows_wide {l : Line} (hn : '\n' ∉ l.runs.flatten) {n : Nat} (h : l.content.length ≤ n) :
    l.rows (wide n) 0 = [l.content] := by
  have hc : '\n' ∉ l.content := by
    unfold Line.content
    repeat' split
    all_goals simp [hn]
  have hr : (l.plain []).length ≤ (wide n).lineWidth := l.plain_nil ▸ Nat.le_succ_of_le h
  have hw : l.write (wide n) 0 = l.plain [] ++ ['\n'] := Line.write_of_room hn hr
  rw [Line.rows_eq hw, l.plain_nil, lines_of_no_newline hc]

lemma flatMap_rows_wide {ls : List Line} (hn : ∀ l ∈ ls, '\n' ∉ l.runs.flatten) {n : Nat}
    (h : ∀ l ∈ ls, l.content.length ≤ n) :
    ls.flatMap (Line.rows (wide n) 0) = ls.map Line.content := by
  induction ls with
  | nil => rfl
  | cons l ls ih =>
    obtain ⟨hl, hls⟩ := List.forall_mem_cons.1 hn
    obtain ⟨hw, hws⟩ := List.forall_mem_cons.1 h
    rw [List.flatMap_cons, Line.rows_wide hl hw, ih hls hws, List.map_cons, List.singleton_append]

end Layout

/-! ### Scripts that emit lines -/

namespace Layout.Writer

lemma emit_of_no_newline {text : List Char} (h : '\n' ∉ text) (w : Writer) :
    w.emit text = w.run text := by
  rw [emit, lines_of_no_newline h]
  simp

/-- Texts without newlines go on with the line. -/
lemma writeAll_emit {texts : List (List Char)} (h : ∀ t ∈ texts, '\n' ∉ t) (w : Writer) :
    writeAll emit w texts = writeAll run w texts := by
  induction texts generalizing w with
  | nil => rfl
  | cons t ts ih =>
    obtain ⟨ht, hts⟩ := List.forall_mem_cons.1 h
    rw [writeAll_cons, writeAll_cons, emit_of_no_newline ht, ih hts]

lemma emit_ended {text : List Char} (h : '\n' ∉ text) (w : Writer) : w.emit (text ++ ['\n']) =
    ((w.run text).1 ++ (w.run text).2.newline.1, (w.run text).2.newline.2) := by
  rw [emit_append_newline, emit_of_no_newline h]

lemma emit_newline (w : Writer) : w.emit ['\n'] = w.newline := by
  rw [← List.nil_append ['\n'], emit_ended List.not_mem_nil]
  simp [run]

/-- A newline in front of a text ends the line. -/
lemma emit_newline_cons (w : Writer) (text : List Char) : w.emit ('\n' :: text) =
    ((w.emit ['\n']).1 ++ ((w.emit ['\n']).2.emit text).1, ((w.emit ['\n']).2.emit text).2) := by
  obtain ⟨l, ls, hl⟩ := List.exists_cons_of_ne_nil (lines_ne_nil text)
  rw [emit_newline, emit, emit, lines_cons_newline, hl]
  simp [writeAll_cons, nextLine, run]

end Layout.Writer

namespace Print

lemma Lays.congr {s t : Script} {ls : List Line} (h : Lays t ls)
    (he : ∀ w, Script.run s w = Script.run t w) :
    Lays s ls :=
  ⟨fun style level => by rw [he, h.run], h.oneLine⟩

lemma lays_line (parts : List String) (last : String)
    (hn : '\n' ∉ ((parts ++ [last]).map String.toList).flatten) :
    Lays (parts.map .emit ++ [.emit (last ++ "\n")])
      [⟨0, false, (parts ++ [last]).map String.toList⟩] := by
  refine ⟨fun style level => ?_, List.forall_mem_singleton.2 hn⟩
  have hp : ∀ p ∈ parts.map String.toList, '\n' ∉ p := fun p hm hc =>
    hn (List.mem_flatten_of_mem (by rw [List.map_append]; exact List.mem_append_left _ hm) hc)
  have hl : '\n' ∉ last.toList := fun hc => hn (List.mem_flatten_of_mem (by simp) hc)
  have hs : parts.map Step.emit ++ [.emit (last ++ "\n")] =
      (parts ++ [last ++ "\n"]).map .emit := by simp
  have hr := started_append style level false (parts.map String.toList) [last.toList]
  rw [writeAll_cons, writeAll_nil, List.append_nil] at hr
  have hw := newline_started style level false ((parts ++ [last]).map String.toList)
  rw [List.map_append, List.map_singleton, hr] at hw
  rw [hs, run_emits, List.map_append, List.map_singleton, String.toList_append, writeAll_append,
    writeAll_emit hp, writeAll_cons, writeAll_nil, List.append_nil]
  have he := emit_ended hl (started style level false (parts.map String.toList)).2
  change Outcome.ofWritten (_ ++ (emit (started style level false (parts.map String.toList)).2
    (last.toList ++ ['\n'])).1, (emit (started style level false (parts.map String.toList)).2
    (last.toList ++ ['\n'])).2) = _
  rw [he, hw, List.flatMap_singleton, Line.write, lineText, List.map_append, List.map_singleton]
  simp only [Nat.zero_mul, Nat.add_zero, hr, List.append_assoc]
  rfl

lemma run_newline_cons {text rest : String} (h : text.toList = '\n' :: rest.toList) (w : Writer) :
    Script.run [.emit text] w = Script.run [.emit "\n", .emit rest] w := by
  have hl := run_emits [text] w
  have hr := run_emits ["\n", rest] w
  have hn : "\n".toList = ['\n'] := rfl
  simp only [List.map_cons, List.map_nil, h, hn, writeAll_cons, writeAll_nil, List.append_nil,
    emit_newline_cons w rest.toList] at hl hr
  rw [hl, hr]

/-- What the lines of a script say is settled by the script. -/
theorem Lays.map_content_eq {s : Script} {ls ks : List Line} (hl : Lays s ls) (hk : Lays s ks) :
    ls.map Line.content = ks.map Line.content := by
  obtain ⟨n, hn⟩ : ∃ n, ∀ l ∈ ls ++ ks, l.content.length ≤ n := by
    refine ⟨((ls ++ ks).flatMap Line.content).length, fun l hm => List.Sublist.length_le ?_⟩
    exact List.sublist_flatten_of_mem (List.mem_map_of_mem hm)
  obtain ⟨hnl, hnk⟩ := List.forall_mem_append.1 hn
  -- with room for all of them, the lines that are written are what they say
  have ht : ls.flatMap (Line.write (wide n) 0) = ks.flatMap (Line.write (wide n) 0) :=
    congrArg Outcome.text ((hl.run (wide n) 0).symm.trans (hk.run (wide n) 0))
  have hr := congrArg lines ht
  rw [Line.lines_flatMap_write, Line.lines_flatMap_write, List.append_cancel_right_eq,
    flatMap_rows_wide hl.oneLine hnl, flatMap_rows_wide hk.oneLine hnk] at hr
  exact hr

/-! ### Neat scripts -/

/-- No line of the comment ends in a space. -/
def TidyComment (comment : List String) : Prop :=
  ∀ entry ∈ comment, ∀ l ∈ lines entry.toList, l.getLast? ≠ some ' '

instance : DecidablePred TidyComment := fun comment =>
  inferInstanceAs (Decidable (∀ entry ∈ comment, ∀ l ∈ lines entry.toList, l.getLast? ≠ some ' '))

/-- A script without a fault is laid out in trimmed lines, and what they say has the property. -/
def Writes (s : Script) (P : List (List Char) → Prop) : Prop :=
  s.fault? = none → ∃ ls, Lays s ls ∧ (∀ l ∈ ls, l.Trimmed) ∧ P (ls.map Line.content)

/-- The script writes trimmed lines with single empty lines between some of them. -/
def Neat (s : Script) : Prop := Writes s Paragraphs

namespace Writes

variable {s t : Script} {P Q R : List (List Char) → Prop}

lemma append (hs : Writes s P) (ht : Writes t Q) (h : ∀ a b, P a → Q b → R (a ++ b)) :
    Writes (s ++ t) R := by
  intro hf
  rw [Script.fault?_append, Option.or_eq_none_iff] at hf
  obtain ⟨ls, hl, htl, hp⟩ := hs hf.1
  obtain ⟨ks, hk, htk, hq⟩ := ht hf.2
  refine ⟨ls ++ ks, hl.append hk, List.forall_mem_append.2 ⟨htl, htk⟩, ?_⟩
  rw [List.map_append]
  exact h _ _ hp hq

lemma imp (h : Writes s P) (hi : ∀ d, P d → Q d) : Writes s Q := by
  intro hf
  obtain ⟨ls, hl, ht, hp⟩ := h hf
  exact ⟨ls, hl, ht, hi _ hp⟩

lemma congr (ht : Writes t P) (hf : s.fault? = t.fault?)
    (he : ∀ w, Script.run s w = Script.run t w) :
    Writes s P := by
  intro h
  obtain ⟨ls, hl, htl, hp⟩ := ht (hf ▸ h)
  exact ⟨ls, hl.congr he, htl, hp⟩

lemma trimmed_deeper {ls : List Line} (h : ∀ l ∈ ls, l.Trimmed) :
    ∀ l ∈ ls.map Line.deeper, l.Trimmed :=
  List.forall_mem_map.2 fun l hl => Line.trimmed_deeper (h l hl)

lemma body (h : Writes s P) : Writes [.body s] P := by
  intro hf
  obtain ⟨ls, hl, ht, hp⟩ := h (by simpa [Step.fault?] using hf)
  exact ⟨_, hl.body, trimmed_deeper ht, by rwa [map_content_deeper]⟩

lemma indented (h : Writes s P) : Writes (.indent none :: (s ++ [.unindent none])) P := by
  intro hf
  obtain ⟨ls, hl, ht, hp⟩ := h (by simpa [Step.fault?] using hf)
  exact ⟨_, hl.indented, trimmed_deeper ht, by rwa [map_content_deeper]⟩

lemma line (parts : List String) {last ended : String} (he : ended = last ++ "\n")
    (h : Flow ((parts ++ [last]).map String.toList)) :
    Writes (parts.map .emit ++ [.emit ended])
      (· = [((parts ++ [last]).map String.toList).flatten]) := by
  subst he
  exact fun _ => ⟨_, lays_line _ _ h.newline_not_mem, List.forall_mem_singleton.2 h.trimmed, rfl⟩

lemma numbered (numbers : List Int) {text : String} (h : Writes (.emit text :: s) P) :
    Writes (.numbered numbers text :: s) P := by
  rcases Step.numbered_eq numbers text with he | he
  · rwa [he]
  · intro hf
    simp [he, Step.fault?] at hf

lemma blank : Writes [.emit "\n"] (· = [[]]) := by
  have hl : Lays [.emit "\n"] [⟨0, false, [[]]⟩] := lays_line [] "" (by simp)
  exact fun _ => ⟨_, hl, List.forall_mem_singleton.2 fun _ _ _ hc => absurd rfl hc, rfl⟩

lemma closing {text ended : String} (he : ended = text ++ "\n") (h : IsWord text) :
    Writes [.emit ended] (· = [text.toList]) := by
  have hw := line [] he (by simpa using Flow.phrase (.word h))
  simpa using hw

/-- Several scripts that write lines, maybe none. -/
lemma flatMap {α : Type} {script : α → Script} {as : List α}
    (h : ∀ a ∈ as, Writes (script a) (∀ l ∈ ·, Starts l)) :
    Writes (as.flatMap script) (∀ l ∈ ·, Starts l) := by
  induction as with
  | nil => exact fun _ => ⟨[], .nil, by simp, by simp⟩
  | cons a as ih =>
    obtain ⟨ha, has⟩ := List.forall_mem_cons.1 h
    exact ha.append (ih has) fun _ _ ha hb => List.forall_mem_append.2 ⟨ha, hb⟩

/-! ### Comments -/

lemma starts_comment {l : Line} (h : l.comment = true) : Starts l.content := by
  rw [Line.content, if_pos h]
  split
  · exact ⟨by simp, by simp [IsClosing]⟩
  · exact starts_of_space (by simp)

lemma comment {c : List String} (hc : TidyComment c) :
    Writes [.comment c] (∀ l ∈ ·, Starts l) := by
  induction c with
  | nil =>
    have hl : Lays [.comment []] [] := Lays.nil.congr fun w => rfl
    exact fun _ => ⟨[], hl, by simp, by simp⟩
  | cons entry c ih =>
    obtain ⟨he, hes⟩ := List.forall_mem_cons.1 hc
    obtain ⟨ended, hn, hw⟩ := exists_commentLine entry
    have hl : Lays [.comment [entry]] (flatLines true ended) := by
      refine ⟨fun style level => ?_, oneLine_flatLines hn true⟩
      rw [Script.run, Step.run, Writer.emitComment, writeAll_cons, writeAll_nil, hw,
        write_flatLines]
      simp [Outcome.ofWritten, Outcome.andThen, Script.run]
    have ht : ∀ l ∈ flatLines true ended, l.Trimmed := by
      refine List.forall_mem_map.2 fun r hr => ?_
      have hm : r.flatten ∈ lines entry.toList := hn ▸ List.mem_map_of_mem hr
      exact Line.trimmed (newline_not_mem_of_mem_lines hm) (isChain_segments_comment r) (he _ hm)
    have hs : ∀ l ∈ (flatLines true ended).map Line.content, Starts l := by
      refine List.forall_mem_map.2 (List.forall_mem_map.2 fun r _ => ?_)
      exact starts_comment rfl
    have hf : Writes [.comment [entry]] (∀ l ∈ ·, Starts l) := fun _ => ⟨_, hl, ht, hs⟩
    refine (hf.append (ih hes) fun a b ha hb => List.forall_mem_append.2 ⟨ha, hb⟩).congr rfl
      fun w => ?_
    simp [Script.run, Step.run, Writer.emitComment, writeAll_cons, Outcome.ofWritten,
      Outcome.andThen]

end Writes

namespace Neat

variable {s t : Script}

lemma append (hs : Neat s) (ht : Neat t) : Neat (s ++ t) := Writes.append hs ht fun _ _ => .append

/-- Below an empty line. -/
lemma apart (hs : Neat s) (ht : Neat t) : Neat (s ++ .emit "\n" :: t) := by
  have hb : Writes (.emit "\n" :: t) fun d => ∃ b, d = [] :: b ∧ Paragraphs b :=
    Writes.append .blank ht fun _ b ha hb => ⟨b, by rw [ha]; rfl, hb⟩
  refine Writes.append hs hb fun a d ha hd => ?_
  obtain ⟨b, rfl, hb⟩ := hd
  exact ha.apart hb

lemma closed (hs : Neat s) (text : String) {ended : String} (he : ended = text ++ "\n")
    (h : IsWord text) :
    Neat (s ++ [.emit ended]) := by
  refine Writes.append hs (.closing he h) fun a b ha hb => ?_
  subst hb
  exact ha.closed h.toList_ne_nil

lemma commented {c : List String} (hc : TidyComment c) (hs : Neat s) : Neat (.comment c :: s) :=
  Writes.append (.comment hc) hs fun _ _ ha hb => hb.behind ha

lemma line (parts : List String) {last ended : String} (he : ended = last ++ "\n")
    (h : Flow ((parts ++ [last]).map String.toList))
    (hs : ' ' ∈ ((parts ++ [last]).map String.toList).flatten) :
    Neat (parts.map .emit ++ [.emit ended]) := by
  refine Writes.imp (.line parts he h) fun d hd => ?_
  subst hd
  exact .single (starts_of_space hs)

lemma phrase (text : String) {ended : String} (he : ended = text ++ "\n") (h : Phrase text)
    (hs : ' ' ∈ text.toList) : Neat [.emit ended] :=
  line [] he (by simpa using Flow.phrase h) (by simpa using hs)

lemma flatMap {α : Type} {script : α → Script} {as : List α} (hn : as ≠ [])
    (h : ∀ a ∈ as, Neat (script a)) : Neat (as.flatMap script) := by
  induction as with
  | nil => exact absurd rfl hn
  | cons a as ih =>
    obtain ⟨ha, has⟩ := List.forall_mem_cons.1 h
    by_cases he : as = []
    · subst he
      simpa using ha
    · exact ha.append (ih he has)

lemma registered {σ α : Type} {register : σ → α → σ × Option Usage.Rejection} {script : α → Script}
    {as : List α} (h : Neat (as.flatMap script)) (s : σ) :
    Neat (registered register script s as).1 := by
  intro hf
  have he := registered_eq_flatMap hf
  rw [he] at hf ⊢
  exact h hf

lemma sections (hs : Neat s) {ss : List Script} (h : ∀ t ∈ ss, Neat t) :
    Neat (s ++ ss.flatMap fun t => [.emit "\n", .body t]) := by
  induction ss generalizing s with
  | nil => simpa using hs
  | cons t ss ih =>
    obtain ⟨ht, hts⟩ := List.forall_mem_cons.1 h
    have hb : Neat [.body t] := Writes.body ht
    simpa using ih (hs.apart hb) hts

/-- A line that is ended by a text of its own. -/
lemma ended {text : String} (h : Phrase text) (hs : ' ' ∈ text.toList) :
    Neat [.emit text, .emit "\n"] := by
  refine Writes.congr (phrase text rfl h hs) rfl fun w => ?_
  have hw : writeAll emit w [text.toList, ['\n']] = writeAll emit w [text.toList ++ ['\n']] := by
    simp only [writeAll_cons, writeAll_nil, List.append_nil, emit_ended h.smooth.1,
      emit_of_no_newline h.smooth.1, emit_newline]
  have hl := run_emits [text, "\n"] w
  have hr := run_emits [text ++ "\n"] w
  simp only [List.map_cons, List.map_nil, String.toList_append] at hl hr
  rw [hl, hr]
  exact congrArg Outcome.ofWritten hw

lemma scope {header : String} (hh : Phrase header) {ss : List Script} (h : ∀ t ∈ ss, Neat t) :
    Neat (scope header ss) := by
  have hp : Phrase (header ++ " \x7b") := hh.trail (by decide)
  have hs : ' ' ∈ (header ++ " \x7b").toList := by simp
  unfold Print.scope
  by_cases he : ss.isEmpty
  · obtain rfl : ss = [] := List.isEmpty_iff.1 he
    have hb : Flow ["\x7d".toList] := .phrase (.word (by decide))
    have hl := line [header ++ " \x7b"] (rfl : "\x7d\n" = "\x7d" ++ "\n")
      ((Flow.phrase hp).append hb) (by simp)
    simpa using hl
  · have hl := ((ended hp hs).sections h).closed "\x7d" (rfl : "\x7d\n" = _) (by decide)
    simpa [he] using hl

end Neat

lemma neat_sectionFor {α : Type} {as : List α} {script : Script} (h : as ≠ [] → Neat script) :
    ∀ s ∈ sectionFor as script, Neat s := by
  unfold sectionFor
  split
  · simp
  · next hn => exact List.forall_mem_singleton.2 (h (by simpa using hn))

end Print

end ProtoSchema
