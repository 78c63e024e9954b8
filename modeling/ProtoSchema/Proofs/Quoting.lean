import Mathlib.Data.List.Induction
import ProtoSchema.Literal.Format
import ProtoSchema.Proofs.Line

/-!
Quoted literals in a line that is broken.

The scan of a line follows the quotes and the backslashes of a literal from its first quote to its
last, so no space in between separates words. A literal therefore stands in one word, and a word is
never broken.
-/

namespace ProtoSchema

open Layout

/-! ### Bodies of literals -/

namespace Literal

/-- What may stand between two quotes: every backslash escapes the character behind it. -/
inductive Body : List Char → Prop
  | nil : Body []
  | plain {c : Char} {cs : List Char} (hq : c ≠ '"') (hb : c ≠ '\\') (hn : c ≠ '\n') (h : Body cs) :
      Body (c :: cs)
  | escaped {c : Char} {cs : List Char} (hn : c ≠ '\n') (h : Body cs) : Body ('\\' :: c :: cs)

namespace Body

lemma append {a b : List Char} (ha : Body a) (hb : Body b) : Body (a ++ b) := by
  induction ha with
  | nil => exact hb
  | plain hq hs hn _ ih => exact .plain hq hs hn ih
  | escaped hn _ ih => exact .escaped hn ih

lemma flatMap {α : Type} {f : α → List Char} (h : ∀ a, Body (f a)) (as : List α) :
    Body (as.flatMap f) := by
  induction as with
  | nil => exact .nil
  | cons a as ih =>
    rw [List.flatMap_cons]
    exact (h a).append ih

lemma newline_not_mem {b : List Char} (h : Body b) : '\n' ∉ b := by
  induction h with
  | nil => exact List.not_mem_nil
  | plain _ _ hn _ ih => simp [Ne.symm hn, ih]
  | escaped hn _ ih => simp [Ne.symm hn, ih]

end Body

lemma escape?_eq_some {c : Char} {e : List Char} (h : escape? c = some e) : Body e := by
  unfold escape? at h
  split at h <;> simp only [Option.some.injEq, reduceCtorEq] at h <;> subst h
  all_goals exact .escaped (by decide) .nil

lemma escape?_eq_none {c : Char} (h : escape? c = none) :
    c ≠ '"' ∧ c ≠ '\\' ∧ c ≠ '\n' := by
  refine ⟨?_, ?_, ?_⟩ <;> rintro rfl <;> cases h

lemma body_escapeChar (c : Char) : Body (escapeChar c) := by
  rw [escapeChar]
  cases h : escape? c with
  | some e => exact escape?_eq_some h
  | none =>
    obtain ⟨hq, hb, hn⟩ := escape?_eq_none h
    exact .plain hq hb hn .nil

lemma octalDigit_plain (n : Nat) :
    octalDigit n ≠ '"' ∧ octalDigit n ≠ '\\' ∧ octalDigit n ≠ '\n' := by
  have h : ∀ k < 8, Char.ofNat ('0'.toNat + k) ≠ '"' ∧ Char.ofNat ('0'.toNat + k) ≠ '\\' ∧
      Char.ofNat ('0'.toNat + k) ≠ '\n' := by decide
  exact h (n % 8) (Nat.mod_lt n (by decide))

lemma body_octal (b : UInt8) : Body (octal b) := by
  obtain ⟨-, -, hn⟩ := octalDigit_plain (b.toNat / 64)
  obtain ⟨hq₁, hb₁, hn₁⟩ := octalDigit_plain (b.toNat / 8)
  obtain ⟨hq₀, hb₀, hn₀⟩ := octalDigit_plain b.toNat
  exact .escaped hn (.plain hq₁ hb₁ hn₁ (.plain hq₀ hb₀ hn₀ .nil))

lemma body_escapeByte (b : UInt8) : Body (escapeByte b) := by
  unfold escapeByte
  split
  · next e h => exact escape?_eq_some h
  · next h =>
    obtain ⟨hq, hb, hn⟩ := escape?_eq_none h
    split
    · exact .plain hq hb hn .nil
    · exact body_octal b

/-- A body between two quotes. -/
def Quoted (q : List Char) : Prop := ∃ body, Body body ∧ q = '"' :: body ++ ['"']

lemma Quoted.newline_not_mem {q : List Char} (h : Quoted q) : '\n' ∉ q := by
  obtain ⟨body, hb, rfl⟩ := h
  simp [hb.newline_not_mem]

lemma quoted_quote {body : List Char} (h : Body body) : Quoted (quote body).toList :=
  ⟨body, h, String.toList_ofList⟩

end Literal

/-- Values of the type are written between quotes. -/
def FieldType.isQuoted : FieldType → Bool
  | .string | .bytes => true
  | _ => false

/-- **Quoting**: any value of a quoted type has a literal, and its quotes and
backslashes pair up. -/
theorem FieldType.format_quoted {t : FieldType} (h : t.isQuoted) (v : Scalar) :
    ∃ literal, t.format v = .ok literal ∧ Literal.Quoted literal.toList := by
  have ht (s : String) : Literal.Quoted (Literal.quoteText s).toList :=
    Literal.quoted_quote (.flatMap Literal.body_escapeChar _)
  have hp : t.formatPlain v = .ok (Literal.quoteText v.plainText) := by
    cases t <;> first | exact absurd h (by decide) | rfl
  cases v with
  | bytes b => exact ⟨_, rfl, Literal.quoted_quote (.flatMap Literal.body_escapeByte b)⟩
  | bool b => exact ⟨_, hp, ht _⟩
  | int n => exact ⟨_, hp, ht _⟩
  | float x => exact ⟨_, hp, ht _⟩
  | text s => exact ⟨_, hp, ht _⟩

/-! ### The scan of a literal -/

namespace Layout.Scan

open Literal

variable {s : Scan}

/-- The scan stands outside of literals. -/
def Outside (s : Scan) : Prop := s.quoted = false ∧ s.escaped = false

lemma outside_space (h : s.Outside) : s.space.Outside := by
  unfold space
  split <;> exact h

lemma outside_step {c : Char} (hc : c ≠ '"') (h : s.Outside) : (s.step true c).Outside := by
  obtain ⟨hq, he⟩ := h
  unfold step
  split
  · exact ⟨hq, he⟩
  · split
    · exact outside_space ⟨hq, he⟩
    · simp [take, quote, hq, he, hc, Outside]

lemma outside_run {text : List Char} (ht : '"' ∉ text) (h : s.Outside) :
    (s.run true text).Outside :=
  run_preserves (P := Outside) (fun _ h _ hc => outside_step (ne_of_mem_of_not_mem hc ht) h) h

/-- The scan behind a text that went to its word as a whole. -/
def extend (s : Scan) (text : List Char) : Scan := { s with word := text.reverse ++ s.word }

lemma extend_extend (a b : List Char) :
    (s.extend a).extend b = s.extend (a ++ b) := by simp [extend]

/-- Inside a literal a character that means nothing there goes to the word, be it a space or not. -/
lemma step_plain {c : Char} (hc : c ≠ '"') (hb : c ≠ '\\') (hq : s.quoted = true)
    (he : s.escaped = false) : s.step true c = s.extend [c] := by
  unfold step
  split
  · rfl
  · simp [take, quote, hq, he, hc, hb, extend]

/-- The space behind a colon is no matter here: what is escaped stands behind a backslash. -/
lemma step_escaped (c : Char) (hq : s.quoted = true) (he : s.escaped = false) :
    (s.step true '\\').step true c = s.extend ['\\', c] := by
  have hs : s.step true '\\' = { s with word := '\\' :: s.word, escaped := true } := by
    simp [step, take, quote, hq, he]
  rw [hs]
  simp [step, take, quote, hq, he, extend]

lemma run_body {body : List Char} (hb : Body body) (hq : s.quoted = true) (he : s.escaped = false) :
    s.run true body = s.extend body := by
  induction hb generalizing s with
  | nil => rfl
  | plain hc hs _ _ ih =>
    rw [run_cons, step_plain hc hs hq he, @ih (s.extend _) hq he, extend_extend]
    rfl
  | escaped _ _ ih =>
    rw [run_cons, run_cons, step_escaped _ hq he, @ih (s.extend _) hq he, extend_extend]
    rfl

/-- A literal goes to the word as a whole, and the scan is outside of literals again. -/
lemma run_quoted {q : List Char} (h : Quoted q) (hs : s.Outside) : s.run true q = s.extend q := by
  obtain ⟨body, hb, rfl⟩ := h
  obtain ⟨hq, he⟩ := hs
  have ho : s.step true '"' = ⟨s.done, s.gap, '"' :: s.word, true, s.escaped⟩ := by
    simp [step, take, quote, hq, he]
  have hr := @run_body ⟨s.done, s.gap, '"' :: s.word, true, s.escaped⟩ body hb rfl he
  rw [List.cons_append, run_cons, ho, run_append, hr, run_cons, run_nil]
  simp [step, take, quote, hq, he, extend]

/-- A colon and the space behind it go to the word. -/
lemma run_colon (hs : s.Outside) : s.run true [':', ' '] = s.extend [':', ' '] := by
  have hc : s.step true ':' = s.extend [':'] := by
    simp [step, take, quote, hs.2, extend]
  rw [run_cons, hc]
  simp [step, extend]

/-! ### Words that hold a text -/

/-- One of the words read so far has the text in it. -/
def Holds (q : List Char) (s : Scan) : Prop := ∃ g ∈ s.current :: s.done, q <:+: g.word

lemma holds_word {q : List Char} (h : q <:+: s.word.reverse) : s.Holds q :=
  ⟨s.current, List.mem_cons_self, h⟩

lemma holds_step {q : List Char} (h : s.Holds q) (c : Char) : (s.step true c).Holds q := by
  obtain ⟨g, hg, hq⟩ := h
  have hw : ∀ t : Scan, t.word = c :: s.word → t.done = s.done → t.Holds q := by
    intro t htw htd
    rcases List.mem_cons.1 hg with rfl | hg
    · refine holds_word ?_
      rw [htw, List.reverse_cons]
      exact hq.trans (List.infix_append' [] _ [c])
    · exact ⟨g, List.mem_cons_of_mem _ (htd ▸ hg), hq⟩
  unfold step
  split
  · exact hw _ rfl rfl
  · split
    · unfold space
      split
      · rcases List.mem_cons.1 hg with rfl | hg
        · exact holds_word hq
        · exact ⟨g, List.mem_cons_of_mem _ hg, hq⟩
      · exact ⟨g, List.mem_cons_of_mem _ hg, hq⟩
    · exact hw _ (word_take true s c) (done_take true s c)

lemma holds_run {q : List Char} (h : s.Holds q) (text : List Char) : (s.run true text).Holds q :=
  run_preserves (P := Holds q) (fun _ h c _ => holds_step h c) h

end Layout.Scan

namespace Layout

open Literal

lemma exists_segment {text q : List Char} (h : q <:+: (Scan.run true {} text).word.reverse)
    (after : List Char) : ∃ g ∈ segments true (text ++ after), q <:+: g.word := by
  obtain ⟨g, hg, hq⟩ := Scan.holds_run (Scan.holds_word h) after
  rw [← Scan.run_append] at hg
  exact ⟨g, List.mem_reverse.2 hg, hq⟩

/-- What stands behind the last space of a text. -/
def lastWord (text : List Char) : List Char := (text.reverse.takeWhile (· ≠ ' ')).reverse

lemma mem_of_mem_lastWord {c : Char} {text : List Char} (h : c ∈ lastWord text) : c ∈ text := by
  have hs := List.takeWhile_sublist (fun c : Char => decide (c ≠ ' ')) (l := text.reverse)
  exact List.mem_reverse.1 (hs.subset (List.mem_reverse.1 h))

lemma lastWord_suffix (text : List Char) :
    lastWord text <:+ (Scan.run true {} text).word.reverse := by
  rw [lastWord, List.reverse_suffix]
  induction text using List.reverseRecOn with
  | nil => exact List.nil_prefix
  | append_singleton text c ih =>
    by_cases hc : c = ' '
    · simp [hc]
    · have hw : (Scan.run true {} (text ++ [c])).word = c :: (Scan.run true {} text).word := by
        rw [Scan.run_append, ← Scan.word_take true]
        simp [Scan.step, hc]
      rw [hw, List.reverse_append, List.reverse_singleton, List.singleton_append,
        List.takeWhile_cons_of_pos (by simpa using hc)]
      exact List.cons_prefix_cons.2 ⟨rfl, ih⟩

/-- A literal behind a text without quotes stands in one word. -/
lemma exists_segment_quoted {before q : List Char} (hb : '"' ∉ before) (hq : Quoted q)
    (after : List Char) : ∃ g ∈ segments true (before ++ q ++ after), q <:+: g.word := by
  refine exists_segment ?_ after
  rw [Scan.run_append, Scan.run_quoted hq (Scan.outside_run hb ⟨rfl, rfl⟩), Scan.extend,
    List.reverse_append, List.reverse_reverse]
  exact (List.suffix_append _ q).isInfix

/-- A literal behind a key stands in one word with the colon, the space, and the end of the key. -/
lemma exists_segment_keyed {key q : List Char} (hk : '"' ∉ key) (hq : Quoted q)
    (after : List Char) :
    ∃ g ∈ segments true (key ++ ([':', ' '] ++ q) ++ after),
      (lastWord key ++ ([':', ' '] ++ q)) <:+: g.word := by
  have ho : (Scan.run true {} key).Outside := Scan.outside_run hk ⟨rfl, rfl⟩
  have he : (Scan.run true {} key).run true ([':', ' '] ++ q) =
      (Scan.run true {} key).extend ([':', ' '] ++ q) := by
    rw [Scan.run_append, Scan.run_colon ho, ← Scan.extend_extend]
    exact Scan.run_quoted hq ho
  refine exists_segment ?_ after
  rw [Scan.run_append, he, Scan.extend, List.reverse_append, List.reverse_reverse]
  obtain ⟨start, hs⟩ := lastWord_suffix key
  rw [← hs, List.append_assoc]
  exact (List.suffix_append _ _).isInfix

end Layout

end ProtoSchema
