import ProtoSchema.Proofs.Trimming

/-!
Words with single spaces between them.

What is written outside of quotes is put together from words, and from texts that have no two spaces
in a row. A run of such texts, with a literal in quotes or without, has no word that ends in a
space, unless it is the last.
-/

namespace ProtoSchema

open Layout Number

/-! ### Words -/

/-- The text has neither a space nor a newline in it. -/
def Solid (text : List Char) : Prop := ' ' ∉ text ∧ '\n' ∉ text

/-- A text that is one word on one line. -/
def IsWord (s : String) : Prop := s ≠ "" ∧ Solid s.toList

instance : DecidablePred Solid :=
  fun text => inferInstanceAs (Decidable (' ' ∉ text ∧ '\n' ∉ text))

instance : DecidablePred IsWord :=
  fun s => inferInstanceAs (Decidable (s ≠ "" ∧ Solid s.toList))

lemma IsWord.toList_ne_nil {s : String} (h : IsWord s) : s.toList ≠ [] := by
  simpa using h.1

/-! ### Numbers are words -/

/-- A character that numbers are written with. -/
def isNumeral (c : Char) : Bool := c.isDigit || "+-.einfa".toList.contains c

/-- The text has no characters but those of numbers. -/
def Numeral (text : List Char) : Prop := ∀ c ∈ text, isNumeral c

instance : DecidablePred Numeral :=
  fun text => decidable_of_iff (text.all isNumeral = true) List.all_eq_true

namespace Numeral

variable {a b : List Char}

lemma append (ha : Numeral a) (hb : Numeral b) : Numeral (a ++ b) :=
  List.forall_mem_append.2 ⟨ha, hb⟩

lemma cons {c : Char} (hc : isNumeral c) (h : Numeral a) : Numeral (c :: a) :=
  List.forall_mem_cons.2 ⟨hc, h⟩

lemma of_subset (h : Numeral b) (hs : a ⊆ b) : Numeral a := fun c hc => h c (hs hc)

lemma not_mem (h : Numeral a) {c : Char} (hc : isNumeral c = false) : c ∉ a := by
  intro hm
  simp [h c hm] at hc

lemma solid (h : Numeral a) : Solid a := ⟨h.not_mem (by decide), h.not_mem (by decide)⟩

lemma replicate_zero (n : Nat) : Numeral (List.replicate n '0') := by
  intro c hc
  rw [List.eq_of_mem_replicate hc]
  rfl

lemma toDigits (n : Nat) : Numeral (Nat.toDigits 10 n) := by
  intro c hc
  have hd : c.isDigit = true := Nat.isDigit_of_mem_toDigits (by decide) (by decide) hc
  simp [isNumeral, hd]

lemma positional {digits : List Char} (h : Numeral digits) (lead : Int) :
    Numeral (positional digits lead) := by
  simp only [Number.positional]
  split
  · exact (Numeral.append (by decide) (.replicate_zero _)).append h
  · split
    · exact (h.append (.replicate_zero _)).append (by decide)
    · have hd := h.of_subset (List.drop_subset (lead.toNat + 1) digits)
      exact (h.of_subset (List.take_subset _ _)).append (.cons (by decide) hd)

lemma exponentText (width : Nat) (exponent : Int) : Numeral (exponentText width exponent) := by
  have hd := (Numeral.replicate_zero (width - (Nat.toDigits 10 exponent.natAbs).length)).append
    (.toDigits exponent.natAbs)
  simp only [Number.exponentText]
  split
  · exact .cons (by decide) hd
  · exact .cons (by decide) hd

lemma scientific {digits : List Char} (h : Numeral digits) (width : Nat) (lead : Int) :
    Numeral (scientific width digits lead) := by
  have he := Numeral.cons (c := 'e') (by decide) (exponentText width lead)
  simp only [Number.scientific]
  refine Numeral.append ?_ he
  rcases digits with _ | ⟨d, _ | ⟨e, ds⟩⟩
  · exact h
  · exact h
  · have hd : Numeral [d] := h.of_subset (by simp)
    exact hd.append (.cons (by decide) (h.of_subset (List.subset_cons_self d _)))

lemma decimal (style : FloatStyle) (d : Decimal) : Numeral (d.text style) := by
  simp only [Decimal.text]
  split
  · exact (toDigits _).positional _
  · exact (toDigits _).scientific _ _

end Numeral

/-- A text that is made of the characters of numbers. -/
def IsNumber (s : String) : Prop := s ≠ "" ∧ Numeral s.toList

instance : DecidablePred IsNumber :=
  fun s => inferInstanceAs (Decidable (s ≠ "" ∧ Numeral s.toList))

namespace IsNumber

lemma word {s : String} (h : IsNumber s) : IsWord s := ⟨h.1, h.2.solid⟩

lemma of_toList {s : String} {text : List Char} (he : s.toList = text) (hn : text ≠ [])
    (h : Numeral text) : IsNumber s := by
  subst he
  exact ⟨by simpa using hn, h⟩

lemma repr (n : Nat) : IsNumber n.repr :=
  of_toList Nat.toList_repr Nat.toDigits_ne_nil (.toDigits n)

lemma prepend {k s : String} (hk : Numeral k.toList) (h : IsNumber s) : IsNumber (k ++ s) :=
  of_toList String.toList_append (by simp [h.word.toList_ne_nil]) (hk.append h.2)

lemma toString_int (n : Int) : IsNumber (toString n) := by
  rw [Int.toString_eq_repr, Int.repr_eq_if]
  split
  · exact .repr _
  · exact .prepend (by decide) (.repr _)

lemma decimal (style : FloatStyle) (d : Decimal) : IsNumber (String.ofList (d.text style)) := by
  refine of_toList String.toList_ofList ?_ (.decimal style d)
  simp only [Decimal.text, positional, scientific]
  repeat' split
  all_goals simp

lemma binary64 (x : Binary64) : IsNumber x.text := by
  have hm : IsNumber x.magnitudeText := by
    unfold Binary64.magnitudeText
    repeat' split
    · decide
    · exact .decimal _ _
    · decide
  unfold Binary64.text
  repeat' split
  · decide
  · exact .prepend (by decide) hm
  · exact hm

end IsNumber

namespace IsWord

lemma toString_int (n : Int) : IsWord (toString n) := (IsNumber.toString_int n).word

lemma quantity (q : Quantity) : IsWord q.text := by
  cases q with
  | whole n => exact .toString_int n
  | truth b => cases b <;> decide
  | real x => exact (IsNumber.binary64 x).word

end IsWord

/-! ### Phrases -/

namespace Layout

/-- The text stands on one line, and no space of it is behind another. -/
def Smooth (text : List Char) : Prop := '\n' ∉ text ∧ Single text

instance : DecidablePred Smooth :=
  fun text => inferInstanceAs (Decidable ('\n' ∉ text ∧ Single text))

lemma Smooth.append {a b : List Char} (ha : Smooth a) (hb : Smooth b)
    (h : a.getLast? ≠ some ' ' ∨ b.head? ≠ some ' ') : Smooth (a ++ b) := by
  refine ⟨by simp [ha.1, hb.1], ha.2.append hb.2 ?_⟩
  rintro x hx y hy rfl rfl
  exact h.elim (· hx) (· hy)

lemma Smooth.of_solid {text : List Char} (h : Solid text) : Smooth text :=
  ⟨h.2, isChain_of_not fun _ hm hc => h.1 (hc ▸ hm)⟩

end Layout

/-- Words with single spaces between them. -/
structure Phrase (s : String) : Prop where
  smooth : Smooth s.toList
  opens : Opens s.toList
  closes : Closes s.toList

namespace Phrase

variable {a b k : String}

lemma word (h : IsWord a) : Phrase a := by
  refine ⟨.of_solid h.2, ⟨h.toList_ne_nil, fun hc => ?_⟩, ⟨h.toList_ne_nil, fun hc => ?_⟩⟩
  · exact h.2.1 (List.mem_of_head? hc)
  · exact h.2.1 (List.mem_of_getLast? hc)

/-- A text in front of a phrase. -/
lemma lead (hk : Smooth k.toList ∧ Opens k.toList) (h : Phrase b) : Phrase (k ++ b) := by
  constructor <;> rw [String.toList_append]
  · exact hk.1.append h.smooth (.inr h.opens.2)
  · exact hk.2.append _
  · exact h.closes.behind _

/-- A text behind a phrase. -/
lemma trail (h : Phrase a) (hk : Smooth k.toList ∧ Closes k.toList) : Phrase (a ++ k) := by
  constructor <;> rw [String.toList_append]
  · exact h.smooth.append hk.1 (.inl h.closes.2)
  · exact h.opens.append _
  · exact hk.2.behind _

/-- A text between two phrases. -/
lemma join (ha : Phrase a) (hk : Smooth k.toList) (hb : Phrase b) : Phrase (a ++ k ++ b) := by
  constructor <;> simp only [String.toList_append]
  · exact (ha.smooth.append hk (.inl ha.closes.2)).append hb.smooth (.inr hb.opens.2)
  · exact (ha.opens.append _).append _
  · exact hb.closes.behind _

lemma intercalate (hk : Smooth k.toList) {ss : List String} (hn : ss ≠ [])
    (h : ∀ s ∈ ss, Phrase s) :
    Phrase (k.intercalate ss) := by
  induction ss with
  | nil => exact absurd rfl hn
  | cons s ss ih =>
    obtain ⟨hs, hss⟩ := List.forall_mem_cons.1 h
    by_cases he : ss = []
    · subst he
      simpa using hs
    · rw [String.intercalate_cons_of_ne_nil he]
      exact hs.join hk (ih he hss)

end Phrase

/-! ### Runs with literals -/

/-- A run of a line, no word of which, but the last, ends in a space. -/
structure Clean (r : List Char) : Prop where
  newline : '\n' ∉ r
  fair : (Scan.run true {} r).Fair

lemma Layout.Smooth.clean {r : List Char} (h : Smooth r) : Clean r :=
  ⟨h.1, Scan.fair_run (by simp [Scan.Fair]) h.2 (by simp) true⟩

/-- A literal in quotes is read as a whole, whatever spaces it has. -/
lemma Clean.quoted {before q after : List Char} (hb : Smooth before) (hn : '"' ∉ before)
    (hq : Literal.Quoted q) (ha : Smooth after) : Clean (before ++ q ++ after) := by
  refine ⟨by simp [hb.1, hq.newline_not_mem, ha.1], ?_⟩
  rw [Scan.run_append, Scan.run_append, Scan.run_quoted hq (Scan.outside_run hn ⟨rfl, rfl⟩)]
  have hf : ((Scan.run true {} before).extend q).Fair := hb.clean.fair
  refine Scan.fair_run hf ha.2 (fun hw => ?_) true
  obtain ⟨body, -, rfl⟩ := hq
  simp [Scan.extend] at hw

namespace FieldType

variable {type : FieldType} {value : Scalar} {literal : String}

lemma format_whole (h : type.range?.isSome) (n : Int) :
    type.format (.int n) = .ok (toString n) := by
  cases type <;> first | exact absurd h Bool.false_ne_true | rfl

lemma formatPlain_floating (h : type.isFloating) (value : Scalar) :
    type.formatPlain value = value.toBinary64.map Binary64.text := by
  cases type <;> first | exact absurd h Bool.false_ne_true | rfl

/-- What is written of a value of a type without quotes: the text of an enum value, a truth value,
or a number. -/
lemma format_cases (hm : type.mismatch? value = none) (hq : type.isQuoted = false)
    (hf : type.format value = .ok literal) :
    type = .enum ∧ literal = value.plainText ∨ literal = "true" ∨ literal = "false" ∨
    IsNumber literal := by
  have hreal : ∀ x : Except FormatError Binary64, x.map Binary64.text = .ok literal →
      IsNumber literal := by
    rintro (e | x) h <;> cases h
    exact .binary64 x
  cases suited_of_mismatch? hm with
  | truth b =>
    cases hf
    cases b <;> simp [Scalar.truth]
  | whole n h =>
    refine .inr (.inr (.inr ?_))
    rcases h with h | h
    · obtain rfl := Except.ok.inj ((format_whole h n).symm.trans hf)
      exact .toString_int n
    · exact hreal _ ((formatPlain_floating h (.int n)).symm.trans hf)
  | real x h =>
    exact .inr (.inr (.inr (hreal _ ((formatPlain_floating h (.float x)).symm.trans hf))))
  | name s => exact .inl ⟨rfl, (Except.ok.inj hf).symm⟩
  | text | byteText | bytes => exact absurd hq (by decide)

/-- **Literals without quotes**: a value of such a type is written as one word. -/
theorem format_word (hm : type.mismatch? value = none) (hq : type.isQuoted = false)
    (he : type = .enum → IsWord value.plainText) (hf : type.format value = .ok literal) :
    IsWord literal := by
  rcases format_cases hm hq hf with ⟨ht, rfl⟩ | rfl | rfl | hn
  · exact he ht
  · decide
  · decide
  · exact hn.word

lemma closes_literal (hm : type.mismatch? value = none) (he : type = .enum → IsWord value.plainText)
    (hf : type.format value = .ok literal) : Closes literal.toList := by
  by_cases hq : type.isQuoted
  · obtain ⟨q, hl, hq⟩ := format_quoted hq value
    obtain rfl : literal = q := Except.ok.inj (hf.symm.trans hl)
    obtain ⟨body, -, hb⟩ := hq
    rw [hb]
    exact Closes.behind (by decide) _
  · exact (Phrase.word (format_word hm (by simpa using hq) he hf)).closes

/-- The literal of a value between two texts. A quote in front of it could mislead the scan if it
is quoted. -/
lemma clean_literal (hm : type.mismatch? value = none) (he : type = .enum → IsWord value.plainText)
    (hf : type.format value = .ok literal) {before after : List Char} (hb : Smooth before)
    (hn : type.isQuoted → '"' ∉ before) (ha : Smooth after) :
    Clean (before ++ literal.toList ++ after) := by
  by_cases hq : type.isQuoted
  · obtain ⟨q, hl, hlq⟩ := format_quoted hq value
    obtain rfl : literal = q := Except.ok.inj (hf.symm.trans hl)
    exact .quoted hb (hn hq) hlq ha
  · have hw := Phrase.word (format_word hm (by simpa using hq) he hf)
    exact ((hb.append hw.smooth (.inr hw.opens.2)).append ha
      (.inl (hw.closes.behind before).2)).clean

end FieldType

end ProtoSchema
