import ProtoSchema.Proofs.Phrase

/-!
Literals read back.

A quoted literal is read from its first quote, one code after another: a character as itself, an
escape as what it stands for, three octal digits behind a backslash as a byte. What is written for
one code is read as this code whatever comes behind it, so a whole literal is, and the quote that
ends it is its last character. An integer is read digit by digit.
-/

namespace ProtoSchema

namespace Literal

/-! ### A reader of quoted literals -/

def octalValue? (c : Char) : Option Nat :=
  if '0' ≤ c ∧ c ≤ '7' then some (c.toNat - '0'.toNat) else none

/-- The byte that three octal digits stand for. -/
def octalCode? (a b c : Char) : Option Nat :=
  match octalValue? a, octalValue? b, octalValue? c with
  | some x, some y, some z => if 64 * x + 8 * y + z < 256 then some (64 * x + 8 * y + z) else none
  | _, _, _ => none

/-- A code in front of the codes read. -/
def push (code : Nat) (read : Option (List Nat × List Char)) : Option (List Nat × List Char) :=
  read.map fun r => (code :: r.1, r.2)

/-- Reads codes up to the quote that ends them, and gives what comes behind it. -/
def readBody : List Char → Option (List Nat × List Char)
  | '"' :: rest => some ([], rest)
  | '\\' :: '\\' :: rest => push '\\'.toNat (readBody rest)
  | '\\' :: '"' :: rest => push '"'.toNat (readBody rest)
  | '\\' :: 'n' :: rest => push '\n'.toNat (readBody rest)
  | '\\' :: a :: b :: c :: rest =>
    match octalCode? a b c with
    | some code => push code (readBody rest)
    | none => none
  | c :: rest => if c = '\\' ∨ c = '\n' then none else push c.toNat (readBody rest)
  | [] => none

/-- Reads a literal in quotes, and gives what comes behind it. -/
def readQuoted : List Char → Option (List Nat × List Char)
  | '"' :: text => readBody text
  | _ => none

/-! ### What is written for one code -/

lemma octalValue?_octalDigit (n : Nat) : octalValue? (octalDigit n) = some (n % 8) := by
  have h : ∀ k < 8, octalValue? (Char.ofNat ('0'.toNat + k)) = some k := by decide
  exact h (n % 8) (Nat.mod_lt n (by decide))

lemma octalCode?_octalDigit {n : Nat} (h : n < 256) :
    octalCode? (octalDigit (n / 64)) (octalDigit (n / 8)) (octalDigit n) = some n := by
  have hn : 64 * (n / 64 % 8) + 8 * (n / 8 % 8) + n % 8 = n := by omega
  simp only [octalCode?, octalValue?_octalDigit, hn, if_pos h]

lemma readBody_octalCode {a b c : Char} {code : Nat} (h : octalCode? a b c = some code)
    (rest : List Char) : readBody ('\\' :: a :: b :: c :: rest) = push code (readBody rest) := by
  have hn : ∀ d, octalValue? d = none → a ≠ d := by
    rintro d hd rfl
    simp [octalCode?, hd] at h
  rw [readBody, h]
  · exact hn '\\' (by decide)
  · exact hn '"' (by decide)
  · exact hn 'n' (by decide)

lemma readBody_plain {c : Char} (hq : c ≠ '"') (hb : c ≠ '\\') (hn : c ≠ '\n') (rest : List Char) :
    readBody (c :: rest) = push c.toNat (readBody rest) := by
  have hc : ¬ (c = '\\' ∨ c = '\n') := by simp [hb, hn]
  rw [readBody, if_neg hc]
  · exact hq
  -- the patterns with an escape
  all_goals exact fun _ => by simp [hb]

lemma readBody_escape? {c : Char} {e : List Char} (h : escape? c = some e) (rest : List Char) :
    readBody (e ++ rest) = push c.toNat (readBody rest) := by
  unfold escape? at h
  split at h <;> simp only [Option.some.injEq, reduceCtorEq] at h <;> subst h
  all_goals simp [readBody]

/-- A character is read as itself, escaped or not. -/
lemma readBody_escapeChar (c : Char) (rest : List Char) :
    readBody (escapeChar c ++ rest) = push c.toNat (readBody rest) := by
  rw [escapeChar]
  cases h : escape? c with
  | some e => exact readBody_escape? h rest
  | none =>
    obtain ⟨hq, hb, hn⟩ := escape?_eq_none h
    exact readBody_plain hq hb hn rest

lemma toNat_ofNat_byte (b : UInt8) : (Char.ofNat b.toNat).toNat = b.toNat := by
  have h : b.toNat.isValidChar := .inl (by have := b.toNat_lt; omega)
  rw [Char.ofNat, dif_pos h]
  rfl

/-- A byte is read as itself, even if a digit comes behind its octal digits. -/
lemma readBody_escapeByte (b : UInt8) (rest : List Char) :
    readBody (escapeByte b ++ rest) = push b.toNat (readBody rest) := by
  have hc := toNat_ofNat_byte b
  unfold escapeByte
  split
  · next e h => rw [readBody_escape? h, hc]
  · next h =>
    obtain ⟨hq, hb, hn⟩ := escape?_eq_none h
    split
    · have hp := readBody_plain hq hb hn rest
      rwa [hc] at hp
    · exact readBody_octalCode (octalCode?_octalDigit b.toNat_lt) rest

/-! ### Whole literals -/

lemma readQuoted_quote {α : Type} {f : α → List Char} {code : α → Nat}
    (h : ∀ a rest, readBody (f a ++ rest) = push (code a) (readBody rest)) (as : List α)
    (rest : List Char) :
    readQuoted ((quote (as.flatMap f)).toList ++ rest) = some (as.map code, rest) := by
  have hb : readBody (as.flatMap f ++ '"' :: rest) = some (as.map code, rest) := by
    induction as with
    | nil => rfl
    | cons a as ih =>
      rw [List.flatMap_cons, List.append_assoc, h, ih]
      rfl
  simp [quote, readQuoted, hb]

/-- A character that is printed as such, a space included. -/
def Printable (c : Char) : Prop := 32 ≤ c.toNat ∧ c.toNat ≤ 126

instance : DecidablePred Printable := fun c =>
  inferInstanceAs (Decidable (32 ≤ c.toNat ∧ c.toNat ≤ 126))

lemma printable_octalDigit (n : Nat) : Printable (octalDigit n) := by
  have h : ∀ k < 8, Printable (Char.ofNat ('0'.toNat + k)) := by decide
  exact h (n % 8) (Nat.mod_lt n (by decide))

lemma printable_escapeByte (b : UInt8) : ∀ c ∈ escapeByte b, Printable c := by
  unfold escapeByte
  split
  · next e h =>
    unfold escape? at h
    split at h <;> simp only [Option.some.injEq, reduceCtorEq] at h <;> subst h
    all_goals simp [Printable]
  · split
    · next hp =>
      rw [List.forall_mem_singleton, Printable, toNat_ofNat_byte]
      simp only [isPrintable, Bool.and_eq_true, decide_eq_true_eq, UInt8.le_iff_toNat_le,
        UInt8.lt_iff_toNat_lt] at hp
      have hl : 32 ≤ b.toNat := hp.1
      have hu : b.toNat < 127 := hp.2
      omega
    · simp only [octal, List.forall_mem_cons]
      exact ⟨by decide, printable_octalDigit _, printable_octalDigit _,
        printable_octalDigit _, by simp⟩

lemma printable_quoteBytes (bytes : List UInt8) : ∀ c ∈ (quoteBytes bytes).toList, Printable c := by
  have hq : Printable '"' := by decide
  have hb : ∀ c ∈ bytes.flatMap escapeByte, Printable c := by
    intro c hc
    obtain ⟨b, -, hc⟩ := List.mem_flatMap.1 hc
    exact printable_escapeByte b c hc
  rw [quoteBytes, quote, String.toList_ofList]
  exact List.forall_mem_append.2 ⟨List.forall_mem_cons.2 ⟨hq, hb⟩, List.forall_mem_singleton.2 hq⟩

/-! ### Integers -/

def readNat? (text : List Char) : Option Nat :=
  if text ≠ [] ∧ text.all Char.isDigit then some (Nat.ofDigitChars 10 text 0) else none

/-- Reads a row of decimal digits, with a minus sign or without. -/
def readInt? : List Char → Option Int
  | '-' :: text => (readNat? text).map fun n : Nat => -(n : Int)
  | text => (readNat? text).map fun n : Nat => (n : Int)

lemma readNat?_toDigits (n : Nat) : readNat? (Nat.toDigits 10 n) = some n := by
  have hd : (Nat.toDigits 10 n).all Char.isDigit = true :=
    List.all_eq_true.2 fun c hc => Nat.isDigit_of_mem_toDigits (by decide) (by decide) hc
  rw [readNat?, if_pos ⟨Nat.toDigits_ne_nil, hd⟩, Nat.ofDigitChars_ten_toDigits]

lemma readInt?_repr (n : Nat) : readInt? n.repr.toList = some (n : Int) := by
  rw [Nat.toList_repr]
  have hn : ∀ text, Nat.toDigits 10 n ≠ '-' :: text := by
    intro text he
    have hd : '-'.isDigit = true := Nat.isDigit_of_mem_toDigits (by decide) (by decide)
      (he ▸ List.mem_cons_self)
    exact absurd hd (by decide)
  rw [readInt?, readNat?_toDigits]
  · rfl
  · exact hn

/-- **Integers**: the decimal text of an integer is read as the integer. -/
lemma readInt?_toString (n : Int) : readInt? (toString n).toList = some n := by
  rw [Int.toString_eq_repr, Int.repr_eq_if]
  split
  · next hn =>
    have he : ((n.toNat : Nat) : Int) = n := Int.toNat_of_nonneg hn
    rw [readInt?_repr, he]
  · next hn =>
    have he : -((-n).toNat : Int) = n := by omega
    have hm : ("-" ++ (-n).toNat.repr).toList = '-' :: Nat.toDigits 10 (-n).toNat := by
      rw [String.toList_append, Nat.toList_repr]
      rfl
    rw [hm, readInt?, readNat?_toDigits, Option.map_some, he]

end Literal

/-! ### Values -/

/-- What a value says: a text by its code points, and bytes as they are. -/
inductive Content where
  | truth (b : Bool)
  | whole (n : Int)
  | real (x : Number.Binary64)
  | codes (cs : List Nat)
  deriving DecidableEq

namespace Scalar

def content : Scalar → Content
  | bool b => .truth b
  | int n => .whole n
  | float x => .real x
  | text s => .codes (s.toList.map Char.toNat)
  | bytes b => .codes (b.map UInt8.toNat)

end Scalar

namespace FieldType

open Literal

/-- Reads the literal of a type. A name of an enum value stands for itself; a quoted literal has to
end where the text does. -/
def read? (t : FieldType) (literal : List Char) : Option Content :=
  match t with
  | .double | .float | .message => none
  | .bool =>
    if literal = "true".toList then some (.truth true)
    else if literal = "false".toList then some (.truth false)
    else none
  | .enum => some (.codes (literal.map Char.toNat))
  | .string | .bytes =>
    match readQuoted literal with
    | some (codes, []) => some (.codes codes)
    | _ => none
  | _ => (readInt? literal).map .whole

variable {t : FieldType} {v : Scalar}

lemma newline_not_mem_literal (hm : t.mismatch? v = none) (ht : t ≠ .enum) {literal : String}
    (hf : t.format v = .ok literal) : '\n' ∉ literal.toList := by
  by_cases hq : t.isQuoted
  · obtain ⟨q, hl, hq⟩ := format_quoted hq v
    obtain rfl : literal = q := Except.ok.inj (hf.symm.trans hl)
    exact hq.newline_not_mem
  · exact (format_word hm (by simpa using hq) (fun he => absurd he ht) hf).2.2

/-- A value between quotes is read up to the quote that ends it, whatever comes behind. -/
lemma format_readQuoted (hm : t.mismatch? v = none) (hq : t.isQuoted) :
    ∃ literal codes, t.format v = .ok literal ∧ v.content = .codes codes ∧
      ∀ rest, readQuoted (literal.toList ++ rest) = some (codes, rest) := by
  cases suited_of_mismatch? hm with
  | text s | byteText s => exact ⟨_, _, rfl, rfl, readQuoted_quote readBody_escapeChar s.toList⟩
  | bytes b => exact ⟨_, _, rfl, rfl, readQuoted_quote readBody_escapeByte b⟩
  | truth | name => exact absurd hq Bool.false_ne_true
  | whole n h => cases t <;> simp [isQuoted, range?, isFloating] at hq h
  | real x h => cases t <;> simp [isQuoted, isFloating] at hq h

lemma read?_quoted (h : t.isQuoted) {literal : List Char} {codes : List Nat}
    (hr : readQuoted literal = some (codes, [])) : t.read? literal = some (.codes codes) := by
  cases t <;> first | exact absurd h Bool.false_ne_true | simp [read?, hr]

lemma read?_whole (h : t.range?.isSome) (literal : List Char) :
    t.read? literal = (readInt? literal).map .whole := by
  cases t <;> first | exact absurd h Bool.false_ne_true | rfl

lemma format_read? (hf : t.isFloating = false) (hm : t.mismatch? v = none) :
    ∃ literal, t.format v = .ok literal ∧ t.read? literal.toList = some v.content := by
  by_cases hq : t.isQuoted
  · obtain ⟨literal, codes, hl, hc, hr⟩ := format_readQuoted hm hq
    have hn := hr []
    rw [List.append_nil] at hn
    exact ⟨literal, hl, hc ▸ read?_quoted hq hn⟩
  · cases suited_of_mismatch? hm with
    | truth b =>
      cases b
      · exact ⟨"false", rfl, by decide⟩
      · exact ⟨"true", rfl, by decide⟩
    | whole n h =>
      have hi : t.range?.isSome := h.resolve_right (by simp [hf])
      refine ⟨_, format_whole hi n, ?_⟩
      rw [read?_whole hi, readInt?_toString]
      rfl
    | real x h => exact absurd h (by simp [hf])
    | name s => exact ⟨s, rfl, rfl⟩
    | text | byteText | bytes => exact absurd rfl hq

/-- **Decoding**: a value that belongs to a type without fractions has a literal, and what the
literal says is the value. A quoted literal ends at its last character, whatever comes behind it. No
literal has a newline in it, unless it is the name of an enum value, and that of bytes is printable
throughout. -/
theorem format_decodes (hf : t.isFloating = false) (hm : t.mismatch? v = none) :
    ∃ literal, t.format v = .ok literal ∧ t.read? literal.toList = some v.content ∧
      (t.isQuoted → ∃ codes, v.content = .codes codes ∧
        ∀ rest, readQuoted (literal.toList ++ rest) = some (codes, rest)) ∧
      (t ≠ .enum → '\n' ∉ literal.toList) ∧
      ∀ b, v = .bytes b → ∀ c ∈ literal.toList, Printable c := by
  obtain ⟨literal, hl, hr⟩ := format_read? hf hm
  refine ⟨literal, hl, hr, fun hq => ?_, fun ht => newline_not_mem_literal hm ht hl, ?_⟩
  · obtain ⟨q, codes, hk, hc, hq⟩ := format_readQuoted hm hq
    obtain rfl : literal = q := Except.ok.inj (hl.symm.trans hk)
    exact ⟨codes, hc, hq⟩
  · rintro b rfl
    obtain rfl : quoteBytes b = literal := Except.ok.inj hl
    exact printable_quoteBytes b

/-- A byte in octal digits with a digit behind it, and the characters that are escaped. -/
theorem format_decodes_bytes :
    let v := Scalar.bytes [7, 49, 92, 34, 10, 255, 56]
    FieldType.bytes.isFloating = false ∧ FieldType.bytes.mismatch? v = none ∧
      ∃ literal, FieldType.bytes.format v = .ok literal ∧
        literal = "\"\\0071\\\\\\\"\\n\\3778\"" ∧
        FieldType.bytes.read? literal.toList = some (.codes [7, 49, 92, 34, 10, 255, 56]) ∧
        '\n' ∉ literal.toList ∧ ∀ c ∈ literal.toList, Printable c := by
  intro v
  obtain ⟨literal, hl, hr, -, hn, hp⟩ := @format_decodes .bytes v rfl rfl
  obtain rfl : quoteBytes [7, 49, 92, 34, 10, 255, 56] = literal := Except.ok.inj hl
  exact ⟨rfl, rfl, _, hl, by decide, hr, hn (by decide), hp _ rfl⟩

/-- The name of an enum value is written as it is, over two lines if there is a newline in it. -/
theorem format_newline_enum :
    FieldType.enum.isFloating = false ∧ FieldType.enum.mismatch? (.text "ON\nOFF") = none ∧
      ∃ literal, FieldType.enum.format (.text "ON\nOFF") = .ok literal ∧
        '\n' ∈ literal.toList :=
  ⟨rfl, rfl, "ON\nOFF", rfl, by decide⟩

end FieldType

end ProtoSchema
