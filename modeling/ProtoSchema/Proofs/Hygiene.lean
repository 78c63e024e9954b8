import ProtoSchema.Proofs.Tidy

/-!
The layout of a file in any style.

However narrow its lines are, no line of a tidy file ends in a space. Single empty lines stand
between its lines, but none at its start, at its end, or above a line that closes a body.
-/

namespace ProtoSchema

open Layout Print

namespace Layout

/-- Lines none of which ends in a space, with single empty lines between some of them. -/
structure Orderly (rows : List (List Char)) : Prop where
  spaces : ∀ r ∈ rows, r.getLast? ≠ some ' '
  first : ∃ r rs, rows = r :: rs ∧ r ≠ []
  last : ∃ rs r, rows = rs ++ [r] ∧ r ≠ []
  single : rows.IsChain fun a b => a = [] → b ≠ []

variable {style : Style} {level : Nat} {ls : List Line}

/-- A line is an empty line, or it takes lines that close. -/
lemma Line.rows_cases (hu : '\n' ∉ style.unit) {l : Line} (h : l.Trimmed) (level : Nat) :
    l.content = [] ∧ l.rows style level = [[]] ∨
      l.content ≠ [] ∧ ∀ r ∈ l.rows style level, Closes r := by
  by_cases hc : l.content = []
  · exact .inl ⟨hc, rows_of_blank hc⟩
  · exact .inr ⟨hc, h style level hu hc⟩

/-- Only an empty line has an empty line among those it takes. -/
lemma Line.content_eq_nil (hu : '\n' ∉ style.unit) {l : Line} (h : l.Trimmed) (level : Nat)
    (hr : [] ∈ l.rows style level) : l.content = [] := by
  rcases l.rows_cases hu h level with ⟨hc, -⟩ | ⟨-, hs⟩
  · exact hc
  · exact absurd rfl (hs [] hr).1

/-- **Paragraphs stay orderly** wherever their lines are broken. -/
theorem Paragraphs.orderly (hp : Paragraphs (ls.map Line.content)) (hu : '\n' ∉ style.unit)
    (ht : ∀ l ∈ ls, l.Trimmed) (level : Nat) : Orderly (ls.flatMap (Line.rows style level)) := by
  have hclose : ∀ l ∈ ls, l.content ≠ [] → ∀ r ∈ l.rows style level, Closes r :=
    fun l hl hc => ht l hl style level hu hc
  refine ⟨fun r hr => ?_, ?_, ?_, ?_⟩
  · obtain ⟨l, hl, hr⟩ := List.mem_flatMap.1 hr
    rcases l.rows_cases hu (ht l hl) level with ⟨-, he⟩ | ⟨-, hs⟩
    · obtain rfl : r = [] := by simpa [he] using hr
      simp
    · exact (hs r hr).2
  · obtain ⟨c, cs, he, hc⟩ := hp.start
    obtain ⟨l, ks, rfl, rfl, -⟩ := List.map_eq_cons_iff.1 he
    obtain ⟨r, rs, hr⟩ := List.exists_cons_of_ne_nil (l.rows_ne_nil style level)
    refine ⟨r, rs ++ ks.flatMap (Line.rows style level), by rw [List.flatMap_cons, hr]; rfl, ?_⟩
    exact (hclose l List.mem_cons_self hc.1 r (by simp [hr])).1
  · obtain ⟨c, cs, he, -⟩ := hp.start
    obtain rfl | ⟨front, l, rfl⟩ := ls.eq_nil_or_concat'
    · cases he
    · have hc : l.content ≠ [] := hp.stop _ (by simp)
      obtain hn | ⟨rs, r, hr⟩ := (l.rows style level).eq_nil_or_concat'
      · exact absurd hn (l.rows_ne_nil style level)
      · refine ⟨front.flatMap (Line.rows style level) ++ rs, r, by simp [hr], ?_⟩
        exact (hclose l (by simp) hc r (by simp [hr])).1
  · have hn : [] ∉ ls.map (Line.rows style level) := by
      rintro hm
      obtain ⟨l, -, he⟩ := List.mem_map.1 hm
      exact l.rows_ne_nil style level he
    have hchain := (List.isChain_map Line.content).1 hp.chain
    rw [List.flatMap_def, List.isChain_flatten hn, List.forall_mem_map, List.isChain_map]
    refine ⟨fun l hl => ?_, hchain.imp_of_mem_imp fun l k hl hk hlk x hx y hy he => ?_⟩
    · rcases l.rows_cases hu (ht l hl) level with ⟨-, he⟩ | ⟨-, hs⟩
      · rw [he]
        exact .singleton []
      · exact isChain_of_not fun r hr he => absurd he (hs r hr).1
    · have hc : l.content = [] :=
        Line.content_eq_nil hu (ht l hl) level (he ▸ List.mem_of_getLast? hx)
      exact (hclose k hk (hlk hc).1 y (List.mem_of_head? hy)).1

/-- The line right above a closing one is not empty. -/
lemma Paragraphs.above_closing (hp : Paragraphs (ls.map Line.content)) (hu : '\n' ∉ style.unit)
    (ht : ∀ l ∈ ls, l.Trimmed) {front back : List Line} {l : Line} (hl : ls = front ++ l :: back)
    (hc : IsClosing l.content) (level : Nat) :
    ∀ r ∈ (front.flatMap (Line.rows style level)).getLast?, r ≠ [] := by
  subst hl
  obtain rfl | ⟨front, k, rfl⟩ := front.eq_nil_or_concat'
  · simp
  · rintro r hr rfl
    have hk : k.content = [] := by
      refine Line.content_eq_nil hu (ht k (by simp)) level ?_
      rw [List.flatMap_append, List.flatMap_singleton,
        List.getLast?_append_of_ne_nil _ (k.rows_ne_nil style level)] at hr
      exact List.mem_of_getLast? hr
    have hs : Starts l.content := by
      have hch := hp.chain
      simp only [List.map_append, List.map_cons, List.append_assoc, List.cons_append,
        List.nil_append] at hch
      exact (List.isChain_cons_cons.1 hch.right_of_append).1 hk
    exact hs.2 hc

end Layout

/-! ### A file for examples -/

namespace File

/-- A file with every part, around the message for examples. -/
def sample : File where
  comment := ["Music"]
  package := some "music"
  explicitImports := [⟨"base.proto", .reexport⟩]
  options := [{ target := .file, name := "go_package", value := .literal .string (.text "a:  b") }]
  blocks := [[.message (Message.sample 4)]]

lemma sample_wellFormed : sample.WellFormed := by
  refine ⟨List.forall_mem_singleton.2 ⟨"base".toList, rfl⟩,
    List.forall_mem_singleton.2 ⟨rfl, by simp, rfl⟩, ?_⟩
  exact List.forall_mem_singleton.2 (Message.sample_wellFormed (by decide))

lemma sample_tidy : sample.Tidy := by
  have ho : OptionDecl.Tidy ⟨.message, "deprecated", [], .literal .bool (.bool true)⟩ :=
    ⟨by decide, by decide, fun h => by cases h⟩
  have hm : (Message.sample 4).Tidy := by
    refine .mk (by decide) (by decide) (List.forall_mem_singleton.2 ho)
      (List.forall_mem_singleton.2 ⟨by simp, by decide⟩) (by simp [Message.sample]) ?_
    refine List.forall_mem_cons.2 ⟨.field ⟨by decide, by simp, by decide, by simp⟩, ?_⟩
    refine List.forall_mem_singleton.2 (.oneof ⟨by decide, by decide, by simp, ?_⟩)
    exact List.forall_mem_singleton.2 ⟨by decide, by simp, by decide, by simp⟩
  refine ⟨by decide, ?_, List.forall_mem_singleton.2 (by decide), List.forall_mem_singleton.2
    ⟨by decide, by decide, fun h => by cases h⟩, by simp [sample], List.forall_mem_singleton.2 hm⟩
  rintro package hp
  cases hp
  decide

/-- A file with a quote in the name of an option. -/
def misquoted : File where
  options := [{ target := .file, name := "a\"", value := .literal .string (.text "x:  y") }]

end File

namespace Node

/-- **Hygiene of files**: a tidy file is written on the lines of its document, whatever the style
is. No line of the text ends in a space, it starts and ends with lines that are not empty, and there
is one newline at its end. No two empty lines stand together, and none stands above a line that
closes a body. -/
theorem print_orderly (f : File) (hw : f.WellFormed) (ht : f.Tidy)
    (hc : ∀ o ∈ f.allOptions, o.ClearNames) (style : Style) (hu : '\n' ∉ style.unit) {text : String}
    (hp : (file f).print style = .ok text) :
    ∃ ls : List Line, ls.map Line.content = f.doc [] ∧
      text.toList = ls.flatMap (Line.write style 0) ∧
      lines text.toList = ls.flatMap (Line.rows style 0) ++ [[]] ∧
      Orderly (ls.flatMap (Line.rows style 0)) ∧
      ∀ front l back, ls = front ++ l :: back → IsClosing l.content →
        ∀ r ∈ (front.flatMap (Line.rows style 0)).getLast?, r ≠ [] := by
  obtain ⟨hf, htext⟩ := print_eq_ok.1 hp
  obtain ⟨ls, hl, htr, hpar⟩ := File.neat hw ht hc hf
  obtain ⟨ks, hk, hd⟩ := File.shows hw hf
  have hdoc : ls.map Line.content = f.doc [] := by
    have he : ks.map (Line.plain []) = f.doc [] := hd []
    rw [hl.map_content_eq hk, ← he]
    exact List.map_congr_left fun l _ => l.plain_nil.symm
  have hwr : text.toList = ls.flatMap (Line.write style 0) := by
    rw [← htext, String.toList_ofList]
    exact congrArg Outcome.text (hl.run style 0)
  refine ⟨ls, hdoc, hwr, ?_, hpar.orderly hu htr 0, fun front l back he hcl => ?_⟩
  · rw [hwr, Line.lines_flatMap_write]
  · exact hpar.above_closing hu htr he hcl 0

/-- A file with every part in lines of sixteen characters. -/
theorem print_orderly_narrow :
    File.sample.WellFormed ∧ File.sample.Tidy ∧ (∀ o ∈ File.sample.allOptions, o.ClearNames) ∧
      '\n' ∉ narrow.unit ∧ ∃ text rows, (file .sample).print narrow = .ok text ∧
        lines text.toList = rows ++ [[]] ∧ Orderly rows := by
  have ha : File.sample.allOptions = [⟨.file, "go_package", [], .literal .string (.text "a:  b")⟩,
      ⟨.message, "deprecated", [], .literal .bool (.bool true)⟩] := rfl
  have hc : ∀ o ∈ File.sample.allOptions, o.ClearNames := by
    rw [ha]
    exact List.forall_mem_cons.2
      ⟨fun _ => by decide, List.forall_mem_singleton.2 fun h => by cases h⟩
  have hu : '\n' ∉ narrow.unit := by decide
  have hf : (file .sample).script.fault? = none := by decide +kernel
  have hp : (file .sample).print narrow = .ok _ := print_eq_ok.2 ⟨hf, rfl⟩
  obtain ⟨ls, -, -, hl, ho, -⟩ :=
    print_orderly .sample File.sample_wellFormed File.sample_tidy hc narrow hu hp
  exact ⟨File.sample_wellFormed, File.sample_tidy, hc, hu, _, _, hp, hl, ho⟩

/-- Without clear names a line may end in a space: the quote in the name opens a literal, so the
scan is outside of literals between the two spaces of the text. -/
theorem print_misquoted :
    File.misquoted.WellFormed ∧ File.misquoted.Tidy ∧ '\n' ∉ [' '] ∧
      ∃ text, (file .misquoted).print ⟨[' '], 2, 20, by decide, by decide⟩ = .ok text ∧
        ∃ l ∈ lines text.toList, l.getLast? = some ' ' := by
  have hw : File.misquoted.WellFormed :=
    ⟨by simp [File.misquoted], List.forall_mem_singleton.2 ⟨rfl, by simp, rfl⟩,
      by simp [File.misquoted]⟩
  have ht : File.misquoted.Tidy :=
    ⟨by decide, by simp [File.misquoted], by simp [File.misquoted], List.forall_mem_singleton.2
      ⟨by decide, by decide, fun h => by cases h⟩, by simp [File.misquoted],
        by simp [File.misquoted]⟩
  have hp : (file .misquoted).print ⟨[' '], 2, 20, by decide, by decide⟩ =
      .ok "syntax = \"proto3\";\n\noption (a\") = \"x: \n    y\";\n" := by decide +kernel
  exact ⟨hw, ht, by decide, _, hp, "option (a\") = \"x: ".toList, by decide, by decide⟩

end Node

end ProtoSchema
