import Mathlib.Data.String.Basic
import ProtoSchema.Schema.File

/-!
The import list of a file.

An import is listed if and only if it is the first of its path, among the explicit imports and then
those that declarations bring with them. The list is sorted by path, so nothing else about its
sources shows in it.
-/

namespace ProtoSchema

namespace Import

variable {i : Import} {is js : List Import}

lemma mem_firstOfPath : i ∈ firstOfPath is ↔ is.find? (fun j => j.path = i.path) = some i := by
  induction is with
  | nil => simp [firstOfPath]
  | cons j js ih =>
    rw [firstOfPath, List.mem_cons, List.mem_filter, ih, List.find?_cons]
    by_cases h : j.path = i.path
    · simp [h, eq_comm]
    · have hne : i ≠ j := fun he => h (he ▸ rfl)
      simp [h, Ne.symm h, hne]

lemma pairwise_firstOfPath (is : List Import) :
    (firstOfPath is).Pairwise fun i j => i.path ≠ j.path := by
  induction is with
  | nil => exact .nil
  | cons j js ih =>
    refine List.pairwise_cons.2 ⟨fun i hi => ?_, ih.filter _⟩
    have hp : i.path ≠ j.path := by simpa using (List.mem_filter.1 hi).2
    exact hp.symm

lemma mem_canonical : i ∈ canonical is ↔ is.find? (fun j => j.path = i.path) = some i := by
  rw [canonical, List.mem_mergeSort, mem_firstOfPath]

/-- Sorted paths none of which occurs twice are strictly increasing. -/
lemma pairwise_canonical (is : List Import) :
    (canonical is).Pairwise fun i j => i.path < j.path := by
  have hle : (canonical is).Pairwise fun i j => decide (i.path ≤ j.path) = true := by
    refine List.pairwise_mergeSort (fun i j k hij hjk => ?_) (fun i j => ?_) (firstOfPath is)
    · exact decide_eq_true (String.le_trans (of_decide_eq_true hij) (of_decide_eq_true hjk))
    · simpa using String.le_total i.path j.path
  have hne : (canonical is).Pairwise fun i j => i.path ≠ j.path :=
    ((List.mergeSort_perm _ _).pairwise_iff Ne.symm).2 (pairwise_firstOfPath is)
  exact hle.imp₂ (fun i j hle hne => lt_of_le_of_ne (of_decide_eq_true hle) hne) hne

lemma nodup_canonical (is : List Import) : (canonical is).Nodup :=
  (pairwise_canonical is).imp fun {i j} (hlt : i.path < j.path) he => lt_irrefl j.path (he ▸ hlt)

/-- The list depends only on the first import of each path. -/
lemma canonical_congr
    (h : ∀ path, is.find? (fun j => j.path = path) = js.find? (fun j => j.path = path)) :
    canonical is = canonical js := by
  refine List.Perm.eq_of_pairwise (fun i j _ _ hij hji => ?_) (pairwise_canonical is)
    (pairwise_canonical js) ?_
  · exact absurd hij (lt_asymm hji)
  · refine (List.perm_ext_iff_of_nodup (nodup_canonical is) (nodup_canonical js)).2 fun i => ?_
    rw [mem_canonical, mem_canonical, h]

end Import

/-- Declarations bring only the import of the descriptor with them, and only extensions do. -/
lemma Declaration.find?_imports (ds : List Declaration) (path : String) (i : Import) :
    (ds.flatMap imports).find? (fun j => j.path = path) = some i ↔
      i = .descriptor ∧ i.path = path ∧ ∃ e, extension e ∈ ds := by
  induction ds with
  | nil => simp
  | cons d ds ih =>
    cases d with
    | extension e =>
      rw [List.flatMap_cons, imports, List.singleton_append, List.find?_cons]
      by_cases h : Import.descriptor.path = path
      · simp only [h, decide_true, Option.some.injEq]
        grind
      · simp only [h, decide_false, ih]
        grind
    | _ => simpa [imports] using ih

namespace File

lemma mem_imports {f : File} {i : Import} : i ∈ f.imports ↔
    f.explicitImports.find? (fun j => j.path = i.path) = some i ∨
      f.explicitImports.find? (fun j => j.path = i.path) = none ∧ i = .descriptor ∧
        ∃ e, .extension e ∈ f.blocks.flatten := by
  rw [File.imports, Import.mem_canonical, List.find?_append, Option.or_eq_some_iff,
    Declaration.find?_imports]
  simp

/-- An import is listed for an explicit one or for an extension. -/
lemma exists_mem_imports (f : File) (path : String) :
    (∃ i ∈ f.imports, i.path = path) ↔ (∃ i ∈ f.explicitImports, i.path = path) ∨
      path = Import.descriptor.path ∧ ∃ e, .extension e ∈ f.blocks.flatten := by
  have hfind : (∃ i ∈ f.explicitImports, i.path = path) ↔
      ∃ i, f.explicitImports.find? (fun j => j.path = path) = some i := by
    rw [← Option.isSome_iff_exists, List.find?_isSome]
    simp
  constructor
  · rintro ⟨i, hi, rfl⟩
    rcases mem_imports.1 hi with h | ⟨-, rfl, he⟩
    · exact .inl (hfind.2 ⟨i, h⟩)
    · exact .inr ⟨rfl, he⟩
  · intro h
    cases hf : f.explicitImports.find? (fun j => j.path = path) with
    | some i =>
      obtain rfl : i.path = path := by simpa using List.find?_some hf
      exact ⟨i, mem_imports.2 (.inl hf), rfl⟩
    | none =>
      rcases h with h | ⟨rfl, he⟩
      · obtain ⟨i, hi⟩ := hfind.1 h
        rw [hf] at hi
        cases hi
      · exact ⟨.descriptor, mem_imports.2 (.inr ⟨hf, rfl, he⟩), rfl⟩

lemma modifier_of_mem_imports {f : File} {i : Import} (h : i ∈ f.imports) :
    i.modifier =
      ((f.explicitImports.find? fun j => j.path = i.path).map Import.modifier).getD .plain := by
  rcases mem_imports.1 h with h | ⟨h, rfl, -⟩
  · rw [h]
    rfl
  · rw [h]
    rfl

lemma imports_congr {f g : File}
    (hi : ∀ path, g.explicitImports.filter (fun i => i.path = path) =
      f.explicitImports.filter fun i => i.path = path)
    (hb : g.blocks.flatten.Perm f.blocks.flatten) : g.imports = f.imports := by
  refine Import.canonical_congr fun path => ?_
  have hfirst : g.explicitImports.find? (fun i => i.path = path) =
      f.explicitImports.find? fun i => i.path = path := by
    rw [← List.head?_filter, ← List.head?_filter, hi path]
  have hbrought : (g.blocks.flatten.flatMap Declaration.imports).find? (fun i => i.path = path) =
      (f.blocks.flatten.flatMap Declaration.imports).find? fun i => i.path = path := by
    refine Option.ext fun i => ?_
    rw [Declaration.find?_imports, Declaration.find?_imports]
    simp only [hb.mem_iff]
  rw [List.find?_append, List.find?_append, hfirst, hbrought]

/-- The import list is sorted by path, has each path that is imported explicitly, the path of the
descriptor also for an extension, and the modifier of the first explicit import of a path. It
depends on nothing else: not on the order of imports of different paths, nor on how declarations are
arranged in blocks. -/
theorem imports_canonical (f : File) :
    f.imports.Pairwise (fun i j => i.path < j.path) ∧
      (∀ path, (∃ i ∈ f.imports, i.path = path) ↔ (∃ i ∈ f.explicitImports, i.path = path) ∨
        path = "google/protobuf/descriptor.proto" ∧ ∃ block ∈ f.blocks, ∃ e, .extension e ∈ block) ∧
      (∀ i ∈ f.imports, i.modifier =
        ((f.explicitImports.find? fun j => j.path = i.path).map Import.modifier).getD .plain) ∧
      ∀ g : File, (∀ path, g.explicitImports.filter (fun i => i.path = path) =
          f.explicitImports.filter fun i => i.path = path) →
        g.blocks.flatten.Perm f.blocks.flatten → g.imports = f.imports := by
  refine ⟨Import.pairwise_canonical _, fun path => ?_, fun i => modifier_of_mem_imports,
    fun g => imports_congr⟩
  have he : (∃ e, .extension e ∈ f.blocks.flatten) ↔
      ∃ block ∈ f.blocks, ∃ e, .extension e ∈ block := by
    simp only [List.mem_flatten]
    grind
  rw [exists_mem_imports, he]
  rfl

/-- The first import of a path is reexported, a second one plain; the declarations come in one block
or in two. -/
theorem imports_canonical_regrouped :
    let first : Import := ⟨"b.proto", .reexport⟩
    let second : Import := ⟨"b.proto", .plain⟩
    let f : File := {
      explicitImports := [first, ⟨"a.proto", .weak⟩, second]
      blocks := [[.enum { name := "E" }], [.extension { target := .file }]] }
    let g : File := {
      explicitImports := [first, second, ⟨"a.proto", .weak⟩]
      blocks := [[.extension { target := .file }, .enum { name := "E" }]] }
    (∃ i ∈ f.imports, i.path = "b.proto" ∧ i.modifier = .reexport) ∧
      (∃ i ∈ f.imports, i.path = Import.descriptor.path) ∧ g.imports = f.imports := by
  intro first second f g
  obtain ⟨-, hpath, hmodifier, hsame⟩ := imports_canonical f
  obtain ⟨i, hi, hp⟩ := (hpath "b.proto").2 (.inl ⟨first, by simp [f], rfl⟩)
  have hm : i.modifier = .reexport := (hmodifier i hi).trans (by rw [hp]; decide)
  refine ⟨⟨i, hi, hp, hm⟩, (hpath _).2 (.inr ⟨rfl, ?_⟩),
    hsame g (fun path => ?_) (List.Perm.swap _ _ _)⟩
  · exact ⟨[.extension { target := .file }], by simp [f], _, List.mem_singleton_self _⟩
  · by_cases ha : "a.proto" = path
    · subst ha
      rfl
    · simp [f, g, ha, List.filter_cons]

end File

end ProtoSchema
