/-!
Writing one thing after another.

What is written is a text together with the state that the writing leaves. The pieces of the text
are kept newest first until all of them are written.
-/

namespace ProtoSchema.Layout

variable {σ α : Type}

/-- Writes one more element behind the pieces written so far. -/
def writeNext (write : σ → α → List Char × σ) (r : List (List Char) × σ) (a : α) :
    List (List Char) × σ :=
  let written := write r.2 a
  (written.1 :: r.1, written.2)

/-- Writes all elements, each in the state that the one before it leaves. -/
def writeAll (write : σ → α → List Char × σ) (s : σ) (as : List α) : List Char × σ :=
  let r := as.foldl (writeNext write) ([], s)
  (r.1.reverse.flatten, r.2)

theorem foldl_writeNext (write : σ → α → List Char × σ) (pieces : List (List Char)) (s : σ)
    (as : List α) :
    as.foldl (writeNext write) (pieces, s) =
      ((as.foldl (writeNext write) ([], s)).1 ++ pieces,
        (as.foldl (writeNext write) ([], s)).2) := by
  induction as generalizing pieces s with
  | nil => simp
  | cons a as ih =>
    simp only [List.foldl_cons, writeNext]
    rw [ih, ih [_]]
    simp

@[simp] theorem writeAll_nil (write : σ → α → List Char × σ) (s : σ) :
    writeAll write s [] = ([], s) := rfl

theorem writeAll_cons (write : σ → α → List Char × σ) (s : σ) (a : α) (as : List α) :
    writeAll write s (a :: as) =
      ((write s a).1 ++ (writeAll write (write s a).2 as).1,
        (writeAll write (write s a).2 as).2) := by
  simp only [writeAll, List.foldl_cons, writeNext]
  rw [foldl_writeNext]
  simp

theorem writeAll_append (write : σ → α → List Char × σ) (s : σ) (as bs : List α) :
    writeAll write s (as ++ bs) =
      ((writeAll write s as).1 ++ (writeAll write (writeAll write s as).2 bs).1,
        (writeAll write (writeAll write s as).2 bs).2) := by
  induction as generalizing s with
  | nil => simp
  | cons a as ih => simp [writeAll_cons, ih]

/-- What no single step changes is the same after all of them. -/
theorem writeAll_preserves {β : Type} (f : σ → β) {write : σ → α → List Char × σ}
    (h : ∀ s a, f (write s a).2 = f s) (s : σ) (as : List α) :
    f (writeAll write s as).2 = f s := by
  induction as generalizing s with
  | nil => rfl
  | cons a as ih => rw [writeAll_cons, ih, h]

end ProtoSchema.Layout
