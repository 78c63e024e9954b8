import Mathlib.Tactic.Lemma
import ProtoSchema.Print.File

/-!
Messages as trees, and their blocks as lists.

A statement about all messages is proved from the messages nested directly in one. The blocks
of a body are written one after another with one scope, so they can be looked at as a single
list of elements.
-/

namespace ProtoSchema

open Print Usage

theorem Message.induction {P : Message → Prop}
    (step : ∀ m, (∀ n, Member.message n ∈ m.blocks.flatten → P n) → P m) (m : Message) : P m := by
  refine step m fun n hn => Message.induction step n
termination_by sizeOf m
decreasing_by
  obtain ⟨name, comment, options, reservations, blocks⟩ := m
  obtain ⟨b, hb, hn⟩ := List.mem_flatten.1 hn
  have h₁ := List.sizeOf_lt_of_mem hb
  have h₂ := List.sizeOf_lt_of_mem hn
  simp only [Member.message.sizeOf_spec, Message.mk.sizeOf_spec] at h₁ h₂ ⊢
  omega

/-! ### What a tree holds -/

mutual

/-- What a message holds itself, and what the messages and the other members nested in it hold. -/
def Message.collect {α : Type} (own : Message → List α) (other : Member → List α) :
    Message → List α
  | ⟨name, comment, options, reservations, blocks⟩ =>
    own ⟨name, comment, options, reservations, blocks⟩ ++ Member.collectBlocks own other blocks

def Member.collect {α : Type} (own : Message → List α) (other : Member → List α) :
    Member → List α
  | .message m => Message.collect own other m
  | .field f => other (.field f)
  | .map f => other (.map f)
  | .oneof o => other (.oneof o)
  | .enum e => other (.enum e)

def Member.collectAll {α : Type} (own : Message → List α) (other : Member → List α) :
    List Member → List α
  | [] => []
  | m :: ms => Member.collect own other m ++ Member.collectAll own other ms

def Member.collectBlocks {α : Type} (own : Message → List α) (other : Member → List α) :
    List (List Member) → List α
  | [] => []
  | b :: bs => Member.collectAll own other b ++ Member.collectBlocks own other bs

end

section Collect

variable {α : Type} (own : Message → List α) (other : Member → List α)

lemma Member.collectAll_eq (ms : List Member) :
    Member.collectAll own other ms = ms.flatMap (Member.collect own other) := by
  induction ms with
  | nil => rfl
  | cons m ms ih => rw [collectAll, ih, List.flatMap_cons]

lemma Member.collectBlocks_eq (blocks : List (List Member)) :
    Member.collectBlocks own other blocks = blocks.flatten.flatMap (Member.collect own other) := by
  induction blocks with
  | nil => rfl
  | cons b bs ih =>
    rw [collectBlocks, ih, Member.collectAll_eq, List.flatten_cons, List.flatMap_append]

lemma Message.collect_eq (m : Message) :
    m.collect own other = own m ++ m.blocks.flatten.flatMap (Member.collect own other) := by
  cases m
  rw [collect, Member.collectBlocks_eq]

end Collect

/-! ### Blocks -/

namespace Print

variable {σ α : Type} {register : σ → α → σ × Option Rejection} {script : α → Script}

lemma registered_cons (s : σ) (a : α) (as : List α) :
    registered register script s (a :: as) =
      (guard (register s a).2 ++ script a ++ (registered register script (register s a).1 as).1,
        (registered register script (register s a).1 as).2) := rfl

lemma registered_append (s : σ) (as bs : List α) :
    registered register script s (as ++ bs) =
      ((registered register script s as).1 ++
          (registered register script (registered register script s as).2 bs).1,
        (registered register script (registered register script s as).2 bs).2) := by
  induction as generalizing s with
  | nil => simp [registered]
  | cons a as ih => simp [registered_cons, ih]

end Print

lemma Message.script_eq (m : Message) :
    m.script = .comment m.comment :: scope ("message " ++ m.name)
      (optionSection m.options ++ sectionFor m.reservations (reservedScript m.reservations).1 ++
        Member.sections ⟨(reservedScript m.reservations).2, { owner := some m.name }⟩
          m.blocks) := by
  cases m
  rfl

lemma Member.blockScript_eq (s : MemberScope) (ms : List Member) :
    Member.blockScript s ms = registered Member.register Member.script s ms := by
  induction ms generalizing s with
  | nil => rfl
  | cons m ms ih => simp only [Member.blockScript, registered_cons, ih]

lemma Member.flatten_sections (s : MemberScope) (blocks : List (List Member)) :
    (Member.sections s blocks).flatten =
      (registered Member.register Member.script s blocks.flatten).1 := by
  induction blocks generalizing s with
  | nil => rfl
  | cons b bs ih =>
    simp only [Member.sections, Member.blockScript_eq, List.flatten_cons, registered_append, ih]

end ProtoSchema
