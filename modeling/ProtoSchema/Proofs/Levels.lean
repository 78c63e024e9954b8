import Mathlib.Algebra.Ring.Int.Defs
import ProtoSchema.Proofs.Fault

/-!
The level over a sequence of calls.

Text and comments leave the level of a writer as it is. It is raised by positive amounts only, but
it is lowered by any amount that it reaches, also by one that is not positive. A call that is
refused changes nothing, so the level is the sum of what was accepted.
-/

namespace ProtoSchema.Print

open Layout

namespace Step

/-- The step is a call of one of the methods of a writer: a text, a comment, or a change of
the level. -/
def IsCall : Step → Prop
  | emit _ | comment _ | indent _ | unindent _ => True
  | body _ | fail _ => False

/-- By how much a call is to raise the level, where an indent step has some size. -/
def raise? (size : Nat) : Step → Option Int
  | indent levels => some (levels.getD size)
  | _ => none

/-- By how much a call is to lower the level. -/
def lower? (size : Nat) : Step → Option Int
  | unindent levels => some (levels.getD size)
  | _ => none

/-- Why a call is refused at a level: it raises the level by nothing or less, or lowers it
below zero. -/
def refusal? (size level : Nat) : Step → Option LayoutError
  | indent levels => if levels.getD size ≤ 0 then some .indentNotPositive else none
  | unindent levels =>
    if level < levels.getD size then some (.indentBelowZero (levels.getD size) level) else none
  | _ => none

/-- What a call does: it is refused and nothing is written or changed, or the level changes by what
was asked for. -/
lemma run_call {step : Step} (h : step.IsCall) (w : Writer) :
    (∃ e, step.refusal? w.style.indentSize w.level = some e ∧
      step.run w = .failed w (.layout e)) ∨
    step.refusal? w.style.indentSize w.level = none ∧ (step.run w).error = none ∧
      ((step.run w).writer.level : Int) = w.level + (step.raise? w.style.indentSize).getD 0 -
        (step.lower? w.style.indentSize).getD 0 ∧
      (step.run w).writer.style.indentSize = w.style.indentSize := by
  cases step with
  | emit text =>
    right
    obtain ⟨hl, hs⟩ := Prod.mk.inj (w.pace_emit text.toList)
    simp [refusal?, raise?, lower?, run, Outcome.ofWritten, hl, hs]
  | comment lines =>
    right
    obtain ⟨hl, hs⟩ := Prod.mk.inj (w.pace_emitComment lines)
    simp [refusal?, raise?, lower?, run, Outcome.ofWritten, hl, hs]
  | indent levels =>
    by_cases hn : levels.getD w.style.indentSize ≤ 0
    · left
      exact ⟨.indentNotPositive, by simp [refusal?, hn],
        by simp [run, Writer.indent, Writer.levelsMeant, hn, Outcome.ofChange]⟩
    · right
      simp [refusal?, raise?, lower?, run, Writer.indent, Writer.levelsMeant, hn, Outcome.ofChange]
      omega
  | unindent levels =>
    by_cases hn : (w.level : Int) < levels.getD w.style.indentSize
    · left
      have hs : (w.level : Int) - levels.getD w.style.indentSize < 0 := by omega
      exact ⟨.indentBelowZero (levels.getD w.style.indentSize) w.level, by simp [refusal?, hn],
        by simp [run, Writer.unindent, Writer.levelsMeant, hs, Outcome.ofChange]⟩
    · right
      have hs : ¬ (w.level : Int) - levels.getD w.style.indentSize < 0 := by omega
      simp [refusal?, raise?, lower?, run, Writer.unindent, Writer.levelsMeant, hn, hs,
        Outcome.ofChange]
      omega
  | body _ | fail _ => exact absurd h id

variable {calls : List Step}

/-- The writer that calls leave, made one after another. A call that is refused does
not end them. -/
def after (w : Writer) (calls : List Step) : Writer :=
  calls.foldl (fun w call => (call.run w).writer) w

/-- The calls that are not refused, of calls made one after another. -/
def accepted (w : Writer) : List Step → List Step
  | [] => []
  | call :: calls =>
    (if (call.run w).error = none then [call] else []) ++ accepted (call.run w).writer calls

/-- By how much calls raise the level, one amount for each that is to raise it. -/
def raises (size : Nat) (calls : List Step) : List Int := calls.filterMap (raise? size)

/-- By how much calls lower the level, one amount for each that is to lower it. -/
def lowers (size : Nat) (calls : List Step) : List Int := calls.filterMap (lower? size)

lemma sum_raises_cons (size : Nat) (call : Step) (calls : List Step) :
    (raises size (call :: calls)).sum = (call.raise? size).getD 0 + (raises size calls).sum := by
  cases h : call.raise? size <;> simp [raises, h]

lemma sum_lowers_cons (size : Nat) (call : Step) (calls : List Step) :
    (lowers size (call :: calls)).sum = (call.lower? size).getD 0 + (lowers size calls).sum := by
  cases h : call.lower? size <;> simp [lowers, h]

/-- A call that is refused is passed over. -/
lemma accepted_cons_of_failed {call : Step} {w : Writer} {e : PrintError}
    (h : call.run w = .failed w e) (calls : List Step) :
    accepted w (call :: calls) = accepted w calls := by
  simp [accepted, h, Outcome.failed]

lemma accepted_cons {call : Step} {w : Writer} (h : (call.run w).error = none) (calls : List Step) :
    accepted w (call :: calls) = call :: accepted (call.run w).writer calls := by
  simp [accepted, h]

lemma after_cons_of_failed {call : Step} {w : Writer} {e : PrintError}
    (h : call.run w = .failed w e) (calls : List Step) :
    after w (call :: calls) = after w calls := by
  simp [after, h, Outcome.failed]

/-- The size of an indent step is what it was. -/
lemma indentSize_after (h : ∀ call ∈ calls, call.IsCall) (w : Writer) :
    (after w calls).style.indentSize = w.style.indentSize := by
  induction calls generalizing w with
  | nil => rfl
  | cons call calls ih =>
    obtain ⟨hc, hcs⟩ := List.forall_mem_cons.mp h
    rcases run_call hc w with ⟨e, -, hf⟩ | ⟨-, -, -, hs⟩
    · rw [after_cons_of_failed hf, ih hcs]
    · exact (ih hcs _).trans hs

/-- The level is the sum of what was accepted. -/
lemma level_after (h : ∀ call ∈ calls, call.IsCall) (w : Writer) :
    ((after w calls).level : Int) = w.level + (raises w.style.indentSize (accepted w calls)).sum -
      (lowers w.style.indentSize (accepted w calls)).sum := by
  induction calls generalizing w with
  | nil => simp [after, accepted, raises, lowers]
  | cons call calls ih =>
    obtain ⟨hc, hcs⟩ := List.forall_mem_cons.mp h
    rcases run_call hc w with ⟨e, -, hf⟩ | ⟨-, he, hl, hs⟩
    · rw [after_cons_of_failed hf, accepted_cons_of_failed hf, ih hcs]
    · have hrest := ih hcs (call.run w).writer
      rw [hs] at hrest
      rw [accepted_cons he, sum_raises_cons, sum_lowers_cons]
      change ((after (call.run w).writer calls).level : Int) = _
      omega

/-- An amount that is not refused raises the level. -/
lemma pos_of_not_refused {call : Step} {size level : Nat} (h : call.refusal? size level = none)
    {n : Int} (hn : call.raise? size = some n) : 0 < n := by
  cases call with
  | indent levels =>
    obtain rfl := Option.some.inj hn
    simp only [refusal?, ite_eq_right_iff, reduceCtorEq, imp_false] at h
    omega
  | emit _ | comment _ | unindent _ | body _ | fail _ => nomatch hn

lemma raises_accepted_pos (h : ∀ call ∈ calls, call.IsCall) (w : Writer) :
    ∀ n ∈ raises w.style.indentSize (accepted w calls), 0 < n := by
  induction calls generalizing w with
  | nil => simp [raises, accepted]
  | cons call calls ih =>
    obtain ⟨hc, hcs⟩ := List.forall_mem_cons.mp h
    rcases run_call hc w with ⟨e, -, hf⟩ | ⟨hr, he, -, hs⟩
    · rw [accepted_cons_of_failed hf]
      exact ih hcs w
    · intro n hn
      obtain ⟨c, hcall, hraise⟩ := List.mem_filterMap.mp hn
      rw [accepted_cons he] at hcall
      rcases List.mem_cons.mp hcall with rfl | hcall
      · exact pos_of_not_refused hr hraise
      · exact ih hcs _ n (List.mem_filterMap.mpr ⟨c, hcall, by rw [hs]; exact hraise⟩)

/-- **The level of a writer.** After any calls it is the sum of the amounts that were accepted,
and each amount that it was raised by is positive. A call is refused exactly for an amount to
raise it by that is not positive, or for one to lower it by that it does not reach, and then it
changes nothing. So lowering it by an amount that is not positive is accepted, and does not
leave it lower. -/
theorem level_accounted (h : ∀ call ∈ calls, call.IsCall) (w : Writer) :
    (((after w calls).level : Int) = w.level + (raises w.style.indentSize (accepted w calls)).sum -
        (lowers w.style.indentSize (accepted w calls)).sum) ∧
      (∀ n ∈ raises w.style.indentSize (accepted w calls), 0 < n) ∧
      ∀ before call rest, calls = before ++ call :: rest →
        (∀ e, call.refusal? w.style.indentSize (after w before).level = some e →
          call.run (after w before) = .failed (after w before) (.layout e)) ∧
        (call.refusal? w.style.indentSize (after w before).level = none →
          (call.run (after w before)).error = none) ∧
        ∀ n, call.lower? w.style.indentSize = some n → (call.run (after w before)).error = none →
          ((call.run (after w before)).writer.level < (after w before).level ↔ 0 < n) := by
  refine ⟨level_after h w, raises_accepted_pos h w, fun before call rest hsplit => ?_⟩
  subst hsplit
  have hsize : (after w before).style.indentSize = w.style.indentSize :=
    indentSize_after (fun c hc => h c (List.mem_append_left _ hc)) w
  have hcall := run_call (h call (List.mem_append_right _ List.mem_cons_self)) (after w before)
  rw [hsize] at hcall
  rcases hcall with ⟨e, hr, hf⟩ | ⟨hr, he, hl, -⟩
  · refine ⟨fun e' hr' => ?_, fun hr' => ?_, fun n _ he => ?_⟩
    · rw [hf, Option.some.inj (hr.symm.trans hr')]
    · rw [hr] at hr'; nomatch hr'
    · rw [hf] at he; nomatch he
  · refine ⟨fun e hr' => ?_, fun _ => he, fun n hn _ => ?_⟩
    · rw [hr] at hr'; nomatch hr'
    · have hraise : call.raise? w.style.indentSize = none := by
        cases call <;> first | rfl | nomatch hn
      rw [hraise, hn] at hl
      simp only [Option.getD_none, Option.getD_some] at hl
      omega

/-- Three up, an amount below zero, more than there is, a text, nothing, and one step down. -/
def ups : List Step :=
  [.indent (some 3), .unindent (some (-2)), .unindent (some 9), .emit "a", .indent (some 0),
    .unindent none]

theorem level_accounted_ups :
    (∀ call ∈ ups, call.IsCall) ∧
      raises 2 (accepted (.ofStyle .usual) ups) = [3] ∧
      lowers 2 (accepted (.ofStyle .usual) ups) = [-2, 2] ∧
      ((after (.ofStyle .usual) ups).level : Int) = 3 ∧
      (after (.ofStyle .usual) [.indent (some 3)]).level = 3 ∧
      ((unindent (some (-2))).run (after (.ofStyle .usual) [.indent (some 3)])).error = none ∧
      ¬ ((unindent (some (-2))).run
        (after (.ofStyle .usual) [.indent (some 3)])).writer.level < 3 := by
  have hcalls : ∀ call ∈ ups, call.IsCall := by simp [ups, IsCall]
  have hraises : raises 2 (accepted (.ofStyle .usual) ups) = [3] := by decide
  have hlowers : lowers 2 (accepted (.ofStyle .usual) ups) = [-2, 2] := by decide
  have herror : ((unindent (some (-2))).run
      (after (.ofStyle .usual) [.indent (some 3)])).error = none := by
    decide
  obtain ⟨hlevel, -, hat⟩ := level_accounted hcalls (.ofStyle .usual)
  refine ⟨hcalls, hraises, hlowers, ?_, rfl, herror, ?_⟩
  · change ((after (.ofStyle .usual) ups).level : Int) =
      ((Writer.ofStyle .usual).level : Int) + (raises 2 (accepted (.ofStyle .usual) ups)).sum -
        (lowers 2 (accepted (.ofStyle .usual) ups)).sum at hlevel
    rw [hlevel, hraises, hlowers]
    rfl
  · obtain ⟨-, -, hlower⟩ := hat [.indent (some 3)] (.unindent (some (-2))) _ rfl
    exact fun hlt => absurd ((hlower (-2) rfl herror).mp hlt) (by decide)

/-- An amount below zero is not refused: it raises the level of a new writer. Nor is an amount of
zero, which leaves the level as it is. -/
theorem unindent_raises_level :
    ((unindent (some (-3))).run (.ofStyle .usual)).error = none ∧
      ((unindent (some (-3))).run (.ofStyle .usual)).writer.level = 3 ∧
      ((unindent (some 0)).run (.ofStyle .usual)).error = none ∧
      ((unindent (some 0)).run (.ofStyle .usual)).writer.level = (Writer.ofStyle .usual).level := by
  decide

end Step

end ProtoSchema.Print
