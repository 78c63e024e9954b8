import ProtoSchema.Session.Eval

/-!
A writer used step by step within a session.

Nodes are given by expressions, which are evaluated when their step is reached. An error inside a
section leaves the section and the scope around it.
-/

namespace ProtoSchema.Session

open Layout

inductive WriterStep where
  | emit (text : String)
  | comment (lines : List String)
  | indent (levels : Option Int)
  | unindent (levels : Option Int)
  | scope (header : String) (sections : List (List WriterStep))
  /-- Writes a node on the writer. -/
  | node (e : Expr)
  /-- Writes a node and reports a conflict as a failure to render it. -/
  | rendered (e : Expr)
  | fail (message : String)

/-- The state of the session, and what has come of the writer. -/
structure Progress where
  state : State
  outcome : Outcome Failure

namespace Progress

def nothing (s : State) (w : Writer) : Progress := ⟨s, ⟨[], w, none⟩⟩

def failed (s : State) (w : Writer) (f : Failure) : Progress := ⟨s, .failed w f⟩

/-- Goes on with the state and the writer left, unless there was a failure. -/
def andThen (p : Progress) (next : State → Writer → Progress) : Progress :=
  match p.outcome.error with
  | some _ => p
  | none =>
    let rest := next p.state p.outcome.writer
    ⟨rest.state, { rest.outcome with text := p.outcome.text ++ rest.outcome.text }⟩

/-- Writes text, which never fails. -/
def emit (text : String) (s : State) (w : Writer) : Progress :=
  ⟨s, .ofWritten (w.emit text.toList)⟩

/-- Enters a section; it is left whatever happens in it. -/
def body (run : State → Writer → Progress) (s : State) (w : Writer) : Progress :=
  match w.indent none with
  | .error e => failed s w (.layout e)
  | .ok inner =>
    let p := run s inner
    ⟨p.state, p.outcome.leaveBody .layout⟩

end Progress

/-- Writes the node that an expression gives. -/
def writeNode (lift : Print.PrintError → Failure) (e : Expr) (s : State) (w : Writer) :
    Progress :=
  match runFrom s (do Run.node (← e.eval)) with
  | (s, .ok n) => ⟨s, (n.emit w).mapError lift⟩
  | (s, .error f) => .failed s w f

mutual

def WriterStep.run : WriterStep → State → Writer → Progress
  | .emit text, s, w => .emit text s w
  | .comment lines, s, w => ⟨s, .ofWritten (w.emitComment lines)⟩
  | .indent levels, s, w => ⟨s, .ofChange .layout w (w.indent levels)⟩
  | .unindent levels, s, w => ⟨s, .ofChange .layout w (w.unindent levels)⟩
  | .scope header sections, s, w =>
    ((Progress.emit (header ++ " \x7b" ++ if sections.isEmpty then "" else "\n") s w).andThen
      (WriterStep.runSections sections)).andThen (.emit "\x7d\n")
  | .node e, s, w => writeNode .ofWriting e s w
  | .rendered e, s, w => writeNode .ofRendering e s w
  | .fail message, s, w => .failed s w (.raised message)

def WriterStep.runAll : List WriterStep → State → Writer → Progress
  | [], s, w => .nothing s w
  | step :: steps, s, w => (step.run s w).andThen (WriterStep.runAll steps)

/-- Sections, each indented and below a blank line. -/
def WriterStep.runSections : List (List WriterStep) → State → Writer → Progress
  | [], s, w => .nothing s w
  | steps :: sections, s, w =>
    ((Progress.emit "\n" s w).andThen (.body (WriterStep.runAll steps))).andThen
      (WriterStep.runSections sections)

end

/-- What each step comes to; a step that fails does not end the use of the writer. -/
def outcomes (s : State) (w : Writer) : List WriterStep → List (Outcome Failure)
  | [] => []
  | step :: steps =>
    let p := step.run s w
    p.outcome :: outcomes p.state p.outcome.writer steps

/-- Binds variables one after another. -/
def bindAll (s : State) : List Step → Except Failure State
  | [] => .ok s
  | step :: steps =>
    match runFrom s step.eval with
    | (s, .ok _) => bindAll s steps
    | (_, .error f) => .error f

end ProtoSchema.Session
