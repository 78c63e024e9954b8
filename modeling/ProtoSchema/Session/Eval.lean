import ProtoSchema.Session.Action

/-!
The value of an expression, and whole sessions.

Arguments are evaluated from left to right, right before the call that takes them. A failure ends
the expression it occurs in; changes made before it stay.
-/

namespace ProtoSchema.Session

open Build

mutual

def Expr.eval : Expr → Run Value
  | .constant v => Run.constant v
  | .number digits => .int <$> Run.ofExcept .unread (Number.wholeOfText? digits)
  | .member enumeration given => Run.member enumeration given
  | .list items => do pure (.list (← Expr.evalAll items))
  | .tuple items => do pure (.tuple (← Expr.evalAll items))
  | .reference name => Run.valueOf name
  | .call callee args => do callee.apply (← Expr.evalAll args)
  | .assemble kind names parts => do assembled kind (names.zip (← Expr.evalAll parts))
  | .send receiver action args => do
    let v ← Expr.eval receiver
    action.apply v (← Expr.evalAll args)

def Expr.evalAll : List Expr → Run (List Value)
  | [] => pure []
  | e :: es => do
    let v ← Expr.eval e
    let vs ← Expr.evalAll es
    pure (v :: vs)

end

/-- An expression, and the variable that keeps its value. -/
structure Step where
  expr : Expr
  target : Option String := none

def Step.eval (s : Step) : Run Value := do
  let v ← s.expr.eval
  if let some name := s.target then Run.setVariable name v
  pure v

/-- The state a run leaves, and what it comes to. -/
def runFrom {α : Type} (s : State) (r : Run α) : State × Except Failure α :=
  match r s with
  | .ok a s => (s, .ok a)
  | .error e s => (s, .error e)

/-- The results of all steps; a step that fails does not end the session. -/
def results (s : State) : List Step → List (Except Failure Value)
  | [] => []
  | step :: steps =>
    let r := runFrom s step.eval
    r.2 :: results r.1 steps

end ProtoSchema.Session
