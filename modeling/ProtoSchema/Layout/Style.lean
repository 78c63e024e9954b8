/-!
How text is laid out: the unit of indentation, the units of one step, and the line width.

A style is made from settings, each of which may be left out. Both sizes are positive
in every style.
-/

namespace ProtoSchema.Layout

/-- What can be wrong with a style or with a change of indentation. -/
inductive LayoutError where
  | lineWidthNotPositive
  | indentSizeNotPositive
  | indentNotPositive
  | indentBelowZero (levels : Int) (level : Nat)
  deriving DecidableEq, Repr

def LayoutError.message : LayoutError → String
  | .lineWidthNotPositive => "line width must be positive"
  | .indentSizeNotPositive => "indent size must be positive"
  | .indentNotPositive => "indent level must be greater than 0"
  | .indentBelowZero levels level =>
    "cannot unindent " ++ toString levels ++ " from " ++ toString level

structure Style where
  unit : List Char
  indentSize : Nat
  lineWidth : Nat
  indentSize_pos : 0 < indentSize
  lineWidth_pos : 0 < lineWidth

/-- Two spaces for each step, and lines of eighty characters. -/
def Style.usual : Style := ⟨[' '], 2, 80, by decide, by decide⟩

/-- The same style with nothing to indent by, for what is not kept. -/
def Style.flat (s : Style) : Style := { s with unit := [] }

/-- Settings as they are asked for; what is absent takes the usual value. -/
structure Settings where
  unit : Option String := none
  indentSize : Option Int := none
  lineWidth : Option Int := none
  deriving DecidableEq, Repr

/-- A positive size as a natural number. -/
def positive? (n : Int) : Option { k : Nat // 0 < k } :=
  if h : 0 < n then some ⟨n.toNat, by omega⟩ else none

/-- The line width asked for. -/
def lineWidth? (width : Option Int) : Except LayoutError { k : Nat // 0 < k } :=
  match positive? (width.getD Style.usual.lineWidth) with
  | some k => .ok k
  | none => .error .lineWidthNotPositive

/-- The indent size asked for. -/
def indentSize? (size : Option Int) : Except LayoutError { k : Nat // 0 < k } :=
  match positive? (size.getD Style.usual.indentSize) with
  | some k => .ok k
  | none => .error .indentSizeNotPositive

/-- The style for some settings: the indent size is looked at before the line width. -/
def Style.ofSettings? (s : Settings) : Except LayoutError Style :=
  match indentSize? s.indentSize with
  | .error e => .error e
  | .ok size =>
    match lineWidth? s.lineWidth with
    | .error e => .error e
    | .ok width =>
      .ok ⟨(s.unit.map String.toList).getD Style.usual.unit, size, width, size.2, width.2⟩

end ProtoSchema.Layout
