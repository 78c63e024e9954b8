import ProtoSchema.Build.Assembly
import ProtoSchema.Number.WholeText

/-!
What can go wrong in a session, and how it is reported.
-/

namespace ProtoSchema.Session

open Build Layout Print

/-- A request that makes no sense, whatever the values are. -/
inductive BadRequest where
  | unsetVariable
  | unsupported
  deriving DecidableEq, Repr

def BadRequest.message : BadRequest → String
  | unsetVariable => "unset variable"
  | unsupported => "unsupported request"

inductive Failure where
  | refused (r : Refusal)
  | layout (e : LayoutError)
  | invalid (i : Invalid)
  /-- A conflict met while writing on a writer. -/
  | usage (c : Usage.Conflict)
  /-- A conflict that kept a text from being rendered. -/
  | render (c : Usage.Conflict)
  /-- A failure asked for. -/
  | raised (message : String)
  | unformatted (e : FormatError)
  /-- A whole number is not read, or not written. -/
  | unread (e : Number.WholeError)
  | noText
  | badRequest (b : BadRequest)
  deriving Repr

namespace Failure

/-- The message, but for faults, which are reported one by one. -/
def message : Failure → String
  | refused r => r.message
  | layout e => e.message
  | invalid _ => ""
  | usage c => c.message
  | render c => c.message
  | raised message => message
  | unformatted e => e.message
  | unread e => e.message
  | noText => ""
  | badRequest b => b.message

def unsupported : Failure := .badRequest .unsupported

/-- What ended the writing of a node. -/
def ofWriting : PrintError → Failure
  | .layout e => .layout e
  | .conflict c => .usage c
  | .listing e => .refused (.unlisted e)
  | .number e => .unread e
  | .literal e => .unformatted e
  | .noText => .noText

/-- What kept a node from being rendered; only conflicts are reported differently. -/
def ofRendering : PrintError → Failure
  | .conflict c => .render c
  | e => ofWriting e

def ofBuildError : BuildError → Failure
  | .refused r => .refused r
  | .invalid i => .invalid i

end Failure

end ProtoSchema.Session
