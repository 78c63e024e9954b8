import ProtoSchema.Node.Parts
import ProtoSchema.Report.Quoted

/-!
How values are shown: in full, as a part of a report or of another value, and as a text
of their own.

A node and an entry are shown by their parts. The nodes within a node lie at a depth that is known
beforehand, and no value is followed any deeper.
-/

namespace ProtoSchema

/-! ### Depth -/

mutual

/-- How many messages stand within each other. -/
def Message.depth : Message → Nat
  | ⟨_, _, _, _, blocks⟩ => 1 + Member.blocksDepth blocks

def Member.depth : Member → Nat
  | .message m => Message.depth m
  | _ => 0

def Member.listDepth : List Member → Nat
  | [] => 0
  | m :: ms => max (Member.depth m) (Member.listDepth ms)

def Member.blocksDepth : List (List Member) → Nat
  | [] => 0
  | b :: bs => max (Member.listDepth b) (Member.blocksDepth bs)

end

def Declaration.depth : Declaration → Nat
  | .message m => m.depth
  | _ => 0

def Node.depth : Node → Nat
  | .message m => m.depth
  | .file f => (f.blocks.flatten.map Declaration.depth).foldl max 0
  | _ => 0

namespace Value

mutual

/-- A bound on how deep values stand within a value. A message adds itself, its blocks and a
block to what stands within; the innermost has room for its members, their options and the
entries of these. -/
def depth : Value → Nat
  | .list vs => 1 + listDepth vs
  | .tuple vs => 1 + listDepth vs
  | .node n => 4 * n.depth + 16
  | .entry _ => 2
  | _ => 1

def listDepth : List Value → Nat
  | [] => 0
  | v :: vs => max (depth v) (listDepth vs)

end

/-! ### Shown in full -/

/-- A name with parts in brackets. -/
def record (name : String) (parts : List String) : String :=
  name ++ "(" ++ ", ".intercalate parts ++ ")"

/-- Keys and what they stand for, in braces. -/
def table (pairs : List (String × String)) : String :=
  "\x7b" ++ ", ".intercalate (pairs.map fun p => Report.quoteText p.1 ++ ": " ++ p.2) ++ "\x7d"

/-- A part as it is shown. -/
def assigned (name shown : String) : String := name ++ "=" ++ shown

def settingsShown (s : Layout.Settings) : String :=
  table <|
    (s.indentSize.map fun n => ("indent_size", toString n)).toList ++
      (s.unit.map fun u => ("indent_value", Report.quoteText u)).toList ++
      (s.lineWidth.map fun n => ("line_width", toString n)).toList

/-- A value in full, followed down to a depth. -/
def shownWithin : Nat → Value → String
  | 0, _ => ""
  | depth + 1, v =>
    let shownParts (parts : Parts) := parts.map fun p => assigned p.1 (shownWithin depth p.2)
    match v with
    | .null => "None"
    | .scalar (.text s) => Report.quoteText s
    | .scalar s => s.plainText
    | .list vs => "[" ++ ", ".intercalate (vs.map (shownWithin depth)) ++ "]"
    | .tuple [v] => "(" ++ shownWithin depth v ++ ",)"
    | .tuple vs => "(" ++ ", ".intercalate (vs.map (shownWithin depth)) ++ ")"
    | .choice c =>
      "<" ++ c.enumeration.label ++ "." ++ c.constant ++ ": " ++ Report.quoteText c.name ++ ">"
    | .settings s => settingsShown s
    | .identity f =>
      record v.kind
        [assigned "name" (Report.quoteText f.name),
          assigned "number" ((f.number.map toString).getD "None")]
    | .range r => record v.kind [assigned "low" r.low.text, assigned "high" r.high.text]
    | .entry e => record v.kind (shownParts e.parts)
    | .node n => record v.kind (shownParts n.parts)
    | .enumMember | .draft _ _ => "<" ++ v.kind ++ ">"
    | .comparison equal =>
      table <|
        ("eq", (Number.Quantity.truth equal).text) ::
          if equal then [("same_hash", (Number.Quantity.truth true).text)] else []

/-- A value in full. -/
def shown (v : Value) : String := v.shownWithin v.depth

/-! ### Shown as a text -/

/-- The parts of a node or an entry in a row. -/
def partsDisplay (depth : Nat) (parts : Parts) : String :=
  " ".intercalate (parts.map fun p => assigned p.1 (shownWithin depth p.2))

/-- The text that a value stands for. -/
def display (v : Value) : String :=
  match v with
  | .scalar (.text s) => s
  | .choice c => c.name
  | .range r => r.text
  | .entry e => partsDisplay v.depth e.parts
  | .node n => partsDisplay v.depth n.parts
  | v => v.shown

/-! ### Gone through one by one -/

/-- The keys of settings that are not left out. -/
def settingsKeys (s : Layout.Settings) : List String :=
  (s.indentSize.map fun _ => "indent_size").toList ++ (s.unit.map fun _ => "indent_value").toList ++
    (s.lineWidth.map fun _ => "line_width").toList

/-- What a value consists of: elements, characters, bytes, numbers, named parts or keys. -/
def contents? : Value → Option (List Value)
  | .list vs => some vs
  | .tuple vs => some vs
  | .scalar (.text s) => some (s.toList.map fun c => .text (String.ofList [c]))
  | .scalar (.bytes b) => some (b.map fun byte => .int byte.toNat)
  | .choice c => some (c.name.toList.map fun d => .text (String.ofList [d]))
  | .range r => r.numbers.toOption.map fun ns => ns.map .int
  | .entry e => some (e.parts.map fun p => .tuple [.text p.1, p.2])
  | .node n => some (n.parts.map fun p => .tuple [.text p.1, p.2])
  | .settings s => some ((settingsKeys s).map .text)
  | .comparison equal => some (("eq" :: if equal then ["same_hash"] else []).map .text)
  | _ => none

/-- Why a value that is gone through cannot be. -/
def listingError? : Value → Option ListingError
  | .range r =>
    match r.numbers with
    | .error e => some e
    | .ok _ => none
  | _ => none

/-- The value has named parts and is no node. -/
def isTable : Value → Bool
  | .settings _ | .comparison _ => true
  | _ => false

/-- What a value consists of, unless it is taken as a whole, as scalars and tables are. -/
def elements? (v : Value) : Option (List Value) :=
  if v.scalar?.isSome || v.isTable then none else v.contents?

end Value

end ProtoSchema
