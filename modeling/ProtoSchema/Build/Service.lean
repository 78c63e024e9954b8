import ProtoSchema.Build.Option

/-!
Services and their methods, made from parts, and their drafts.
-/

namespace ProtoSchema

open Build

namespace Method

def refusal? (m : Method) : Option Refusal := targetRefusal? .method m.options

def ofParts (ps : Parts) : Checked Method :=
  (Method.mk <$> ps.required "name" Read.text
    <*> ps.required "request" Read.text
    <*> ps.required "response" Read.text
    <*> ps.optional "request_streaming" false Read.bool
    <*> ps.optional "response_streaming" false Read.bool
    <*> ps.optional "comment" [] Read.texts
    <*> ps.optional "options" [] Read.options).verify refusal?

end Method

namespace Service

def refusal? (s : Service) : Option Refusal := targetRefusal? .service s.options

def ofParts (ps : Parts) : Checked Service :=
  (Service.mk <$> ps.required "name" Read.text
    <*> ps.optional "comment" [] Read.texts
    <*> ps.optional "options" [] Read.options
    <*> ps.optional "rpcs" []
      (Read.elements <| Read.node .method fun
        | .method m => some m
        | _ => none)).verify refusal?

end Service

/-! ### Drafts -/

namespace Build

structure MethodDraft where
  name : Value
  request : Value := .null
  response : Value := .null
  requestStreaming : Value := .bool false
  responseStreaming : Value := .bool false
  comment : List Value := []
  options : List Node := []

def MethodDraft.build (d : MethodDraft) : Except BuildError Node :=
  match d.request, d.response with
  | .null, _ => .error (.refused .requestMissing)
  | _, .null => .error (.refused .responseMissing)
  | request, response =>
    Checked.toNode .method .method <| Method.ofParts
      [("name", d.name), ("request", request), ("response", response),
        ("request_streaming", d.requestStreaming), ("response_streaming", d.responseStreaming),
        ("comment", .tuple d.comment), ("options", .nodeList d.options)]

structure ServiceDraft where
  name : Value
  comment : List Value := []
  options : List Node := []
  methods : List Node := []

def ServiceDraft.build (d : ServiceDraft) : Except BuildError Node :=
  Checked.toNode .service .service <| Service.ofParts
    [("name", d.name), ("comment", .tuple d.comment), ("options", .nodeList d.options),
      ("rpcs", .nodeList d.methods)]

end Build

end ProtoSchema
