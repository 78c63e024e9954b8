/-!
The constructs an option may be attached to.

Each is named by the descriptor message that defines its options, and knows some options by name.
-/

namespace ProtoSchema

inductive OptionTarget where
  | file | message | field | enum | enumValue | service | oneof | method
  deriving DecidableEq, Repr

namespace OptionTarget

/-- The descriptor message that holds the options. -/
def name : OptionTarget → String
  | file => "FileOptions"
  | message => "MessageOptions"
  | field => "FieldOptions"
  | enum => "EnumOptions"
  | enumValue => "EnumValueOptions"
  | service => "ServiceOptions"
  | oneof => "OneofOptions"
  | method => "MethodOptions"

def all : List OptionTarget := [file, message, field, enum, enumValue, service, oneof, method]

def ofName? (name : String) : Option OptionTarget := all.find? fun t => t.name = name

/-- The construct in words. -/
def label : OptionTarget → String
  | file => "file"
  | message => "message"
  | field => "field"
  | enum => "enum"
  | enumValue => "enum value"
  | service => "service"
  | oneof => "oneof"
  | method => "method"

/-- The descriptor message by its full name, as an extension refers to it. -/
def descriptorName (t : OptionTarget) : String := "google.protobuf." ++ t.name

/-- Options of fields and enum values stand in brackets behind the declaration. -/
def isInline : OptionTarget → Bool
  | field | enumValue => true
  | _ => false

/-- The options that are defined already; all others are custom. -/
def wellKnown : OptionTarget → List String
  | file =>
    ["java_package", "java_outer_classname", "java_multiple_files", "java_generate_equals_and_hash",
      "java_string_check_utf8", "optimize_for", "go_package", "cc_generic_services",
      "java_generic_services", "py_generic_services", "php_generic_services", "deprecated",
      "cc_enable_arenas", "objc_class_prefix", "csharp_namespace", "swift_prefix",
      "php_class_prefix", "php_namespace", "php_metadata_namespace", "ruby_package"]
  | message => ["message_set_wire_format", "no_standard_descriptor_accessor", "deprecated"]
  | field => ["ctype", "packed", "jstype", "lazy", "deprecated", "weak", "debug_redact"]
  | enum => ["allow_alias", "deprecated"]
  | enumValue => ["deprecated", "debug_redact"]
  | service => ["deprecated"]
  | oneof => []
  | method => ["deprecated", "idempotency_level"]

end OptionTarget

end ProtoSchema
