/-
Paths of host types. Messages name the types of the program by their full paths; these are the paths
of the built-in ones.
-/

set_option autoImplicit false

namespace TypedStore.HostPath

/-- A cell. -/
def value : String := "trove_core::value::Value"

/-- A label with its enumeration. -/
def enumValue : String := "trove_core::value::EnumValue"

/-- A record of named cells. -/
def record : String := "trove_core::value::Record"

/-- A self describing value. -/
def dynamicValue : String := "trove_core::value::DynamicValue"

/-- A document. -/
def document : String := "serde_json::value::Value"

/-- A row of a result. -/
def row : String := "trove_core::query::RowLabeled"

/-- A list. -/
def list (element : String) : String := "alloc::vec::Vec<" ++ element ++ ">"

/-- A value that may be absent. -/
def optional (inner : String) : String := "core::option::Option<" ++ inner ++ ">"

/-- Text. -/
def text : String := "alloc::string::String"

end TypedStore.HostPath
