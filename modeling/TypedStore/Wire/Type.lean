/-
Types of the server's binary protocol. A base type has a form, which says how its values are written;
enumerations, arrays, domains and composite types are built upon others. The server numbers its types,
and the numbers of the built-in ones are fixed, so an anonymous record can name them.
-/

set_option autoImplicit false

namespace TypedStore.Wire

/-! ## 1. Types -/

/-- How values of a base type are written. -/
inductive BaseForm where
  | bool
  | byte
  | int2
  | int4
  | int8
  | unsigned4
  | float4
  | float8
  | numeric
  | text
  | bytes
  | date
  | time
  | timestamp
  | zoned
  | uuid
  | json
  | jsonb
  /-- Fields with the numbers of their types. -/
  | record
  /-- A form that is not read. -/
  | unreadable
deriving DecidableEq, Repr

/-- A type of the server, with its name and number. -/
inductive WireType where
  | base (name : String) (oid : Nat) (form : BaseForm)
  | enumeration (name : String) (oid : Nat)
  | array (name : String) (oid : Nat) (element : WireType)
  | domain (name : String) (oid : Nat) (inner : WireType)
  | composite (name : String) (oid : Nat) (fields : List (String × WireType))

instance : Inhabited WireType := ⟨.base "unknown" 705 .text⟩

/-- The name of a type. -/
def WireType.name : WireType → String
  | .base name _ _ => name
  | .enumeration name _ => name
  | .array name _ _ => name
  | .domain name _ _ => name
  | .composite name _ _ => name

/-- The number of a type. -/
def WireType.oid : WireType → Nat
  | .base _ oid _ => oid
  | .enumeration _ oid => oid
  | .array _ oid _ => oid
  | .domain _ oid _ => oid
  | .composite _ oid _ => oid

/-! ## 2. Built-in types -/

/-- A built-in base type and the number of its array type, if it has one. -/
structure BuiltIn where
  name : String
  oid : Nat
  arrayOid? : Option Nat
  form : BaseForm

/-- The built-in base types whose values are read. -/
def readableBuiltIns : List BuiltIn :=
  [⟨"bool", 16, some 1000, .bool⟩, ⟨"bytea", 17, some 1001, .bytes⟩,
    ⟨"char", 18, some 1002, .byte⟩, ⟨"name", 19, some 1003, .text⟩,
    ⟨"int8", 20, some 1016, .int8⟩, ⟨"int2", 21, some 1005, .int2⟩,
    ⟨"int4", 23, some 1007, .int4⟩, ⟨"text", 25, some 1009, .text⟩,
    ⟨"oid", 26, some 1028, .unsigned4⟩, ⟨"json", 114, some 199, .json⟩,
    ⟨"xml", 142, some 143, .text⟩, ⟨"float4", 700, some 1021, .float4⟩,
    ⟨"float8", 701, some 1022, .float8⟩, ⟨"unknown", 705, none, .text⟩,
    ⟨"bpchar", 1042, some 1014, .text⟩, ⟨"varchar", 1043, some 1015, .text⟩,
    ⟨"date", 1082, some 1182, .date⟩, ⟨"time", 1083, some 1183, .time⟩,
    ⟨"timestamp", 1114, some 1115, .timestamp⟩, ⟨"timestamptz", 1184, some 1185, .zoned⟩,
    ⟨"numeric", 1700, some 1231, .numeric⟩, ⟨"record", 2249, some 2287, .record⟩,
    ⟨"uuid", 2950, some 2951, .uuid⟩, ⟨"jsonb", 3802, some 3807, .jsonb⟩]

/-- Names and numbers of the other built-in base types, each with the number of its array type. -/
def otherBuiltIns : List (String × Nat × Option Nat) :=
  [("regproc", 24, some 1008), ("tid", 27, some 1010), ("xid", 28, some 1011),
    ("cid", 29, some 1012), ("pg_ddl_command", 32, none), ("pg_node_tree", 194, none),
    ("table_am_handler", 269, none), ("index_am_handler", 325, none), ("point", 600, some 1017),
    ("lseg", 601, some 1018), ("path", 602, some 1019), ("box", 603, some 1020),
    ("polygon", 604, some 1027), ("line", 628, some 629), ("cidr", 650, some 651),
    ("circle", 718, some 719), ("macaddr8", 774, some 775), ("money", 790, some 791),
    ("macaddr", 829, some 1040), ("inet", 869, some 1041), ("aclitem", 1033, some 1034),
    ("interval", 1186, some 1187), ("timetz", 1266, some 1270), ("bit", 1560, some 1561),
    ("varbit", 1562, some 1563), ("refcursor", 1790, some 2201), ("regprocedure", 2202, some 2207),
    ("regoper", 2203, some 2208), ("regoperator", 2204, some 2209), ("regclass", 2205, some 2210),
    ("regtype", 2206, some 2211), ("cstring", 2275, some 1263), ("any", 2276, none),
    ("anyarray", 2277, none), ("void", 2278, none), ("trigger", 2279, none),
    ("language_handler", 2280, none), ("internal", 2281, none), ("anyelement", 2283, none),
    ("anynonarray", 2776, none), ("txid_snapshot", 2970, some 2949), ("fdw_handler", 3115, none),
    ("pg_lsn", 3220, some 3221), ("tsm_handler", 3310, none), ("pg_ndistinct", 3361, none),
    ("pg_dependencies", 3402, none), ("anyenum", 3500, none), ("tsvector", 3614, some 3643),
    ("tsquery", 3615, some 3645), ("gtsvector", 3642, some 3644), ("regconfig", 3734, some 3735),
    ("regdictionary", 3769, some 3770), ("anyrange", 3831, none), ("event_trigger", 3838, none),
    ("int4range", 3904, some 3905), ("numrange", 3906, some 3907), ("tsrange", 3908, some 3909),
    ("tstzrange", 3910, some 3911), ("daterange", 3912, some 3913), ("int8range", 3926, some 3927),
    ("jsonpath", 4072, some 4073), ("regnamespace", 4089, some 4090), ("regrole", 4096, some 4097),
    ("regcollation", 4191, some 4192), ("int4multirange", 4451, some 6150),
    ("nummultirange", 4532, some 6151), ("tsmultirange", 4533, some 6152),
    ("tstzmultirange", 4534, some 6153), ("datemultirange", 4535, some 6155),
    ("int8multirange", 4536, some 6157), ("anymultirange", 4537, none),
    ("anycompatiblemultirange", 4538, none), ("pg_brin_bloom_summary", 4600, none),
    ("pg_brin_minmax_multi_summary", 4601, none), ("pg_mcv_list", 5017, none),
    ("pg_snapshot", 5038, some 5039), ("xid8", 5069, some 271), ("anycompatible", 5077, none),
    ("anycompatiblearray", 5078, none), ("anycompatiblenonarray", 5079, none),
    ("anycompatiblerange", 5080, none)]

namespace WireType

/-- The text type. -/
def text : WireType := .base "text" 25 .text

/-- The type of values whose type is left to the server. -/
def unknown : WireType := .base "unknown" 705 .text

/-- Vectors, which are arrays counted from zero. -/
def vectors : List (WireType × Nat) :=
  [(.array "int2vector" 22 (.base "int2" 21 .int2), 1006),
    (.array "oidvector" 30 (.base "oid" 26 .unsigned4), 1013)]

/-- The array type of a type. -/
def arrayTypeOf (oid : Nat) (element : WireType) : WireType :=
  .array ("_" ++ element.name) oid element

/-- A type and, when it has a number, its array type. -/
def withArray (t : WireType) (arrayOid? : Option Nat) : List WireType :=
  t :: (arrayOid?.map fun oid => arrayTypeOf oid t).toList

/-- Every built-in type. -/
def builtIns : List WireType :=
  readableBuiltIns.flatMap (fun b => withArray (.base b.name b.oid b.form) b.arrayOid?)
    ++ otherBuiltIns.flatMap (fun b => withArray (.base b.1 b.2.1 .unreadable) b.2.2)
    ++ vectors.flatMap (fun v => withArray v.1 (some v.2))

/-- The built-in type of a name. -/
def ofName? (name : String) : Option WireType :=
  builtIns.find? fun t => t.name == name

/-- The built-in type of a number. -/
def ofOid? (oid : Nat) : Option WireType :=
  builtIns.find? fun t => t.oid == oid

end WireType

end TypedStore.Wire
