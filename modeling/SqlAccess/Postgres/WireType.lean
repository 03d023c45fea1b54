/-
**The server's types.**

Main definitions:

* `SqlAccess.Postgres.WireType` — the types that are treated each in their own way, all others by
  name, and arrays;
* `SqlAccess.Postgres.WireType.name`, `SqlAccess.Postgres.WireType.ofName` — their names; an array's
  name is its element's after an underscore;
* `SqlAccess.Postgres.WireType.oid` — the numbers of types that array headers carry.
-/

set_option autoImplicit false

namespace SqlAccess.Postgres

/-- A type of the server. -/
inductive WireType where
  | bool
  | int2
  | int4
  | int8
  | float4
  | float8
  | text
  | varchar
  | bpchar
  | name
  | timestamp
  | timestamptz
  | date
  | uuid
  | json
  | jsonb
  | other (typeName : String)
  | array (element : WireType)
  deriving DecidableEq, Repr, Inhabited

namespace WireType

/-- The types with names and numbers of their own. -/
def table : List (WireType × String × Nat) := [
  (bool, "bool", 16), (int2, "int2", 21), (int4, "int4", 23), (int8, "int8", 20),
  (float4, "float4", 700), (float8, "float8", 701), (text, "text", 25), (varchar, "varchar", 1043),
  (bpchar, "bpchar", 1042), (name, "name", 19), (timestamp, "timestamp", 1114),
  (timestamptz, "timestamptz", 1184), (date, "date", 1082), (uuid, "uuid", 2950),
  (json, "json", 114), (jsonb, "jsonb", 3802)]

/-- The numbers of some more types. -/
def otherOids : List (String × Nat) := [
  ("bytea", 17), ("char", 18), ("oid", 26), ("xml", 142), ("point", 600), ("lseg", 601),
  ("path", 602), ("box", 603), ("polygon", 604), ("line", 628), ("cidr", 650), ("circle", 718),
  ("macaddr8", 774), ("money", 790), ("macaddr", 829), ("inet", 869), ("time", 1083),
  ("interval", 1186), ("timetz", 1266), ("bit", 1560), ("varbit", 1562), ("numeric", 1700),
  ("regproc", 24), ("regclass", 2205), ("regtype", 2206), ("tsvector", 3614), ("tsquery", 3615),
  ("int4range", 3904), ("numrange", 3906), ("tsrange", 3908), ("tstzrange", 3910),
  ("daterange", 3912), ("int8range", 3926), ("jsonpath", 4072), ("record", 2249)]

/-- The name of a type. -/
def typeName : WireType → String
  | array element => "_" ++ element.typeName
  | other n => n
  | simple => ((table.find? fun row => row.1 = simple).map fun row => row.2.1).getD ""

/-- The number of a type; zero if it is not known. -/
def oid : WireType → Nat
  | array _ => 0
  | other n => ((otherOids.find? fun row => row.1 = n).map Prod.snd).getD 0
  | simple => ((table.find? fun row => row.1 = simple).map fun row => row.2.2).getD 0

/-- The type of that name that is no array. -/
def ofSimpleName (n : String) : WireType :=
  ((table.find? fun row => row.2.1 = n).map Prod.fst).getD (other n)

/-- The type of that name. -/
def ofName (n : String) : WireType :=
  match n.toList with
  | '_' :: rest => array (ofSimpleName (String.ofList rest))
  | _ => ofSimpleName n

/-- Whether values of the type are texts. -/
def isText : WireType → Bool
  | text | varchar | bpchar => true
  | _ => false

end WireType

end SqlAccess.Postgres
