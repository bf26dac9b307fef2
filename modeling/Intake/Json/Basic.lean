import Intake.Text.Prose

/-!
# JSON values

Values as a reader finds them: objects keep their members in order, with
repeated names, and whole numbers are told apart from doubles.

* `Json.member?` looks a name up; the last member of a name counts.
* `member?_append_last` says so.
-/

namespace Intake

open Text

/-- A JSON value. -/
inductive Json where
  | null
  | bool (b : Bool)
  | int (n : Int)
  | double (x : Float)
  | str (s : Prose)
  | arr (items : List Json)
  | obj (members : List (Prose × Json))
  deriving Inhabited

namespace Json

/-- The members of an object. -/
abbrev Members := List (Prose × Json)

/-- The value of a name. A name that occurs several times has the value of
its last occurrence. -/
def member? (members : Members) (name : String) : Option Json :=
  (members.reverse.find? (·.1 == Prose.ofString name)).map (·.2)

theorem member?_append_last (members : Members) (name : String) (v : Json) :
    member? (members ++ [(Prose.ofString name, v)]) name = some v := by
  simp [member?]

theorem member?_append_other (members : Members) {name : String} {p : Prose} (v : Json)
    (h : p ≠ Prose.ofString name) :
    member? (members ++ [(p, v)]) name = member? members name := by
  simp [member?, h]

/-- A string value without halves. -/
def text (s : String) : Json := str (Prose.ofString s)

/-- An object with plain names. -/
def object (members : List (String × Json)) : Json :=
  obj (members.map fun (name, v) => (Prose.ofString name, v))

/-- The name of the kind of a value in diagnostics. -/
def kindName : Json → String
  | null => "NoneType"
  | bool _ => "bool"
  | int _ => "int"
  | double _ => "float"
  | str _ => "str"
  | arr _ => "list"
  | obj _ => "dict"

end Json
end Intake
