/-
The values of settings: texts, numbers, yes and no, nothing, and lists and tables of values.
-/

namespace Depot.Settings

inductive Value where
  | nothing
  | flag (b : Bool)
  | number (n : Int)
  | text (s : String)
  | list (values : List Value)
  | table (fields : List (String × Value))
  deriving Repr

namespace Value

def texts (values : List String) : Value :=
  .list (values.map .text)

def optional : Option String → Value
  | some s => .text s
  | none => .nothing

end Value

end Depot.Settings
