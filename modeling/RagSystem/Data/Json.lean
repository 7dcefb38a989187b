import Mathlib.Algebra.Order.Field.Rat
import RagSystem.Data.Dict

/-! JSON values as `json.loads` returns them. -/

namespace RagSystem

inductive Json
  | null
  | bool (value : Bool)
  | int (value : Int)
  | float (value : Rat)
  | str (value : String)
  | arr (items : List Json)
  | obj (entries : List (String × Json))
  deriving Repr

namespace Json

def isNull : Json → Bool
  | null => true
  | _ => false

/-- `bool(value)`. -/
def truthy : Json → Bool
  | null => false
  | bool value => value
  | int value => value ≠ 0
  | float value => value ≠ 0
  | str value => value ≠ ""
  | arr items => !items.isEmpty
  | obj entries => !entries.isEmpty

end Json

end RagSystem
