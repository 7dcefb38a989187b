import Mathlib.Data.List.Basic

/-! Conditions on multi-valued payload fields, as vector stores evaluate them. -/

namespace Payload

variable {Key Value : Type} [DecidableEq Value]

inductive Match (Value : Type)
  | value (wanted : Value)
  | any (wanted : List Value)
  deriving DecidableEq, Repr

structure Condition (Key Value : Type) where
  key : Key
  match_ : Match Value
  deriving DecidableEq, Repr

def Match.accepts (stored : Value) : Match Value → Bool
  | .value wanted => decide (stored = wanted)
  | .any wanted => decide (stored ∈ wanted)

/-- A field holds the list of its values: one for a scalar, none when it is missing. A condition
holds when some value is accepted. -/
def Condition.holds (fields : Key → List Value) (condition : Condition Key Value) : Bool :=
  (fields condition.key).any (fun stored => condition.match_.accepts stored)

/-- A `must` filter: every condition holds. The empty filter restricts nothing. -/
def must (conditions : List (Condition Key Value)) (fields : Key → List Value) : Bool :=
  conditions.all (fun condition => condition.holds fields)

@[simp] theorem must_nil (fields : Key → List Value) :
    must ([] : List (Condition Key Value)) fields = true := rfl

@[simp] theorem must_cons (condition : Condition Key Value)
    (rest : List (Condition Key Value)) (fields : Key → List Value) :
    must (condition :: rest) fields = (condition.holds fields && must rest fields) := rfl

theorem must_append (first second : List (Condition Key Value)) (fields : Key → List Value) :
    must (first ++ second) fields = (must first fields && must second fields) := by
  simp [must]

/-- A `should` filter of `must` clauses: some clause holds. Without clauses it restricts nothing. -/
def should (clauses : List (List (Condition Key Value))) (fields : Key → List Value) : Bool :=
  clauses.isEmpty || clauses.any (fun clause => must clause fields)

theorem holds_any_iff (fields : Key → List Value) (key : Key) (wanted : List Value) :
    (Condition.mk key (.any wanted)).holds fields = true ↔ ∃ stored ∈ fields key, stored ∈ wanted := by
  simp [Condition.holds, Match.accepts]

theorem holds_value_iff (fields : Key → List Value) (key : Key) (wanted : Value) :
    (Condition.mk key (.value wanted)).holds fields = true ↔ wanted ∈ fields key := by
  simp [Condition.holds, Match.accepts]

end Payload
