import RagSystem.Data.Json

/-! Places inside a JSON value. -/

namespace RagSystem.Json

inductive Step
  | key (name : String)
  | index (position : Nat)
  deriving DecidableEq, Repr

/-- The value at a place. -/
def get? : Json → List Step → Option Json
  | value, [] => some value
  | .obj entries, .key name :: rest => (entries.lookup name).bind (get? · rest)
  | .arr items, .index position :: rest => items[position]?.bind (get? · rest)
  | _, _ => none

/-- A value without what it contains: a list keeps its length and a dictionary its keys. -/
def shape : Json → Json
  | .arr items => .arr (items.map fun _ => .null)
  | .obj entries => .obj (entries.map fun entry => (entry.1, .null))
  | value => value

def isScalar : Json → Bool
  | .arr _ => false
  | .obj _ => false
  | _ => true

def isObj : Json → Bool
  | .obj _ => true
  | _ => false

/-- The last dictionary key on the way to a place. -/
def innermost : List Step → Option String
  | [] => none
  | .key name :: rest => (innermost rest).or (some name)
  | .index _ :: rest => innermost rest

@[simp] theorem get?_nil (value : Json) : value.get? [] = some value := by
  cases value <;> rfl

@[simp] theorem get?_obj_key (entries : List (String × Json)) (name : String) (rest : List Step) :
    (Json.obj entries).get? (.key name :: rest) = (entries.lookup name).bind (get? · rest) := rfl

@[simp] theorem get?_obj_index (entries : List (String × Json)) (position : Nat)
    (rest : List Step) : (Json.obj entries).get? (.index position :: rest) = none := rfl

@[simp] theorem get?_arr_key (items : List Json) (name : String) (rest : List Step) :
    (Json.arr items).get? (.key name :: rest) = none := rfl

@[simp] theorem get?_arr_index (items : List Json) (position : Nat) (rest : List Step) :
    (Json.arr items).get? (.index position :: rest) = items[position]?.bind (get? · rest) := rfl

/-- A value is a dictionary, a list or a scalar. -/
@[elab_as_elim] theorem kinds {motive : Json → Prop} (obj : ∀ entries, motive (.obj entries))
    (arr : ∀ items, motive (.arr items))
    (scalar : ∀ value, value.isScalar = true → motive value) (value : Json) : motive value := by
  cases value with
  | obj entries => exact obj entries
  | arr items => exact arr items
  | null => exact scalar .null rfl
  | bool value => exact scalar (.bool value) rfl
  | int value => exact scalar (.int value) rfl
  | float value => exact scalar (.float value) rfl
  | str value => exact scalar (.str value) rfl

theorem get?_cons_of_isScalar {value : Json} (scalar : value.isScalar = true) (step : Step)
    (rest : List Step) : value.get? (step :: rest) = none := by
  cases step <;> cases value <;> first | rfl | cases scalar

theorem mem_of_innermost {path : List Step} {key : String} (last : innermost path = some key) :
    .key key ∈ path := by
  induction path with
  | nil => cases last
  | cons step rest ih =>
      cases step with
      | index position => exact List.mem_cons_of_mem _ (ih last)
      | key name =>
          cases later : innermost rest with
          | some other =>
              rw [innermost, later, Option.some_or] at last
              exact List.mem_cons_of_mem _ (ih (later.trans last))
          | none =>
              rw [innermost, later, Option.none_or] at last
              obtain rfl := Option.some.inj last
              exact List.mem_cons_self

theorem shape_of_isScalar {value : Json} (scalar : value.isScalar = true) :
    value.shape = value := by
  cases value <;> first | rfl | cases scalar

theorem shape_arr_map (change : Json → Json) (items : List Json) :
    (Json.arr (items.map change)).shape = (Json.arr items).shape :=
  congrArg Json.arr List.map_map

theorem shape_eq_str {value : Json} {text : String} :
    value.shape = .str text ↔ value = .str text := by
  cases value <;> simp [shape]

end RagSystem.Json
