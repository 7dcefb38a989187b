import Mathlib.Data.List.Infix
import RagSystem.Data.JsonPath

/-! Masking of secrets in responses (`SecretsManager.mask_in_response` in
`proxy/app/shared/security.py`). -/

namespace RagSystem.ResponseMasking

open Json

def sensitiveKeys : List String := ["api_key", "password", "secret", "token", "private_key"]

section Masking

-- `str.lower`
variable (lower : String → String)

def isSensitive (key : String) : Bool :=
  sensitiveKeys.any fun word => decide (word.toList <:+: (lower key).toList)

mutual

def maskInResponse : Json → Json
  | .obj entries => .obj (maskEntries entries)
  | data => data

def maskEntries : List (String × Json) → List (String × Json)
  | [] => []
  | (key, value) :: rest => (key, maskValue key value) :: maskEntries rest

/-- What the loop puts under `key`; a dictionary goes through `mask_in_response`. -/
def maskValue (key : String) : Json → Json
  | .obj entries => .obj (maskEntries entries)
  | .arr items => .arr (maskItems items)
  | value => if isSensitive lower key then .str "***" else value

def maskItems : List Json → List Json
  | [] => []
  | item :: rest => (if item.isObj then maskInResponse item else item) :: maskItems rest

end

def Below (path : List Step) : Prop := ∃ key, .key key ∈ path ∧ isSensitive lower key = true

/-- The place ends in a sensitive key, and the way there leads through dictionaries and through
lists of dictionaries only. -/
def reaches : List Step → Bool
  | [.key key] => isSensitive lower key
  | .key _ :: .index _ :: rest => reaches rest
  | .key _ :: rest => reaches rest
  | _ => false

/-- Complete masking: no string is left below a sensitive key, and all else is as it was. -/
structure Complete (data : Json) : Prop where
  hidden : ∀ path, Below lower path → ∀ text,
    (maskInResponse lower data).get? path = some (.str text) → text = "***"
  kept : ∀ path, ¬Below lower path →
    ((maskInResponse lower data).get? path).map shape = (data.get? path).map shape
  twice : maskInResponse lower (maskInResponse lower data) = maskInResponse lower data

/-- Masking by the innermost key: what stands directly under a sensitive one is hidden unless it
is a container, and what stands under another one is as it was. -/
structure Masked (data : Json) : Prop where
  hidden : ∀ path, reaches lower path = true → ∀ value, data.get? path = some value →
    value.isScalar = true → (maskInResponse lower data).get? path = some (.str "***")
  kept : ∀ path, (∀ key, innermost path = some key → isSensitive lower key = false) →
    ((maskInResponse lower data).get? path).map shape = (data.get? path).map shape
  twice : maskInResponse lower (maskInResponse lower data) = maskInResponse lower data

end Masking

variable {lower : String → String}

theorem maskValue_obj (key : String) (entries : List (String × Json)) :
    maskValue lower key (.obj entries) = maskInResponse lower (.obj entries) := by
  rw [maskValue, maskInResponse]

theorem maskValue_scalar {value : Json} (scalar : value.isScalar = true) (key : String) :
    maskValue lower key value = if isSensitive lower key then .str "***" else value := by
  cases value <;> first | rfl | cases scalar

theorem maskInResponse_scalar {value : Json} (scalar : value.isScalar = true) :
    maskInResponse lower value = value := by
  cases value <;> first | rfl | cases scalar

theorem maskItems_eq (items : List Json) :
    maskItems lower items = items.map (maskInResponse lower) := by
  induction items with
  | nil => rfl
  | cons item rest ih =>
      rw [maskItems, List.map_cons, ih]
      cases item <;> rfl

theorem lookup_maskEntries (key : String) (entries : List (String × Json)) :
    (maskEntries lower entries).lookup key = (entries.lookup key).map (maskValue lower key) := by
  induction entries with
  | nil => rfl
  | cons entry rest ih =>
      obtain ⟨name, value⟩ := entry
      rw [maskEntries, List.lookup_cons, List.lookup_cons, ih]
      by_cases same : key = name
      · subst same
        simp
      · have differs : (key == name) = false := by simpa using same
        rw [differs]

theorem shape_maskEntries (entries : List (String × Json)) :
    (Json.obj (maskEntries lower entries)).shape = (Json.obj entries).shape := by
  have kept : (maskEntries lower entries).map (fun entry => (entry.1, Json.null)) =
      entries.map (fun entry => (entry.1, Json.null)) := by
    induction entries with
    | nil => rfl
    | cons entry rest ih => rw [maskEntries, List.map_cons, List.map_cons, ih]
  exact congrArg Json.obj kept

theorem shape_maskInResponse (data : Json) : (maskInResponse lower data).shape = data.shape := by
  induction data using kinds with
  | obj entries => exact shape_maskEntries entries
  | arr items => rfl
  | scalar value known => rw [maskInResponse_scalar known]

def maskedShape (lower : String → String) (path : List Step) (value : Json) : Json :=
  if reaches lower path = true ∧ value.isScalar = true then .str "***" else value.shape

theorem maskedShape_of_not {path : List Step} (unreached : reaches lower path = false) :
    maskedShape lower path = shape := by
  funext value
  simp [maskedShape, unreached]

theorem shape_maskValue (key : String) (value : Json) :
    (maskValue lower key value).shape = maskedShape lower [.key key] value := by
  unfold maskedShape
  rw [reaches]
  induction value using kinds with
  | obj entries =>
      rw [maskValue_obj, shape_maskInResponse]
      simp [isScalar]
  | arr items =>
      rw [maskValue, maskItems_eq, shape_arr_map]
      simp [isScalar]
  | scalar value known =>
      rw [maskValue_scalar known, shape_of_isScalar known]
      by_cases sensitive : isSensitive lower key = true
      · simp [sensitive, known, shape]
      · simp [sensitive, shape_of_isScalar known]

theorem get?_maskInResponse_key {key : String} {rest : List Step}
    (under : ∀ value, ((maskValue lower key value).get? rest).map shape =
      (value.get? rest).map (maskedShape lower (.key key :: rest))) (data : Json) :
    ((maskInResponse lower data).get? (.key key :: rest)).map shape =
      (data.get? (.key key :: rest)).map (maskedShape lower (.key key :: rest)) := by
  induction data using kinds with
  | obj entries =>
      rw [maskInResponse, get?_obj_key, get?_obj_key, lookup_maskEntries]
      cases entries.lookup key with
      | none => rfl
      | some value => exact under value
  | arr items => rfl
  | scalar value known =>
      rw [maskInResponse_scalar known, get?_cons_of_isScalar known]
      rfl

theorem isScalar_maskValue {value : Json} (scalar : value.isScalar = true) (key : String) :
    (maskValue lower key value).isScalar = true := by
  rw [maskValue_scalar scalar]
  split
  · rfl
  · exact scalar

theorem get?_maskInResponse (lower : String → String) (path : List Step) (data : Json) :
    ((maskInResponse lower data).get? path).map shape =
      (data.get? path).map (maskedShape lower path) := by
  induction path using reaches.induct generalizing data with
  | case1 key =>
      refine get?_maskInResponse_key (fun value => ?_) data
      rw [get?_nil, get?_nil, Option.map_some, Option.map_some, shape_maskValue]
  | case2 key position rest ih =>
      refine get?_maskInResponse_key (fun value => ?_) data
      induction value using kinds with
      | obj entries => rfl
      | arr items =>
          rw [maskValue, maskItems_eq, get?_arr_index, get?_arr_index, List.getElem?_map]
          cases items[position]? with
          | none => rfl
          | some item => exact ih item
      | scalar value known =>
          rw [get?_cons_of_isScalar known, get?_cons_of_isScalar (isScalar_maskValue known key)]
          rfl
  | case3 key rest nonempty other ih =>
      refine get?_maskInResponse_key (fun value => ?_) data
      cases rest with
      | nil => exact absurd rfl nonempty
      | cons step rest =>
          cases step with
          | index position => exact absurd rfl (other position rest)
          | key name =>
              induction value using kinds with
              | obj entries =>
                  rw [maskValue_obj]
                  exact ih (.obj entries)
              | arr items => rfl
              | scalar value known =>
                  rw [get?_cons_of_isScalar known,
                    get?_cons_of_isScalar (isScalar_maskValue known key)]
                  rfl
  | case4 path single indexed keyed =>
      cases path with
      | nil =>
          rw [get?_nil, get?_nil, Option.map_some, Option.map_some, shape_maskInResponse,
            maskedShape_of_not rfl]
      | cons step rest =>
          cases step with
          | key name => exact absurd rfl (keyed name rest)
          | index position =>
              rw [maskedShape_of_not rfl]
              induction data using kinds with
              | obj entries => rfl
              | arr items => rfl
              | scalar value known => rw [maskInResponse_scalar known]

theorem innermost_of_reaches {path : List Step} (reached : reaches lower path = true) :
    ∃ key, innermost path = some key ∧ isSensitive lower key = true := by
  induction path using reaches.induct with
  | case1 key => exact ⟨key, rfl, reached⟩
  | case2 key position rest ih =>
      obtain ⟨name, last, sensitive⟩ := ih reached
      exact ⟨name, by simp [innermost, last], sensitive⟩
  | case3 key rest nonempty other ih =>
      obtain ⟨name, last, sensitive⟩ := ih (by rwa [reaches] at reached <;> assumption)
      exact ⟨name, by simp [innermost, last], sensitive⟩
  | case4 path single indexed keyed =>
      have unreached : reaches lower path = false := by rw [reaches] <;> assumption
      rw [unreached] at reached
      cases reached

theorem maskValue_scalar_twice {value : Json} (scalar : value.isScalar = true) (key : String) :
    maskValue lower key (maskValue lower key value) = maskValue lower key value := by
  rw [maskValue_scalar (isScalar_maskValue scalar key), maskValue_scalar scalar]
  by_cases sensitive : isSensitive lower key = true
  · simp [sensitive]
  · simp [sensitive]

-- The induction follows the recursion of the masking.
mutual

theorem maskInResponse_twice : ∀ data : Json,
    maskInResponse lower (maskInResponse lower data) = maskInResponse lower data
  | .obj entries => congrArg Json.obj (maskEntries_twice entries)
  | .arr _ => rfl
  | .null => rfl
  | .bool _ => rfl
  | .int _ => rfl
  | .float _ => rfl
  | .str _ => rfl

theorem maskEntries_twice : ∀ entries : List (String × Json),
    maskEntries lower (maskEntries lower entries) = maskEntries lower entries
  | [] => rfl
  | (key, value) :: rest => by
      rw [maskEntries, maskEntries, maskValue_twice key value, maskEntries_twice rest]

theorem maskValue_twice (key : String) : ∀ value : Json,
    maskValue lower key (maskValue lower key value) = maskValue lower key value
  | .obj entries => congrArg Json.obj (maskEntries_twice entries)
  | .arr items => congrArg Json.arr (maskItems_twice items)
  | .null => maskValue_scalar_twice rfl key
  | .bool _ => maskValue_scalar_twice rfl key
  | .int _ => maskValue_scalar_twice rfl key
  | .float _ => maskValue_scalar_twice rfl key
  | .str _ => maskValue_scalar_twice rfl key

theorem maskItems_twice : ∀ items : List Json,
    maskItems lower (maskItems lower items) = maskItems lower items
  | [] => rfl
  | item :: rest => by
      have here := maskInResponse_twice item
      have there := maskItems_twice rest
      rw [maskItems_eq, maskItems_eq] at there ⊢
      rw [List.map_cons, List.map_cons, here, there]

end

theorem maskInResponse_masked (lower : String → String) (data : Json) : Masked lower data := by
  constructor
  · intro path reached value found scalar
    have shown := get?_maskInResponse lower path data
    rw [found, Option.map_some, maskedShape, if_pos ⟨reached, scalar⟩] at shown
    obtain ⟨masked, there, text⟩ := Option.map_eq_some_iff.mp shown
    rw [there, shape_eq_str.mp text]
  · intro path harmless
    have unreached : reaches lower path = false := by
      by_contra reached
      obtain ⟨key, last, sensitive⟩ := innermost_of_reaches (Bool.of_not_eq_false reached)
      rw [harmless key last] at sensitive
      cases sensitive
    rw [get?_maskInResponse, maskedShape_of_not unreached]
  · exact maskInResponse_twice data

/-- A dictionary under a sensitive key is walked, and shows what stands under its other keys. -/
theorem public_name_visible : ¬Complete id (.obj [("config", .obj [("secrets",
    .obj [("private_key", .str "top-secret"), ("public_name", .str "visible")])])]) := by
  intro complete
  have below : Below id [.key "config", .key "secrets", .key "public_name"] :=
    ⟨"secrets", by simp, by decide +kernel⟩
  have masked := complete.hidden _ below "visible" (by rfl)
  exact absurd masked (by decide)

theorem complete_iff {data : Json} : Complete lower data ↔
    ∀ path, Below lower path → ∀ text, data.get? path = some (.str text) →
      text = "***" ∨ reaches lower path = true := by
  have masked := maskInResponse_masked lower data
  constructor
  · intro complete path below text found
    by_cases reached : reaches lower path = true
    · exact Or.inr reached
    · have shown := get?_maskInResponse lower path data
      rw [found, maskedShape_of_not (Bool.eq_false_of_not_eq_true reached)] at shown
      obtain ⟨value, there, same⟩ := Option.map_eq_some_iff.mp shown
      rw [shape_eq_str.mp same] at there
      exact Or.inl (complete.hidden path below text there)
  · intro covered
    refine ⟨?_, ?_, masked.twice⟩
    · intro path below text there
      have shown := get?_maskInResponse lower path data
      rw [there] at shown
      obtain ⟨value, found, same⟩ := Option.map_eq_some_iff.mp shown.symm
      unfold maskedShape at same
      split at same
      · exact (Json.str.inj same).symm
      · rename_i shownPlain
        have plain := shape_eq_str.mp same
        rw [plain] at found shownPlain
        obtain text | reached := covered path below text found
        · exact text
        · exact absurd ⟨reached, rfl⟩ shownPlain
    · intro path above
      apply masked.kept
      intro key last
      by_contra sensitive
      exact above ⟨key, mem_of_innermost last, Bool.of_not_eq_false sensitive⟩

end RagSystem.ResponseMasking
