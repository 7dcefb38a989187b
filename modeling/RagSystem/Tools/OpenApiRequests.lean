import Mathlib.Data.List.DropRight
import RagSystem.Data.IpAddress
import RagSystem.Data.Joining
import RagSystem.Tools.OpenApi

/-! The request that the handler of an endpoint sends (`_make_openapi_handler` in
`proxy/app/tools/openapi/converter.py`), and when it stays on the endpoint. -/

namespace RagSystem.Tools.OpenApi

abbrev Text := List Char

local instance lawfulText : LawfulBEq Text := inferInstance

/-! ### Percent-encoding -/

def byteOf (digits : Char × Char) : Option UInt8 := do
  let high ← Ip.hexDigit digits.1
  let low ← Ip.hexDigit digits.2
  return UInt8.ofNat (16 * high + low)

def NoByte (rest : Text) : Prop :=
  ∀ high low tail, rest = high :: low :: tail → byteOf (high, low) = none

/-- A text of a URL and what it decodes to: the bytes of a character stand for it, a percent sign
without digits for itself. -/
inductive Encodes : Text → Text → Prop
  | nil : Encodes [] []
  | plain {char : Char} {raw text : Text} (other : char ≠ '%') (more : Encodes raw text) :
      Encodes (char :: raw) (char :: text)
  | percent {raw text : Text} (bare : NoByte raw) (more : Encodes raw text) :
      Encodes ('%' :: raw) ('%' :: text)
  | escaped {char : Char} {digits : List (Char × Char)} {raw text : Text}
      (bytes : digits.mapM byteOf = some (String.utf8EncodeChar char)) (more : Encodes raw text) :
      Encodes (digits.flatMap (fun pair => ['%', pair.1, pair.2]) ++ raw) (char :: text)

def Unescaped (text : Text) : Prop := ∀ before rest, text = before ++ '%' :: rest → NoByte rest

section Percent

variable {raw text : Text}

theorem length_escapes (digits : List (Char × Char)) :
    (digits.flatMap (fun pair => ['%', pair.1, pair.2])).length = 3 * digits.length := by
  rw [List.length_flatMap]
  simp
  omega

theorem digits_ne_nil {char : Char} {digits : List (Char × Char)}
    (bytes : digits.mapM byteOf = some (String.utf8EncodeChar char)) : 0 < digits.length := by
  cases digits with
  | nil => exact absurd (Option.some.inj bytes).symm String.utf8EncodeChar_ne_nil
  | cons pair digits => exact Nat.succ_pos _

theorem length_le_of_encodes (encodes : Encodes raw text) : text.length ≤ raw.length := by
  induction encodes with
  | nil => exact Nat.le_refl _
  | plain _ _ ih => exact Nat.succ_le_succ ih
  | percent _ _ ih => exact Nat.succ_le_succ ih
  | escaped bytes more ih =>
      have some := digits_ne_nil bytes
      rw [List.length_cons, List.length_append, length_escapes]
      omega

theorem eq_of_encodes (encodes : Encodes raw text) (same : raw.length = text.length) :
    raw = text ∧ Unescaped raw := by
  induction encodes with
  | nil => exact ⟨rfl, fun before rest empty => by simp at empty⟩
  | @plain char raw text other more ih =>
      obtain ⟨rfl, unescaped⟩ := ih (Nat.succ.inj same)
      refine ⟨rfl, ?_⟩
      intro before rest whole
      cases before with
      | nil => exact absurd (List.cons.inj whole).1 other
      | cons _ before => exact unescaped before rest (List.cons.inj whole).2
  | @percent raw text bare more ih =>
      obtain ⟨rfl, unescaped⟩ := ih (Nat.succ.inj same)
      refine ⟨rfl, ?_⟩
      intro before rest whole
      cases before with
      | nil => exact (List.cons.inj whole).2 ▸ bare
      | cons _ before => exact unescaped before rest (List.cons.inj whole).2
  | escaped bytes more _ =>
      have some := digits_ne_nil bytes
      have shorter := length_le_of_encodes more
      rw [List.length_cons, List.length_append, length_escapes] at same
      omega

theorem encodes_self (unescaped : Unescaped text) : Encodes text text := by
  induction text with
  | nil => exact .nil
  | cons char text ih =>
      have more := ih (fun before rest whole =>
        unescaped (char :: before) rest (congrArg (List.cons char) whole))
      by_cases percent : char = '%'
      · subst percent
        exact .percent (unescaped [] text rfl) more
      · exact .plain percent more

end Percent

/-! ### The handler -/

section Handler

variable (isAlnum : Char → Bool) (str : Json → String)

/-- `\w` -/
def isWord (char : Char) : Bool :=
  if char.toNat < 128 then char.isAlphanum || char = '_' else isAlnum char

/-- The name of `\{(\w+)}` at the start of a text. -/
def paramAt : Text → Option Text
  | [] => none
  | char :: rest =>
      let name := rest.takeWhile (isWord isAlnum)
      if char = '{' ∧ name ≠ [] ∧ (rest.drop name.length).head? = some '}' then some name else none

/-- `re.findall`; `skip` is what remains of a match. -/
def findFrom (skip : Nat) : Text → List Text
  | [] => []
  | char :: rest =>
      match skip with
      | skip + 1 => findFrom skip rest
      | 0 =>
          match paramAt isAlnum (char :: rest) with
          | some name => name :: findFrom (name.length + 1) rest
          | none => findFrom 0 rest

def templateParams (pathTemplate : Text) : List Text := findFrom isAlnum 0 pathTemplate

def actionMethods : List String := ["post", "put", "delete", "patch"]

def braced (name : Text) : Text := '{' :: name ++ ['}']

/-- `str.replace` of a placeholder. -/
def replaceParam (name value : Text) (url : Text) : Text :=
  Substitution.substitute
    (fun text => if (braced name).isPrefixOf text then name.length + 2 else 0) value url

/-- `str(value)` -/
def strOf : Json → Text
  | .str text => text.toList
  | value => (str value).toList

/-- `quote_plus` of one character. -/
def quoteChar (char : Char) : Text :=
  if char.toNat < 128 ∧ (char.isAlphanum ∨ char ∈ ['_', '.', '-', '~']) then [char]
  else if char = ' ' then ['+']
  else (String.utf8EncodeChar char).flatMap (fun byte =>
    ['%', (Nat.digitChar (byte.toNat / 16)).toUpper, (Nat.digitChar (byte.toNat % 16)).toUpper])

def urlencode (params : List (Text × Json)) : Text :=
  ['&'].intercalate (params.map (fun param =>
    param.1.flatMap quoteChar ++ '=' :: (strOf str param.2).flatMap quoteChar))

/-- The locals of `_handler`. -/
structure Draft where
  url : Text
  queryParams : List (Text × Json) := []
  body : List (Text × Json) := []

def place (method : String) (params : List Text) (draft : Draft) (argument : Text × Json) :
    Draft :=
  if argument.1 ∈ params then
    { draft with url := replaceParam argument.1 (strOf str argument.2) draft.url }
  else if method ∈ actionMethods then { draft with body := draft.body ++ [argument] }
  else if method = "get" then { draft with queryParams := draft.queryParams ++ [argument] }
  else draft

structure Request where
  method : Text
  url : Text
  json : Option (List (Text × Json))

def queryText (params : List (Text × Json)) : Text :=
  if params = [] then [] else '?' :: urlencode str params

/-- `method.upper()` -/
def upper (method : String) : Text := method.toList.map Char.toUpper

def sendDraft (method : String) (draft : Draft) : Request :=
  let url := draft.url ++ queryText str draft.queryParams
  if method ∈ actionMethods then ⟨upper method, url, some draft.body⟩ else ⟨upper "get", url, none⟩

/-- `_handler` up to the call of the session. -/
def OpenapiHandler.request (handler : OpenapiHandler) (kwargs : List (Text × Json)) : Request :=
  let start := handler.baseUrl.toList.rdropWhile (· = '/') ++
    '/' :: handler.pathTemplate.toList.dropWhile (· = '/')
  let draft := kwargs.foldl
    (place str handler.method (templateParams isAlnum handler.pathTemplate.toList)) ⟨start, [], []⟩
  sendDraft str handler.method draft

end Handler

/-! ### Endpoints -/

/-- A character of a path template, or one of its parameters. -/
inductive Part
  | char (symbol : Char)
  | param (name : Text)
  deriving DecidableEq

def Part.text : Part → Text
  | .char symbol => [symbol]
  | .param name => braced name

def Part.isParam : Part → Bool
  | .char _ => false
  | .param _ => true

/-- No brace but those around a parameter. -/
def Part.Clean : Part → Prop
  | .char symbol => symbol ≠ '{' ∧ symbol ≠ '}'
  | .param name => '{' ∉ name ∧ '}' ∉ name

structure PathTemplate where
  segments : List (List Part)
  nonempty : segments ≠ []
  clean : ∀ segment ∈ segments, ∀ part ∈ segment, part.Clean
  path : ∀ segment ∈ segments, ∀ symbol, .char symbol ∈ segment → symbol ∉ ['/', '?', '#']

def PathTemplate.parts (template : PathTemplate) : List Part :=
  template.segments.flatMap (.char '/' :: ·)

def spell (parts : List Part) : Text := parts.flatMap Part.text

structure HandledEndpoint where
  base : Text
  template : PathTemplate
  method : String
  plain : ∀ char ∈ base, char ∉ ['{', '}', '?', '#']
  supported : method ∈ httpMethods

def HandledEndpoint.handler (endpoint : HandledEndpoint) : OpenapiHandler where
  baseUrl := String.ofList endpoint.base
  pathTemplate := String.ofList (spell endpoint.template.parts)
  method := endpoint.method

def paramsOf (parts : List Part) : List Text :=
  parts.filterMap fun
    | .char _ => none
    | .param name => some name

def HandledEndpoint.params (endpoint : HandledEndpoint) : List Text :=
  paramsOf endpoint.template.parts

section Staying

variable (values : Text → Option Text)

/-- A segment in which every parameter is replaced by a part of a segment that decodes to its
value. -/
inductive Spells : List Part → Text → Prop
  | nil : Spells [] []
  | char {symbol : Char} {parts : List Part} {text : Text} (more : Spells parts text) :
      Spells (.char symbol :: parts) (symbol :: text)
  | param {name raw value text : Text} {parts : List Part} (given : values name = some value)
      (encodes : Encodes raw value) (apart : ∀ char ∈ raw, char ∉ ['/', '?', '#'])
      (more : Spells parts text) : Spells (.param name :: parts) (raw ++ text)

def dotSegments : List Text := [['.'], ['.', '.']]

structure Replaces (segment : List Part) (text : Text) : Prop where
  spells : Spells values segment text
  stays : segment.any Part.isParam = true → text ∉ dotSegments

end Staying

def argumentOf (str : Json → String) (kwargs : List (Text × Json)) (name : Text) : Option Text :=
  (kwargs.lookup name).map (strOf str)

/-- The request has the method and the path of the endpoint, and carries the other arguments. -/
def StaysOn (str : Json → String) (endpoint : HandledEndpoint) (kwargs : List (Text × Json))
    (request : Request) : Prop :=
  request.method = upper endpoint.method ∧
  ∃ texts sent,
    request.url = endpoint.base.rdropWhile (· = '/') ++ texts.flatMap ('/' :: ·) ++
      queryText str sent ∧
    List.Forall₂ (Replaces (argumentOf str kwargs)) endpoint.template.segments texts ∧
    ∀ argument ∈ kwargs, argument.1 ∉ endpoint.params →
      argument ∈ sent ∨ argument ∈ request.json.getD []

def Part.resolved (values : Text → Option Text) : Part → Text
  | .char symbol => [symbol]
  | .param name => (values name).getD (braced name)

def IsWordName (isAlnum : Char → Bool) (name : Text) : Prop :=
  name ≠ [] ∧ name.all (isWord isAlnum) = true

def Stands (values : Text → Option Text) (name : Text) : Prop :=
  ∃ value, values name = some value ∧ Unescaped value ∧ ∀ char ∈ value, char ∉ ['/', '?', '#']

/-- The common methods, one slash at the start, and for every parameter a name of word characters
and an argument whose text needs no escape and leads to no other segment. -/
structure Fits (isAlnum : Char → Bool) (str : Json → String) (endpoint : HandledEndpoint)
    (kwargs : List (Text × Json)) : Prop where
  method : endpoint.method ∈ ["get", "post", "put", "delete", "patch"]
  slash : endpoint.template.segments.head? = some [] → endpoint.template.segments.length = 1
  word : ∀ name ∈ endpoint.params, IsWordName isAlnum name
  given : ∀ name ∈ endpoint.params, Stands (argumentOf str kwargs) name
  dots : ∀ segment ∈ endpoint.template.segments, segment.any Part.isParam = true →
    segment.flatMap (Part.resolved (argumentOf str kwargs)) ∉ dotSegments

section Finding

variable {isAlnum : Char → Bool} {parts : List Part}

theorem findFrom_append {front : Text} (plain : '{' ∉ front) (rest : Text) :
    findFrom isAlnum 0 (front ++ rest) = findFrom isAlnum 0 rest := by
  induction front with
  | nil => rfl
  | cons char front ih =>
      obtain ⟨other, later⟩ := not_or.mp (mt List.mem_cons.mpr plain)
      rw [List.cons_append, findFrom, paramAt, if_neg (fun all => other all.1.symm)]
      exact ih later

theorem findFrom_skip (front rest : Text) :
    findFrom isAlnum front.length (front ++ rest) = findFrom isAlnum 0 rest := by
  induction front with
  | nil => rfl
  | cons char front ih => exact ih

theorem isWord_brace : isWord isAlnum '}' = false := rfl

theorem paramAt_braced {name : Text} (clean : '}' ∉ name) (rest : Text) :
    (IsWordName isAlnum name ∧ paramAt isAlnum (braced name ++ rest) = some name) ∨
      (¬ IsWordName isAlnum name ∧ paramAt isAlnum (braced name ++ rest) = none) := by
  have text : braced name ++ rest = '{' :: (name ++ '}' :: rest) := by simp [braced]
  rw [text, paramAt]
  cases all : name.all (isWord isAlnum) with
  | true =>
      have run : (name ++ '}' :: rest).takeWhile (isWord isAlnum) = name := by
        rw [List.takeWhile_append_of_pos (List.all_eq_true.mp all),
          List.takeWhile_cons_of_neg (by simp [isWord_brace]), List.append_nil]
      rw [run, List.drop_left, List.head?_cons]
      by_cases empty : name = []
      · right
        exact ⟨fun word => word.1 empty, if_neg (fun conditions => conditions.2.1 empty)⟩
      · left
        exact ⟨⟨empty, all⟩, if_pos ⟨rfl, empty, rfl⟩⟩
  | false =>
      right
      refine ⟨fun word => Bool.false_ne_true (all.symm.trans word.2), if_neg ?_⟩
      intro conditions
      have whole := @List.takeWhile_append_dropWhile _ (isWord isAlnum) name
      cases left : name.dropWhile (isWord isAlnum) with
      | nil =>
          rw [left, List.append_nil] at whole
          have every := @List.all_takeWhile _ (isWord isAlnum) name
          rw [whole, all] at every
          cases every
      | cons first more =>
          have stop : isWord isAlnum first = false := by
            have head := List.head?_dropWhile_not (isWord isAlnum) name
            rw [left] at head
            simpa using head
          rw [left] at whole
          have run : (name ++ '}' :: rest).takeWhile (isWord isAlnum) =
              name.takeWhile (isWord isAlnum) := by
            conv_lhs => rw [← whole, List.append_assoc]
            rw [List.takeWhile_append_of_pos (List.all_eq_true.mp List.all_takeWhile),
              List.cons_append, List.takeWhile_cons_of_neg (by simp [stop]), List.append_nil]
          have ends := conditions.2.2
          rw [run] at ends
          rw [← whole, List.append_assoc] at ends
          rw [whole, List.drop_left, List.cons_append, List.head?_cons] at ends
          apply clean
          rw [← whole, ← Option.some.inj ends]
          exact List.mem_append_right _ List.mem_cons_self

theorem mem_templateParams_iff (clean : ∀ part ∈ parts, part.Clean) (name : Text) :
    name ∈ templateParams isAlnum (spell parts) ↔
      name ∈ paramsOf parts ∧ IsWordName isAlnum name := by
  rw [templateParams]
  induction parts with
  | nil => simp [spell, findFrom, paramsOf]
  | cons part parts ih =>
      obtain ⟨first, others⟩ := List.forall_mem_cons.mp clean
      have ih := ih others
      rw [spell, List.flatMap_cons]
      cases part with
      | char symbol =>
          have plain : '{' ∉ [symbol] := fun member => first.1 (List.mem_singleton.mp member).symm
          exact (iff_of_eq (congrArg (name ∈ ·) (findFrom_append plain _))).trans ih
      | param other =>
          have text : braced other ++ spell parts = '{' :: (other ++ ['}'] ++ spell parts) := by
            simp [braced]
          have front : '{' ∉ other ++ ['}'] := by simpa using first.1
          have listed : paramsOf (.param other :: parts) = other :: paramsOf parts := rfl
          rw [listed, List.mem_cons]
          change name ∈ findFrom isAlnum 0 (braced other ++ spell parts) ↔ _
          rcases @paramAt_braced isAlnum other first.2 (spell parts) with word | blank
          · rw [text] at word ⊢
            rw [findFrom, word.2]
            dsimp only
            have rest := @findFrom_skip isAlnum (other ++ ['}']) (spell parts)
            rw [List.length_append, List.length_singleton] at rest
            rw [rest, List.mem_cons, ih]
            constructor
            · intro found
              rcases found with rfl | later
              · exact ⟨.inl rfl, word.1⟩
              · exact ⟨.inr later.1, later.2⟩
            · intro found
              exact found.1.imp_right fun later => ⟨later, found.2⟩
          · rw [text] at blank ⊢
            rw [findFrom, blank.2]
            dsimp only
            rw [findFrom_append front, ih]
            constructor
            · intro found
              exact ⟨.inr found.1, found.2⟩
            · intro found
              exact ⟨found.1.resolve_left (fun same => blank.1 (same ▸ found.2)), found.2⟩

end Finding

section Replacing

variable {isAlnum : Char → Bool} {str : Json → String} {parts : List Part}
  {values : Text → Option Text} {name value : Text}

theorem replaceParam_append {front : Text} (plain : '{' ∉ front) (rest : Text) :
    replaceParam name value (front ++ rest) = front ++ replaceParam name value rest := by
  induction front with
  | nil => rfl
  | cons char front ih =>
      obtain ⟨other, later⟩ := not_or.mp (mt List.mem_cons.mpr plain)
      rw [List.cons_append, replaceParam, Substitution.substitute_cons]
      · exact congrArg (List.cons char) (ih later)
      · simp [braced, List.isPrefixOf, other]

theorem replaceParam_braced (rest : Text) :
    replaceParam name value (braced name ++ rest) = value ++ replaceParam name value rest := by
  have found : (braced name).isPrefixOf (braced name ++ rest) = true :=
    List.isPrefixOf_iff_prefix.mpr (List.prefix_append _ _)
  have length : (braced name).length = name.length + 2 := by simp [braced]
  rw [replaceParam, Substitution.substitute_of_match (by rw [if_pos found]; omega)
    (by simp [braced]), if_pos found, ← length, List.drop_left, length]
  rfl

theorem eq_of_braced_starts {other rest : Text} (clean : '}' ∉ name) (also : '}' ∉ other)
    (prefixed : braced name <+: braced other ++ rest) : name = other := by
  obtain ⟨tail, whole⟩ := prefixed
  simp only [braced, List.cons_append, List.append_assoc, List.cons.injEq, true_and,
    List.nil_append] at whole
  exact ((Joining.append_separator_inj clean also).mp whole).1

theorem replaceParam_resolved (clean : ∀ part ∈ parts, part.Clean) (nameClean : '}' ∉ name)
    (plain : ∀ other text, values other = some text → '{' ∉ text) :
    replaceParam name value (parts.flatMap (Part.resolved values)) =
      parts.flatMap (Part.resolved (fun other =>
        (values other).or (if other = name then some value else none))) := by
  induction parts with
  | nil => rfl
  | cons part parts ih =>
      obtain ⟨first, others⟩ := List.forall_mem_cons.mp clean
      rw [List.flatMap_cons, List.flatMap_cons, ← ih others]
      cases part with
      | char symbol =>
          exact replaceParam_append
            (fun member => first.1 (List.mem_singleton.mp member).symm) _
      | param other =>
          rw [Part.resolved, Part.resolved]
          cases given : values other with
          | some text => exact replaceParam_append (plain other text given) _
          | none =>
              rw [Option.getD_none, Option.none_or]
              by_cases same : other = name
              · rw [if_pos same, same]
                exact replaceParam_braced _
              · rw [if_neg same, Option.getD_none]
                have text : braced other = ['{'] ++ (other ++ ['}']) := rfl
                have later : '{' ∉ other ++ ['}'] := by simpa using first.1
                have unmatched : (braced name).isPrefixOf
                    (['{'] ++ (other ++ ['}'] ++ parts.flatMap (Part.resolved values))) ≠ true := by
                  intro prefixed
                  rw [← List.append_assoc, ← text] at prefixed
                  exact same (eq_of_braced_starts nameClean first.2
                    (List.isPrefixOf_iff_prefix.mp prefixed)).symm
                rw [text, List.append_assoc ['{'] _ _, List.append_assoc ['{'] _ _,
                  ← replaceParam_append later, replaceParam]
                exact Substitution.substitute_cons (if_neg unmatched)

def valueOf (str : Json → String) (params : List Text) (kwargs : List (Text × Json)) (name : Text) :
    Option Text :=
  if name ∈ params then argumentOf str kwargs name else none

theorem foldl_place {front : Text} {params : List Text} {method : String}
    (clean : ∀ part ∈ parts, part.Clean) (frontPlain : '{' ∉ front)
    (paramsClean : ∀ name ∈ params, '}' ∉ name) (kwargs : List (Text × Json))
    (unbraced : ∀ argument ∈ kwargs, argument.1 ∈ params → '{' ∉ strOf str argument.2)
    (plain : ∀ other text, values other = some text → '{' ∉ text)
    (queryParams body : List (Text × Json)) :
    kwargs.foldl (place str method params)
        ⟨front ++ parts.flatMap (Part.resolved values), queryParams, body⟩ =
      ⟨front ++ parts.flatMap (Part.resolved (fun name =>
          (values name).or (valueOf str params kwargs name))),
        queryParams ++ (if method ∉ actionMethods ∧ method = "get" then
          kwargs.filter (fun argument => argument.1 ∉ params) else []),
        body ++ (if method ∈ actionMethods then
          kwargs.filter (fun argument => argument.1 ∉ params) else [])⟩ := by
  induction kwargs generalizing values queryParams body with
  | nil => simp [valueOf, argumentOf]
  | cons argument kwargs ih =>
      obtain ⟨first, others⟩ := List.forall_mem_cons.mp unbraced
      rw [List.foldl_cons, place]
      by_cases member : argument.1 ∈ params
      · rw [if_pos member]
        dsimp only
        rw [replaceParam_append frontPlain,
          replaceParam_resolved clean (paramsClean _ member) plain, ih others]
        · have merged : (fun name =>
              ((values name).or
                (if name = argument.1 then some (strOf str argument.2) else none)).or
                (valueOf str params kwargs name)) =
              fun name => (values name).or (valueOf str params (argument :: kwargs) name) := by
            funext name
            rw [Option.or_assoc, valueOf, valueOf, argumentOf, argumentOf, List.lookup_cons]
            by_cases same : name = argument.1
            · have listed : name ∈ params := same ▸ member
              rw [if_pos same, if_pos listed, if_pos listed, beq_iff_eq.mpr same]
              rfl
            · rw [if_neg same, beq_eq_false_iff_ne.mpr same, Option.none_or]
          rw [merged, List.filter_cons_of_neg (by simpa using member)]
        · intro other text given
          rcases Option.or_eq_some_iff.mp given with held | new
          · exact plain other text held
          · split at new
            · exact Option.some.inj new.2 ▸ first member
            · cases new.2
      · have same : valueOf str params (argument :: kwargs) = valueOf str params kwargs := by
          funext name
          rw [valueOf, valueOf]
          by_cases listed : name ∈ params
          · have other : (name == argument.1) = false :=
              beq_eq_false_iff_ne.mpr (fun equal => member (equal ▸ listed))
            rw [if_pos listed, if_pos listed, argumentOf, argumentOf, List.lookup_cons, other]
          · rw [if_neg listed, if_neg listed]
        rw [if_neg member, same, List.filter_cons_of_pos (by simpa using member)]
        by_cases action : method ∈ actionMethods
        · rw [if_pos action, ih others plain]
          simp [action]
        · by_cases get : method = "get"
          · have both : method ∉ actionMethods ∧ method = "get" := ⟨action, get⟩
            rw [if_neg action, if_pos get, ih others plain]
            simp only [if_pos both, if_neg action, List.append_assoc, List.singleton_append]
          · rw [if_neg action, if_neg get, ih others plain]
            simp [action, get]

end Replacing

section Spelling

variable {str : Json → String} {values : Text → Option Text} {parts : List Part} {text : Text}

theorem byteOf_brace (digit : Char) :
    byteOf ('{', digit) = none ∧ byteOf (digit, '{') = none := by
  refine ⟨rfl, ?_⟩
  rw [byteOf]
  cases Ip.hexDigit digit with
  | none => rfl
  | some high => rfl

theorem brace_not_mem_escapes {digits : List (Char × Char)} {bytes : List UInt8}
    (read : digits.mapM byteOf = some bytes) :
    '{' ∉ digits.flatMap (fun pair => ['%', pair.1, pair.2]) := by
  induction digits generalizing bytes with
  | nil => exact List.not_mem_nil
  | cons pair digits ih =>
      obtain ⟨first, second⟩ := pair
      rw [List.mapM_cons] at read
      cases byte : byteOf (first, second) with
      | none =>
          rw [byte] at read
          cases read
      | some _ =>
          cases others : digits.mapM byteOf with
          | none =>
              rw [byte, others] at read
              cases read
          | some _ =>
              have one : first ≠ '{' := by
                intro brace
                rw [brace, (byteOf_brace second).1] at byte
                cases byte
              have two : second ≠ '{' := by
                intro brace
                rw [brace, (byteOf_brace first).2] at byte
                cases byte
              simp [one.symm, two.symm, ih others]

theorem brace_of_encodes {raw : Text} (encodes : Encodes raw text) (brace : '{' ∈ raw) :
    '{' ∈ text := by
  induction encodes with
  | nil => exact brace
  | plain other more ih =>
      exact List.mem_cons.mpr ((List.mem_cons.mp brace).imp_right ih)
  | percent bare more ih =>
      exact List.mem_cons.mpr ((List.mem_cons.mp brace).imp_right ih)
  | escaped bytes more ih =>
      rcases List.mem_append.mp brace with inside | later
      · exact absurd inside (brace_not_mem_escapes bytes)
      · exact List.mem_cons_of_mem _ (ih later)

theorem brace_not_mem_quoteChar (char : Char) : '{' ∉ quoteChar char := by
  have digits : ∀ digit < 16, '{' ≠ (Nat.digitChar digit).toUpper := by decide
  rw [quoteChar]
  split
  · next kept =>
      intro member
      rw [← List.mem_singleton.mp member] at kept
      exact absurd kept (by decide)
  · split
    · decide
    · intro member
      obtain ⟨byte, -, inside⟩ := List.mem_flatMap.mp member
      have bound : byte.toNat < 256 := byte.toNat_lt
      simp only [List.mem_cons, List.not_mem_nil, or_false] at inside
      rcases inside with percent | high | low
      · exact absurd percent (by decide)
      · exact digits _ (by omega) high
      · exact digits _ (by omega) low

theorem brace_not_mem_queryText (params : List (Text × Json)) :
    '{' ∉ queryText str params := by
  have quoted (text : Text) : '{' ∉ text.flatMap quoteChar := by
    intro member
    obtain ⟨char, -, inside⟩ := List.mem_flatMap.mp member
    exact brace_not_mem_quoteChar char inside
  have joined (texts : List Text) (plain : ∀ text ∈ texts, '{' ∉ text) :
      '{' ∉ ['&'].intercalate texts := by
    induction texts with
    | nil => exact List.not_mem_nil
    | cons text texts ih =>
        obtain ⟨first, others⟩ := List.forall_mem_cons.mp plain
        cases texts with
        | nil => simpa [List.intercalate] using first
        | cons next texts =>
            have later := ih others
            rw [List.intercalate_cons_cons]
            simp [first, later]
  rw [queryText]
  split
  · exact List.not_mem_nil
  · intro member
    rcases List.mem_cons.mp member with mark | member
    · exact absurd mark (by decide)
    · refine joined _ ?_ member
      intro text listed
      obtain ⟨param, -, rfl⟩ := List.mem_map.mp listed
      simp [quoted]

theorem Spells.append {others : List Part} {more : Text} (spells : Spells values parts text)
    (also : Spells values others more) : Spells values (parts ++ others) (text ++ more) := by
  induction spells with
  | nil => exact also
  | char _ ih => exact .char ih
  | param given encodes apart _ ih =>
      rw [List.append_assoc]
      exact .param given encodes apart ih

theorem spells_of_replaces {segments : List (List Part)} {texts : List Text}
    (replaces : List.Forall₂ (Replaces values) segments texts) :
    Spells values (segments.flatMap (.char '/' :: ·)) (texts.flatMap ('/' :: ·)) := by
  induction replaces with
  | nil => exact .nil
  | cons first _ ih => exact (Spells.char first.spells).append ih

theorem length_le_of_spells (spells : Spells values parts text) :
    (parts.flatMap (Part.resolved values)).length ≤ text.length := by
  induction spells with
  | nil => exact Nat.le_refl _
  | char _ ih => exact Nat.succ_le_succ ih
  | param given encodes _ _ ih =>
      have longer := length_le_of_encodes encodes
      rw [List.flatMap_cons, Part.resolved, given, Option.getD_some, List.length_append,
        List.length_append]
      omega

theorem eq_of_spells (spells : Spells values parts text)
    (same : text.length = (parts.flatMap (Part.resolved values)).length) :
    text = parts.flatMap (Part.resolved values) ∧ ∀ name ∈ paramsOf parts, Stands values name := by
  induction spells with
  | nil => exact ⟨rfl, nofun⟩
  | char _ ih =>
      obtain ⟨rfl, stand⟩ := ih (Nat.succ.inj same)
      exact ⟨rfl, stand⟩
  | @param name raw value text parts given encodes apart more ih =>
      have longer := length_le_of_encodes encodes
      have later := length_le_of_spells more
      rw [List.flatMap_cons, Part.resolved, given, Option.getD_some] at same ⊢
      rw [List.length_append, List.length_append] at same
      obtain ⟨rfl, unescaped⟩ := eq_of_encodes encodes (by omega)
      obtain ⟨rfl, stand⟩ := ih (by omega)
      exact ⟨rfl, List.forall_mem_cons.mpr ⟨⟨raw, given, unescaped, apart⟩, stand⟩⟩

theorem spells_resolved (stand : ∀ name ∈ paramsOf parts, Stands values name) :
    Spells values parts (parts.flatMap (Part.resolved values)) := by
  induction parts with
  | nil => exact .nil
  | cons part parts ih =>
      cases part with
      | char symbol => exact .char (ih stand)
      | param name =>
          obtain ⟨⟨value, given, unescaped, apart⟩, others⟩ := List.forall_mem_cons.mp stand
          rw [List.flatMap_cons, Part.resolved, given, Option.getD_some]
          exact .param given (encodes_self unescaped) apart (ih others)

theorem not_mem_of_spells (spells : Spells values parts text)
    (clean : ∀ part ∈ parts, part.Clean) (path : ∀ symbol, .char symbol ∈ parts → symbol ≠ '?')
    (unbraced : ∀ name ∈ paramsOf parts, ∀ value, values name = some value → '{' ∉ value) :
    '{' ∉ text ∧ '?' ∉ text := by
  induction spells with
  | nil => exact ⟨List.not_mem_nil, List.not_mem_nil⟩
  | char _ ih =>
      obtain ⟨first, others⟩ := List.forall_mem_cons.mp clean
      obtain ⟨brace, mark⟩ := ih others (fun symbol member =>
        path symbol (List.mem_cons_of_mem _ member)) unbraced
      have other := path _ List.mem_cons_self
      simp [brace, mark, first.1.symm, other.symm]
  | param given encodes apart _ ih =>
      obtain ⟨-, others⟩ := List.forall_mem_cons.mp clean
      obtain ⟨own, later⟩ := List.forall_mem_cons.mp unbraced
      obtain ⟨brace, mark⟩ := ih others (fun symbol member =>
        path symbol (List.mem_cons_of_mem _ member)) later
      constructor
      · rw [List.mem_append, not_or]
        exact ⟨mt (brace_of_encodes encodes) (own _ given), brace⟩
      · rw [List.mem_append, not_or]
        exact ⟨fun inside => apart _ inside (by decide), mark⟩

theorem length_le_of_replaces {segments : List (List Part)} {texts : List Text}
    (replaces : List.Forall₂ (Replaces values) segments texts) :
    (segments.flatMap (fun segment => '/' :: segment.flatMap (Part.resolved values))).length ≤
      (texts.flatMap ('/' :: ·)).length := by
  induction replaces with
  | nil => exact Nat.le_refl _
  | cons first _ ih =>
      have longer := length_le_of_spells first.spells
      simp only [List.flatMap_cons, List.length_append, List.length_cons]
      omega

theorem eq_of_replaces {segments : List (List Part)} {texts : List Text}
    (replaces : List.Forall₂ (Replaces values) segments texts)
    (same : (texts.flatMap ('/' :: ·)).length ≤
      (segments.flatMap (fun segment => '/' :: segment.flatMap (Part.resolved values))).length) :
    ∀ segment ∈ segments, (∀ name ∈ paramsOf segment, Stands values name) ∧
      (segment.any Part.isParam = true →
        segment.flatMap (Part.resolved values) ∉ dotSegments) := by
  induction replaces with
  | nil => exact nofun
  | cons first others ih =>
      have longer := length_le_of_spells first.spells
      have later := length_le_of_replaces others
      simp only [List.flatMap_cons, List.length_append, List.length_cons] at same
      obtain ⟨equal, stand⟩ := eq_of_spells first.spells (by omega)
      exact List.forall_mem_cons.mpr ⟨⟨stand, equal ▸ first.stays⟩, ih (by omega)⟩

theorem paramsOf_flatMap (segments : List (List Part)) :
    paramsOf (segments.flatMap (.char '/' :: ·)) = segments.flatMap paramsOf := by
  induction segments with
  | nil => rfl
  | cons segment segments ih =>
      rw [List.flatMap_cons, List.flatMap_cons, ← ih, paramsOf, List.filterMap_append]
      rfl

theorem flatMap_resolved (segments : List (List Part)) :
    (segments.flatMap (.char '/' :: ·)).flatMap (Part.resolved values) =
      segments.flatMap (fun segment => '/' :: segment.flatMap (Part.resolved values)) := by
  rw [List.flatMap_assoc]
  rfl

end Spelling

section Sending

variable {isAlnum : Char → Bool} {str : Json → String} {endpoint : HandledEndpoint}
  {kwargs : List (Text × Json)}

def isSlash (part : Part) : Bool := part = .char '/'

def HandledEndpoint.path (endpoint : HandledEndpoint) : List Part :=
  endpoint.template.parts.dropWhile isSlash

theorem dropWhile_spell (parts : List Part) :
    (spell parts).dropWhile (· = '/') = spell (parts.dropWhile isSlash) := by
  induction parts with
  | nil => rfl
  | cons part parts ih =>
      cases part with
      | char symbol =>
          by_cases slash : symbol = '/'
          · subst slash
            exact ih
          · rw [List.dropWhile_cons_of_neg (by simp [isSlash, slash])]
            exact List.dropWhile_cons_of_neg (by simp [slash])
      | param name =>
          rw [List.dropWhile_cons_of_neg (by simp [isSlash])]
          exact List.dropWhile_cons_of_neg (by decide)

theorem clean_parts (endpoint : HandledEndpoint) :
    ∀ part ∈ endpoint.template.parts, part.Clean := by
  intro part member
  obtain ⟨segment, listed, inside⟩ := List.mem_flatMap.mp member
  rcases List.mem_cons.mp inside with rfl | inside
  · exact ⟨by decide, by decide⟩
  · exact endpoint.template.clean segment listed part inside

theorem symbol_ne_mark (endpoint : HandledEndpoint) (symbol : Char)
    (member : .char symbol ∈ endpoint.template.parts) : symbol ≠ '?' := by
  obtain ⟨segment, listed, inside⟩ := List.mem_flatMap.mp member
  rcases List.mem_cons.mp inside with same | inside
  · rw [Part.char.inj same]
    decide
  · intro mark
    exact endpoint.template.path segment listed symbol inside (by rw [mark]; decide)

def HandledEndpoint.replaced (isAlnum : Char → Bool) (endpoint : HandledEndpoint) : List Text :=
  templateParams isAlnum (spell endpoint.template.parts)

theorem mem_replaced_iff {name : Text} : name ∈ endpoint.replaced isAlnum ↔
    name ∈ endpoint.params ∧ IsWordName isAlnum name :=
  mem_templateParams_iff (clean_parts endpoint) name

theorem clean_of_mem_params {name : Text} (member : name ∈ endpoint.params) :
    '{' ∉ name ∧ '}' ∉ name := by
  obtain ⟨part, listed, same⟩ := List.mem_filterMap.mp member
  have clean := clean_parts endpoint part listed
  cases part with
  | char symbol => cases same
  | param other =>
      obtain rfl := Option.some.inj same
      exact clean

theorem resolved_none : Part.resolved (fun _ => none) = Part.text := by
  funext part
  cases part with
  | char symbol => rfl
  | param name => rfl

theorem request_eq (unbraced : ∀ argument ∈ kwargs, argument.1 ∈ endpoint.params →
      '{' ∉ strOf str argument.2) :
    ∃ sent, (endpoint.handler.request isAlnum str kwargs).url =
        endpoint.base.rdropWhile (· = '/') ++ '/' :: endpoint.path.flatMap
          (Part.resolved (valueOf str (endpoint.replaced isAlnum) kwargs)) ++ queryText str sent ∧
      (endpoint.method ∈ ["get", "post", "put", "delete", "patch"] →
        ∀ argument ∈ kwargs, argument.1 ∉ endpoint.params → argument ∈ sent ∨
          argument ∈ (endpoint.handler.request isAlnum str kwargs).json.getD []) := by
  have front : '{' ∉ endpoint.base.rdropWhile (· = '/') ++ ['/'] := by
    intro member
    rcases List.mem_append.mp member with inside | slash
    · have listed := (List.rdropWhile_prefix (· = '/') endpoint.base).subset inside
      exact endpoint.plain _ listed (by decide)
    · exact absurd slash (by decide)
  have path : ∀ part ∈ endpoint.path, part.Clean := fun part member =>
    clean_parts endpoint part ((List.dropWhile_suffix _).subset member)
  have names : ∀ name ∈ endpoint.replaced isAlnum, '}' ∉ name := fun name member =>
    (clean_of_mem_params (mem_replaced_iff.mp member).1).2
  have loop := @foldl_place str endpoint.path (fun _ => none) _ (endpoint.replaced isAlnum)
    endpoint.method path front names kwargs
    (fun argument member listed => unbraced argument member (mem_replaced_iff.mp listed).1)
    nofun [] []
  rw [resolved_none, List.append_assoc, List.append_assoc, List.singleton_append,
    List.singleton_append, List.nil_append, List.nil_append] at loop
  simp only [Option.none_or] at loop
  have text : endpoint.handler.pathTemplate.toList = spell endpoint.template.parts :=
    String.toList_ofList
  have base : endpoint.handler.baseUrl.toList = endpoint.base := String.toList_ofList
  have kept (argument : Text × Json) (member : argument ∈ kwargs)
      (other : argument.1 ∉ endpoint.params) :
      argument ∈ kwargs.filter (fun argument => argument.1 ∉ endpoint.replaced isAlnum) :=
    List.mem_filter.mpr
      ⟨member, decide_eq_true (fun listed => other (mem_replaced_iff.mp listed).1)⟩
  have sends : endpoint.handler.request isAlnum str kwargs =
      sendDraft str endpoint.method (kwargs.foldl
        (place str endpoint.method (endpoint.replaced isAlnum))
        ⟨endpoint.base.rdropWhile (· = '/') ++ '/' :: endpoint.path.flatMap Part.text,
          [], []⟩) := by
    rw [OpenapiHandler.request, text, base, dropWhile_spell]
    rfl
  rw [sends, loop, sendDraft]
  by_cases action : endpoint.method ∈ actionMethods
  · refine ⟨[], ?_, ?_⟩
    · simp [action]
    · intro _ argument member other
      right
      simpa [action] using kept argument member other
  · refine ⟨if endpoint.method = "get" then
      kwargs.filter (fun argument => argument.1 ∉ endpoint.replaced isAlnum) else [], ?_, ?_⟩
    · simp [action]
    · intro common argument member other
      left
      have get : endpoint.method = "get" := by
        simp only [actionMethods, List.mem_cons, List.not_mem_nil, or_false] at action common
        tauto
      rw [if_pos get]
      exact kept argument member other

theorem path_eq (endpoint : HandledEndpoint) :
    ∃ front, endpoint.template.parts = .char '/' :: (front ++ endpoint.path) ∧
      (∀ part ∈ front, part = .char '/') ∧
      (front = [] ↔ (endpoint.template.segments.head? = some [] →
        endpoint.template.segments.length = 1)) := by
  cases listed : endpoint.template.segments with
  | nil => exact absurd listed endpoint.template.nonempty
  | cons segment segments =>
      have parts : endpoint.template.parts =
          .char '/' :: (segment ++ segments.flatMap (.char '/' :: ·)) := by
        rw [PathTemplate.parts, listed]
        rfl
      have path : endpoint.path =
          (segment ++ segments.flatMap (.char '/' :: ·)).dropWhile isSlash := by
        rw [HandledEndpoint.path, parts]
        rfl
      refine ⟨(segment ++ segments.flatMap (.char '/' :: ·)).takeWhile isSlash, ?_, ?_, ?_⟩
      · rw [parts, path, List.takeWhile_append_dropWhile]
      · intro part member
        have slash := List.mem_takeWhile_imp member
        simpa [isSlash] using slash
      · cases segment with
        | nil =>
            cases segments with
            | nil => simp
            | cons next segments => simp [isSlash]
        | cons part segment =>
            have other : isSlash part = false := by
              have first := endpoint.template.path (part :: segment)
                (listed ▸ List.mem_cons_self)
              cases part with
              | char symbol =>
                  have plain := first symbol List.mem_cons_self
                  simp only [List.mem_cons, not_or] at plain
                  simp [isSlash, plain.1]
              | param name => rfl
            simp [other]

theorem length_le_of_append {path query text rest : Text} (same : path ++ query = text ++ rest)
    (plain : '?' ∉ path) (marked : ∀ char, rest.head? = some char → char = '?') :
    path.length ≤ text.length := by
  rcases List.append_eq_append_iff.mp same with shorter | longer
  · obtain ⟨more, rfl, -⟩ := shorter
    simp
  · obtain ⟨more, rfl, equal⟩ := longer
    cases more with
    | nil => simp
    | cons char more =>
        have mark := marked char (by rw [equal]; rfl)
        exact absurd (List.mem_append_right _ (mark ▸ List.mem_cons_self)) plain

theorem head?_queryText {params : List (Text × Json)} {char : Char}
    (head : (queryText str params).head? = some char) : char = '?' := by
  rw [queryText] at head
  split at head
  · cases head
  · exact (Option.some.inj head).symm

theorem mem_of_lookup {name : Text} {value : Json} (found : kwargs.lookup name = some value) :
    (name, value) ∈ kwargs := by
  obtain ⟨before, after, rfl, -⟩ := List.lookup_eq_some_iff.mp found
  simp

theorem resolved_path (word : ∀ name ∈ endpoint.params, IsWordName isAlnum name) :
    endpoint.path.flatMap (Part.resolved (valueOf str (endpoint.replaced isAlnum) kwargs)) =
      endpoint.path.flatMap (Part.resolved (argumentOf str kwargs)) := by
  apply List.flatMap_congr
  intro part member
  cases part with
  | char symbol => rfl
  | param name =>
      have listed : name ∈ endpoint.params :=
        List.mem_filterMap.mpr ⟨_, (List.dropWhile_suffix _).subset member, rfl⟩
      rw [Part.resolved, Part.resolved, valueOf,
        if_pos (mem_replaced_iff.mpr ⟨listed, word name listed⟩)]

theorem method_request_iff :
    (endpoint.handler.request isAlnum str kwargs).method = upper endpoint.method ↔
      endpoint.method ∈ ["get", "post", "put", "delete", "patch"] := by
  have sent : (endpoint.handler.request isAlnum str kwargs).method =
      if endpoint.method ∈ actionMethods then upper endpoint.method else upper "get" := by
    rw [OpenapiHandler.request, sendDraft]
    split
    · next action => exact (if_pos action).symm
    · next other => exact (if_neg other).symm
  rw [sent]
  have listed := endpoint.supported
  simp only [httpMethods, List.mem_cons, List.not_mem_nil, or_false] at listed
  generalize endpoint.method = method at listed
  rcases listed with rfl | rfl | rfl | rfl | rfl | rfl | rfl
  · decide
  · decide
  · decide
  · decide
  · decide
  · decide
  · decide

theorem fits_of_staysOn (unbraced : ∀ argument ∈ kwargs, argument.1 ∈ endpoint.params →
      '{' ∉ strOf str argument.2)
    (stays : StaysOn str endpoint kwargs (endpoint.handler.request isAlnum str kwargs)) :
    Fits isAlnum str endpoint kwargs := by
  obtain ⟨method, texts, sent, url, replaces, -⟩ := stays
  obtain ⟨query, shape, -⟩ := @request_eq isAlnum str endpoint kwargs unbraced
  have spells := spells_of_replaces replaces
  have bare : ∀ name ∈ endpoint.params, ∀ value, argumentOf str kwargs name = some value →
      '{' ∉ value := by
    intro name member value given
    obtain ⟨json, found, rfl⟩ := Option.map_eq_some_iff.mp given
    exact unbraced _ (mem_of_lookup found) member
  obtain ⟨brace, mark⟩ := not_mem_of_spells spells (clean_parts endpoint)
    (symbol_ne_mark endpoint) bare
  obtain ⟨front, parts, slashes, slash⟩ := path_eq endpoint
  have same := url.symm.trans shape
  rw [List.append_assoc, List.append_assoc, List.append_cancel_left_eq] at same
  -- the text that was sent has no brace, so that no parameter was left in it
  have word : ∀ name ∈ endpoint.params, IsWordName isAlnum name := by
    intro name member
    by_contra other
    have inside : .param name ∈ endpoint.path := by
      obtain ⟨part, listed, named⟩ := List.mem_filterMap.mp member
      cases part with
      | char symbol => cases named
      | param _ =>
          obtain rfl := Option.some.inj named
          rw [parts, List.mem_cons, List.mem_append] at listed
          rcases listed with impossible | slash | found
          · cases impossible
          · cases slashes _ slash
          · exact found
    have left : '{' ∈ texts.flatMap ('/' :: ·) ++ queryText str sent := by
      rw [same]
      apply List.mem_append_left
      apply List.mem_cons_of_mem
      apply List.mem_flatMap.mpr
      refine ⟨_, inside, ?_⟩
      rw [Part.resolved, valueOf, if_neg (fun listed => other (mem_replaced_iff.mp listed).2)]
      exact List.mem_cons_self
    rcases List.mem_append.mp left with path | after
    · exact brace path
    · exact brace_not_mem_queryText _ after
  rw [resolved_path word] at same
  have longer := length_le_of_append same mark (fun _ => head?_queryText)
  have least := length_le_of_replaces replaces
  have whole : endpoint.template.segments.flatMap
      (fun segment => '/' :: segment.flatMap (Part.resolved (argumentOf str kwargs))) =
      '/' :: (front.flatMap (Part.resolved (argumentOf str kwargs)) ++
        endpoint.path.flatMap (Part.resolved (argumentOf str kwargs))) := by
    rw [← flatMap_resolved, ← PathTemplate.parts, parts, List.flatMap_cons, List.flatMap_append]
    rfl
  have none : front = [] := by
    cases front with
    | nil => rfl
    | cons part front =>
        rw [whole, slashes part List.mem_cons_self] at least
        simp only [List.flatMap_cons, Part.resolved, List.length_cons, List.length_append]
          at least longer
        omega
  have each := eq_of_replaces replaces (by rw [whole, none]; simpa using longer)
  refine ⟨method_request_iff.mp method, slash.mp none, word, ?_,
    fun segment member => (each segment member).2⟩
  · intro name member
    rw [HandledEndpoint.params, PathTemplate.parts, paramsOf_flatMap] at member
    obtain ⟨segment, listed, inside⟩ := List.mem_flatMap.mp member
    exact (each segment listed).1 name inside

theorem staysOn_of_fits (unbraced : ∀ argument ∈ kwargs, argument.1 ∈ endpoint.params →
      '{' ∉ strOf str argument.2)
    (fits : Fits isAlnum str endpoint kwargs) :
    StaysOn str endpoint kwargs (endpoint.handler.request isAlnum str kwargs) := by
  obtain ⟨sent, shape, carried⟩ := @request_eq isAlnum str endpoint kwargs unbraced
  obtain ⟨front, parts, -, slash⟩ := path_eq endpoint
  rw [slash.mpr fits.slash, List.nil_append] at parts
  refine ⟨method_request_iff.mpr fits.method,
    endpoint.template.segments.map (List.flatMap (Part.resolved (argumentOf str kwargs))),
    sent, ?_, ?_, carried fits.method⟩
  · have whole := @flatMap_resolved (argumentOf str kwargs) endpoint.template.segments
    rw [← PathTemplate.parts, parts] at whole
    rw [shape, resolved_path fits.word, List.flatMap_map, ← whole]
    rfl
  · rw [List.forall₂_map_right_iff, List.forall₂_same]
    intro segment member
    refine ⟨spells_resolved ?_, fits.dots segment member⟩
    intro name inside
    apply fits.given
    rw [HandledEndpoint.params, PathTemplate.parts, paramsOf_flatMap]
    exact List.mem_flatMap.mpr ⟨segment, member, inside⟩

end Sending

/-- Every argument of a parameter is given. -/
def Complete (endpoint : HandledEndpoint) (kwargs : List (Text × Json)) : Prop :=
  ∀ name ∈ endpoint.params, (kwargs.lookup name).isSome = true

/-- `/pets/` and an id. -/
def petEndpoint : HandledEndpoint where
  base := "https://api".toList
  template :=
    { segments := ["pets".toList.map Part.char, [.param "id".toList]]
      nonempty := List.cons_ne_nil _ _
      clean := by simp [Part.Clean]
      path := by simp }
  method := "get"
  plain := by simp
  supported := by decide

end RagSystem.Tools.OpenApi
