import RagSystem.Data.ShellTexts
import RagSystem.Data.Dict
import RagSystem.Etl.MarkdownText
import Mathlib.Data.List.DropRight

/-! Shell tools of `proxy/app/tools/declarative.py`: a command template, the values put into it, and
the arguments the program is run with. -/

namespace RagSystem.Tools

open Etl.MarkdownText (Text isSpace strip)
open ShellWords

/-! ### `_interpolate_variables` -/

def openBrace : Char := Char.ofNat 0x7B

def closeBrace : Char := Char.ofNat 0x7D

/-- A template as `_VAR_PATTERN` cuts it: its characters, and the keys of its placeholders. -/
inductive Piece
  | char (char : Char)
  | placeholder (key : Text)
  deriving DecidableEq, Repr

section

-- `\w`
variable (isWord : Char → Bool)

/-- The key of a placeholder at the start of the text. The run of word characters and dots is taken
whole: no brace is one of them, so a shorter one is not followed by braces. -/
def placeholderAt : Text → Option Text
  | first :: second :: rest =>
      let key := rest.takeWhile (fun char => isWord char || char = '.')
      let after := rest.drop key.length
      if first = openBrace ∧ second = openBrace ∧ after.take 2 = [closeBrace, closeBrace] ∧
          (key.splitOn '.').all (· ≠ []) then
        some key
      else none
  | _ => none

/-- `_VAR_PATTERN.sub` from the left; `skip` is what remains of a placeholder that was found. -/
def piecesFrom (skip : Nat) : Text → List Piece
  | [] => []
  | char :: rest =>
      match skip with
      | skip + 1 => piecesFrom skip rest
      | 0 =>
          match placeholderAt isWord (char :: rest) with
          | some key => .placeholder key :: piecesFrom (key.length + 3) rest
          | none => .char char :: piecesFrom 0 rest

def pieces (template : Text) : List Piece := piecesFrom isWord 0 template

def placeholders (template : Text) : List Text :=
  (pieces isWord template).filterMap fun
    | .char _ => none
    | .placeholder key => some key

end

inductive Source
  | context
  | parameter
  | environment
  | unresolved
  deriving DecidableEq, Repr

/-- The key after `CONTEXT.` -/
def contextKey (key : Text) : Option Text :=
  let name := "CONTEXT".toList
  if key.take (name.length + 1) = name ++ ['.'] then some (key.drop (name.length + 1)) else none

/-- `_replacer`, on the texts of the values. -/
def replacer (params envVars context : Dict Text Text) (key : Text) : Source × Text :=
  match (contextKey key).bind context.get? with
  | some value => (.context, value)
  | none =>
      match params.get? key with
      | some value => (.parameter, value)
      | none =>
          match envVars.get? key with
          | some value => (.environment, value)
          | none =>
              (.unresolved, [openBrace, openBrace] ++ key ++ [closeBrace, closeBrace])

def interpolateVariables (isWord : Char → Bool) (template : Text)
    (params envVars context : Dict Text Text) : Text :=
  (pieces isWord template).flatMap fun
    | .char char => [char]
    | .placeholder key => (replacer params envVars context key).2

/-! ### `_make_shell_handler` -/

/-- `_SHELL_METACHAR_PATTERN` -/
def hasMetacharacters (value : Text) : Bool := value.any (· ∈ ";&|`$()".toList)

/-- The arguments of `_make_shell_handler`. Of these `allowed_paths` and `env_whitelist` are kept
and not read again. -/
structure ShellTool where
  command : Text
  allowedCommands : List Text
  allowedPaths : List Text := []
  workingDir : Text := "/tmp".toList
  envWhitelist : List Text := []

/-- `os.path.basename` -/
def basename (path : Text) : Text := (path.reverse.takeWhile (· ≠ '/')).reverse

/-- `str.split` without a separator. -/
def splitWhite (text : Text) : List Text := (text.splitOnP isSpace).filter (· ≠ [])

/-- `first_word` -/
def firstWordOf (resolvedCmd : Text) : Text :=
  if strip resolvedCmd = [] then [] else (splitWhite (strip resolvedCmd)).headD []

/-- The texts of `repr` in the messages. -/
structure PyRepr where
  text : Text → String
  list : List Text → String

/-- What the handler answers. `run` is the call of `subprocess.run`; `unsplit` is the answer to the
`ValueError` of `shlex.split`. -/
inductive Reply
  | blocked (message : String)
  | unsplit
  | run (argv : List Text) (cwd : Text)
  deriving DecidableEq, Repr

theorem head_splitOnP (text : Text) :
    (text.splitOnP isSpace).head? = some (text.takeWhile (!isSpace ·)) := by
  induction text with
  | nil => rfl
  | cons char rest ih =>
      rw [List.splitOnP_cons_eq_if_modifyHead]
      cases white : isSpace char with
      | true => simp [white]
      | false => simp [white, List.head?_modifyHead, ih]

theorem headD_splitWhite (text : Text) : (splitWhite text).headD [] = firstWord isSpace text := by
  induction text with
  | nil => rfl
  | cons char rest ih =>
      unfold splitWhite at ih ⊢
      cases white : isSpace char with
      | true => simpa [List.splitOnP_cons_eq_if_modifyHead, white, firstWord] using ih
      | false =>
          obtain ⟨first, others, splits⟩ := List.exists_cons_of_ne_nil
            (List.splitOnP_ne_nil isSpace rest)
          have heads := head_splitOnP rest
          rw [splits] at heads
          have first : first = rest.takeWhile (!isSpace ·) := by simpa using heads
          simp [List.splitOnP_cons_eq_if_modifyHead, white, splits, firstWord, first]

theorem takeWhile_strip (text : Text) :
    (strip text).takeWhile (!isSpace ·) = (text.dropWhile isSpace).takeWhile (!isSpace ·) := by
  generalize shape : text.dropWhile isSpace = begun
  have stripped : strip text = begun.rdropWhile isSpace := by
    rw [← shape]
    rfl
  rw [stripped]
  have parts : begun = begun.rdropWhile isSpace ++ begun.rtakeWhile isSpace :=
    List.rdropWhile_append_rtakeWhile.symm
  conv_rhs => rw [parts, List.takeWhile_append]
  split
  · rename_i whole
    have blanks : (begun.rtakeWhile isSpace).takeWhile (!isSpace ·) = [] := by
      cases tail : begun.rtakeWhile isSpace with
      | nil => rfl
      | cons char rest =>
          have last : char ∈ begun.rtakeWhile isSpace := by
            rw [tail]
            exact List.mem_cons_self
          simp [List.mem_rtakeWhile_imp last]
    rw [blanks, List.append_nil]
    exact (List.takeWhile_prefix _).eq_of_length whole
  · rfl

theorem firstWordOf_eq (text : Text) : firstWordOf text = firstWord isSpace text := by
  have begins : (strip text).dropWhile isSpace = strip text := by
    cases stripped : strip text with
    | nil => rfl
    | cons char rest =>
        have first : (strip text).head? = some char := by
          rw [stripped]
          rfl
        rw [List.dropWhile_cons_of_neg (by simp [Etl.MarkdownText.head_strip first])]
  calc
    firstWordOf text = (splitWhite (strip text)).headD [] := by
      unfold firstWordOf
      split
      · rename_i none
        rw [none]
        rfl
      · rfl
    _ = (strip text).takeWhile (!isSpace ·) := by
      rw [headD_splitWhite, firstWord, begins]
    _ = firstWord isSpace text := takeWhile_strip text

namespace ShellTool

variable (repr : PyRepr)

/-- `_check_params`, on the texts of the values. -/
def checkParams (params : Dict Text Text) : Option String :=
  (params.entries.find? (hasMetacharacters ·.2)).map fun entry =>
    "Blocked: parameter '" ++ String.ofList entry.1 ++ "' contains forbidden " ++
      "shell metacharacters in value: " ++ repr.text entry.2 ++ ". " ++
      "Characters ;&&|`$() are not allowed."

/-- `_check_command` -/
def checkCommand (tool : ShellTool) (resolvedCmd : Text) : Option String :=
  let firstCmd := basename (firstWordOf resolvedCmd)
  if firstCmd ∈ tool.allowedCommands then none
  else
    some ("Blocked: command '" ++ String.ofList firstCmd ++ "' is not in allowed_commands: " ++
      repr.list tool.allowedCommands)

/-- `_shell_handler` -/
def shellHandler (isWord : Char → Bool) (tool : ShellTool) (params environ : Dict Text Text) :
    Reply :=
  match checkParams repr params with
  | some message => .blocked message
  | none =>
      let resolvedCmd := interpolateVariables isWord tool.command params environ ∅
      match tool.checkCommand repr resolvedCmd with
      | some message => .blocked message
      | none =>
          match split kindOf resolvedCmd with
          | none => .unsplit
          | some argv => .run argv tool.workingDir

/-! ### What the template says -/

variable (isWord : Char → Bool)

def slots (tool : ShellTool) (params environ : Dict Text Text) : List (Slot Char) :=
  (pieces isWord tool.command).map fun
    | .char char => .own char
    | .placeholder key => .text (replacer params environ ∅ key).2

theorem interpolate_eq_resolved (tool : ShellTool) (params environ : Dict Text Text) :
    interpolateVariables isWord tool.command params environ ∅ =
      resolved (tool.slots isWord params environ) := by
  unfold interpolateVariables slots resolved
  rw [List.flatMap_map]
  congr 1
  funext piece
  cases piece <;> rfl

/-- The tool runs what its template says. The characters of the resolved command line are told apart
by their numbers in it, so that `arguments` says of each character of an argument where it comes
from. -/
structure RunsTemplate (tool : ShellTool) (params environ : Dict Text Text) : Prop where
  arguments : ∃ argv : List (List (Char × Nat)),
    tool.shellHandler repr isWord params environ =
        .run (argv.map (List.map Prod.fst)) tool.workingDir ∧
      split (kindOf ∘ Prod.fst)
        (interpolateVariables isWord tool.command params environ ∅).zipIdx = some argv ∧
      filled (kindOf ∘ Prod.fst) (numberFrom 0 (tool.slots isWord params environ)) = some argv
  program : ∃ argv, tool.shellHandler repr isWord params environ = .run argv tool.workingDir ∧
    argv.head? = some (firstWordOf (interpolateVariables isWord tool.command params environ ∅))
  environment : ∀ key ∈ placeholders isWord tool.command,
    (replacer params environ ∅ key).1 = .environment → key ∈ tool.envWhitelist

/-- The values stay inside their words, the template opens with a plain word, and what is no
parameter but a variable of the environment is on the whitelist. -/
structure KeepsWords (tool : ShellTool) (params environ : Dict Text Text) : Prop where
  texts : inert kindOf (tool.slots isWord params environ) = true
  program : opens kindOf isSpace false (tool.slots isWord params environ) = true
  environment : ∀ key ∈ placeholders isWord tool.command,
    params.get? key = none → (environ.get? key).isSome → key ∈ tool.envWhitelist

/-! ### When it does -/

theorem isSpace_of_blank (char : Char) (blank : kindOf char = .blank) : isSpace char = true := by
  unfold kindOf at blank
  split at blank
  · rename_i among
    simp only [List.mem_cons, List.not_mem_nil, or_false] at among
    rcases among with code | code | code | code <;> simp [isSpace, code]
  · split at blank <;> (try split at blank) <;> (try split at blank) <;> cases blank

theorem kindOf_of_isSpace (char : Char) (white : isSpace char = true) :
    kindOf char = .blank ∨ kindOf char = .plain := by
  have quotes : char.toNat ≠ 0x27 ∧ char.toNat ≠ 0x22 ∧ char.toNat ≠ 0x5C := by
    refine ⟨?_, ?_, ?_⟩ <;> intro code <;> simp [isSpace, code] at white
  by_cases blank : char.toNat ∈ [0x20, 0x09, 0x0D, 0x0A]
  · exact .inl (if_pos blank)
  · right
    simp only [kindOf, if_neg blank, quotes, if_false]

variable {repr isWord}

theorem shellHandler_of_allowed {tool : ShellTool} {params environ : Dict Text Text}
    (allowed : ∀ message, tool.shellHandler repr isWord params environ ≠ .blocked message) :
    tool.shellHandler repr isWord params environ =
      ((split kindOf (resolved (tool.slots isWord params environ))).map
        (Reply.run · tool.workingDir)).getD .unsplit := by
  rw [← interpolate_eq_resolved]
  unfold shellHandler at allowed ⊢
  cases checked : checkParams repr params with
  | some message => simp [checked] at allowed
  | none =>
      simp only [checked] at allowed ⊢
      generalize interpolateVariables isWord tool.command params environ ∅ = resolvedCmd at *
      cases checkedCommand : tool.checkCommand repr resolvedCmd with
      | some message => simp [checkedCommand] at allowed
      | none => cases split kindOf resolvedCmd <;> rfl

theorem source_environment_iff (params environ : Dict Text Text) (key : Text) :
    (replacer params environ ∅ key).1 = .environment ↔
      params.get? key = none ∧ (environ.get? key).isSome := by
  have context : (contextKey key).bind (∅ : Dict Text Text).get? = none := by
    cases contextKey key <;> rfl
  unfold replacer
  rw [context]
  cases params.get? key with
  | some value => simp
  | none => cases environ.get? key <;> simp

theorem split_zipIdx (line : Text) :
    split kindOf line =
      (split (kindOf ∘ Prod.fst) line.zipIdx).map (List.map (List.map Prod.fst)) := by
  rw [← split_map, List.zipIdx_map_fst]

theorem opens_iff {tool : ShellTool} {params environ : Dict Text Text}
    (texts : inert kindOf (tool.slots isWord params environ) = true) {argv : List Text}
    (splits : split kindOf (resolved (tool.slots isWord params environ)) = some argv) :
    argv.head? =
        some (firstWordOf (interpolateVariables isWord tool.command params environ ∅)) ↔
      opens kindOf isSpace false (tool.slots isWord params environ) = true := by
  rw [interpolate_eq_resolved, firstWordOf_eq,
    opens_eq_leads (.inl ⟨.inl rfl, rfl⟩) texts]
  exact head_iff isSpace_of_blank kindOf_of_isSpace splits

/-- A tool whose command is not blocked runs what its template says if and only if the values stay
inside their words, the template opens with a plain word, and only variables on the whitelist are
substituted. -/
theorem runs_template_iff (tool : ShellTool) (params environ : Dict Text Text)
    (allowed : ∀ message, tool.shellHandler repr isWord params environ ≠ .blocked message) :
    tool.RunsTemplate repr isWord params environ ↔ tool.KeepsWords isWord params environ := by
  have handles := shellHandler_of_allowed allowed
  have numbered := split_numbered_iff kindOf (tool.slots isWord params environ)
  constructor
  · intro runs
    obtain ⟨argv, handled, splits, fills⟩ := runs.arguments
    rw [interpolate_eq_resolved] at splits
    have texts : inert kindOf (tool.slots isWord params environ) = true := by
      apply numbered.mp
      rw [splits, fills]
      exact ⟨rfl, rfl⟩
    have plain : split kindOf (resolved (tool.slots isWord params environ)) =
        some (argv.map (List.map Prod.fst)) := by
      rw [split_zipIdx, splits]
      rfl
    obtain ⟨words, handledWords, heads⟩ := runs.program
    have same : argv.map (List.map Prod.fst) = words := by
      simpa using handled.symm.trans handledWords
    rw [← same] at heads
    refine ⟨texts, (opens_iff texts plain).mp heads, ?_⟩
    intro key member absent present
    exact runs.environment key member ((source_environment_iff params environ key).mpr
      ⟨absent, present⟩)
  · intro keeps
    obtain ⟨alike, isSome⟩ := numbered.mpr keeps.texts
    obtain ⟨argv, splits⟩ := Option.isSome_iff_exists.mp isSome
    have plain : split kindOf (resolved (tool.slots isWord params environ)) =
        some (argv.map (List.map Prod.fst)) := by
      rw [split_zipIdx, splits]
      rfl
    rw [plain] at handles
    refine ⟨⟨argv, handles, ?_, alike.symm.trans splits⟩,
      ⟨_, handles, (opens_iff keeps.texts plain).mpr keeps.program⟩, ?_⟩
    · rw [interpolate_eq_resolved]
      exact splits
    · intro key member source
      have substituted := (source_environment_iff params environ key).mp source
      exact keeps.environment key member substituted.1 substituted.2

theorem RunsTemplate.argv {tool : ShellTool} {params environ : Dict Text Text}
    (runs : tool.RunsTemplate repr isWord params environ) :
    ∃ argv, tool.shellHandler repr isWord params environ = .run argv tool.workingDir ∧
      filled kindOf (tool.slots isWord params environ) = some argv := by
  obtain ⟨argv, handled, _, fills⟩ := runs.arguments
  refine ⟨argv.map (List.map Prod.fst), handled, ?_⟩
  rw [← map_numberFrom 0 (tool.slots isWord params environ), filled_map, fills]
  rfl

/-! ### Two tools -/

def asciiWord (char : Char) : Bool := char.isAlphanum || char = '_'

def quoted (text : Text) : String := "'" ++ String.ofList text ++ "'"

def plainRepr : PyRepr where
  text := quoted
  list texts := "[" ++ ", ".intercalate (texts.map quoted) ++ "]"

/-- `ls '{{path}}' {{HOME}}` -/
def listing : ShellTool where
  command := "ls '\x7b\x7bpath\x7d\x7d' \x7b\x7bHOME\x7d\x7d".toList
  allowedCommands := ["ls".toList]
  envWhitelist := ["HOME".toList]

/-- `cat {{file}}` -/
def reading : ShellTool where
  command := "cat \x7b\x7bfile\x7d\x7d".toList
  allowedCommands := ["cat".toList]

def notes : Dict Text Text := Dict.ofList [("path".toList, "my notes".toList)]

def home : Dict Text Text := Dict.ofList [("HOME".toList, "/root".toList)]

theorem runs_listing : listing.RunsTemplate plainRepr asciiWord notes home := by
  have answers : listing.shellHandler plainRepr asciiWord notes home =
      .run ["ls".toList, "my notes".toList, "/root".toList] "/tmp".toList := by
    decide +kernel
  have allowed : ∀ message,
      listing.shellHandler plainRepr asciiWord notes home ≠ .blocked message := by
    intro message
    rw [answers]
    exact Reply.noConfusion
  apply (runs_template_iff listing notes home allowed).mpr
  exact ⟨by decide +kernel, by decide +kernel, by decide +kernel⟩

/-- The value `a b` of `file` becomes two arguments. -/
theorem value_adds_argument :
    ¬ ∀ (tool : ShellTool) (params environ : Dict Text Text),
      (∀ message, tool.shellHandler plainRepr asciiWord params environ ≠ .blocked message) →
        tool.RunsTemplate plainRepr asciiWord params environ := by
  intro claim
  have answers : reading.shellHandler plainRepr asciiWord
      (Dict.ofList [("file".toList, "a b".toList)]) ∅ =
        .run ["cat".toList, "a".toList, "b".toList] "/tmp".toList := by
    decide +kernel
  have runs := claim reading (Dict.ofList [("file".toList, "a b".toList)]) ∅ (by
    rw [answers]
    exact fun _ => Reply.noConfusion)
  obtain ⟨argv, handled, fills⟩ := runs.argv
  rw [answers] at handled
  have given : argv = ["cat".toList, "a".toList, "b".toList] := by
    injection handled with words
    exact words.symm
  rw [given] at fills
  exact absurd fills (by decide +kernel)

end ShellTool

end RagSystem.Tools
