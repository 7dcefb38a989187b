import RagSystem.Core.Services

/-! From ranked chunks to the context of a prompt: deduplication, reordering, the token budget and
compression (`proxy/app/core/context/builder.py`, `proxy/app/core/token_optimizer.py`). -/

namespace RagSystem.Core

open AccessControl

/-- A chunk dict: its own keys, and the payload under its `payload` key if it has one. -/
structure ChunkDict where
  own : ChunkPayload
  payload : Option ChunkPayload := none
  deriving DecidableEq, Repr

namespace ChunkDict

/-- What `filter_chunks` reads of it. -/
def view (chunk : ChunkDict) : View :=
  { own := chunk.own.access, payload := (chunk.payload.getD {}).access }

def text (chunk : ChunkDict) : String := chunk.own.text.getD ""

end ChunkDict

abbrev Ranked := ChunkDict × ℚ

structure Context where
  chunks : List ChunkDict := []
  text : String := ""
  deriving DecidableEq, Repr

variable (helpers : Helpers) (config : Config)

/-! Deduplication and order. -/

def computeChunkHash (chunk : ChunkDict) : String :=
  helpers.sha256 ("|".intercalate [chunk.text, chunk.own.sourceType.getD "",
    chunk.own.sourceId.getD "", chunk.own.access.version.getD "", chunk.own.docTitle.getD ""])

/-- The loop of `deduplicate_chunks`: the first chunk of each hash stays. -/
def unseen : (seen : List String) → List Ranked → List Ranked
  | _, [] => []
  | seen, ranked :: rest =>
      let hash := computeChunkHash helpers ranked.1
      if hash ∈ seen then unseen seen rest else ranked :: unseen (hash :: seen) rest

def deduplicateChunks (chunks : List Ranked) : List Ranked := unseen helpers [] chunks

def alternate {α : Type} : List α → List α × List α
  | [] => ([], [])
  | [single] => ([single], [])
  | first :: second :: rest =>
      let (even, odd) := alternate rest
      (first :: even, second :: odd)

/-- `reorder_chunks`: the best chunks at both ends. -/
def reorderChunks (chunks : List Ranked) : List Ranked :=
  if chunks.length ≤ 2 then chunks
  else
    let (high, low) := alternate (sortDescending Prod.snd chunks)
    high ++ low.reverse

/-! The token budget and compression. -/

def estimateTokens (text : String) : Nat := text.length / 4

/-- `estimate_token_cost`: the words count for six tenths, a quarter of the length for four. -/
def estimateTokenCost (text : String) : Nat :=
  let characters := max 1 (text.length / 4)
  let tokens := (runsOf helpers.isWord text).length +
    (text.toList.filter (fun char => !helpers.isWord char && !helpers.isSpace char)).length
  let words := max 1 (tokens * 13 / 10)
  if text = "" then 0 else max 1 ((characters * 4 + words * 6) / 10)

/-- The `context_total` of `smart_token_budget`. -/
def contextTotal (availableTokens : Nat) : Nat :=
  let systemPrompt := min 2000 (availableTokens / 10)
  let response := min 4096 (availableTokens / 5)
  let history := min 8000 (availableTokens / 6)
  if availableTokens < 1000 then max 100 (availableTokens * 3 / 5)
  else if availableTokens < systemPrompt + response + history then
    max 100 (availableTokens * 2 / 3)
  else availableTokens - systemPrompt - response - history

/-- The detail of `_compress_hierarchical`: less for the chunks further down. -/
def segmentOf (index : Nat) (text : String) : String :=
  if index < 3 then text
  else if index < 8 then " ".intercalate ((sentencesOf text).take 3)
  else (sentencesOf text).headD (clip 200 text)

def hierarchicalParts (maxTokens : Nat) :
    (index used : Nat) → List ChunkDict → List (ChunkDict × String)
  | _, _, [] => []
  | index, used, chunk :: rest =>
      let text := stripText chunk.text
      let segment := segmentOf index text
      let cost := estimateTokenCost helpers segment
      if text = "" then hierarchicalParts maxTokens (index + 1) used rest
      else if maxTokens < used + cost then
        if 50 < maxTokens - used then [(chunk, clip ((maxTokens - used) * 4) segment)] else []
      else (chunk, segment) :: hierarchicalParts maxTokens (index + 1) (used + cost) rest

/-- `compress_context` with the hierarchical strategy. -/
def compressContext (chunks : List ChunkDict) (maxTokens : Nat) : Context :=
  let parts := hierarchicalParts helpers maxTokens 0 0 chunks
  { chunks := parts.map Prod.fst, text := "\n\n".intercalate (parts.map Prod.snd) }

/-- `extractive_compress`: the sentences of each text with the most words of the query. -/
def extractiveCompress (texts : List String) (query : String) (maxSentences : Nat) : String :=
  let keywords := (runsOf helpers.isWord (helpers.lower query)).dedup
  let overlap (sentence : String) : ℚ :=
    ((keywords.filter (· ∈ runsOf helpers.isWord (helpers.lower sentence))).length : ℚ) /
      keywords.length
  if query = "" ∨ keywords = [] then "\n\n".intercalate texts
  else
    "\n\n".intercalate ((texts.filter (fun text => stripText text ≠ "")).map (fun text =>
      let sentences := sentencesOf text
      if sentences.length ≤ maxSentences then stripText text
      else " ".intercalate ((sortDescending overlap sentences).take maxSentences)))

/-! The context. -/

def headerOf (ranked : Ranked) : String :=
  let chunk := ranked.1.own
  "[" ++ chunk.sourceType.getD "unknown" ++ "] " ++ chunk.docTitle.getD "" ++ " / " ++
    chunk.title.getD "" ++ " (v" ++ chunk.access.version.getD "latest" ++ ") [rel=" ++
    helpers.fixed 3 ranked.2 ++ "]\n"

/-- The loop of `build_context`: the context, and the tokens it counted. -/
def assemble (maxTokens : Nat) : (total : Nat) → List Ranked → Context × Nat
  | total, [] => ({}, total)
  | total, ranked :: rest =>
      let text := stripText ranked.1.text
      let header := headerOf helpers ranked
      let part := header ++ text ++ "\n\n"
      let remaining := maxTokens - total
      if text = "" then assemble maxTokens total rest
      else if maxTokens < total + estimateTokens part then
        if 50 < remaining then
          ({ chunks := [ranked.1], text := header ++ clip (remaining * 4) text ++ "...\n\n" }, total)
        else ({}, total)
      else
        let (context, counted) := assemble maxTokens (total + estimateTokens part) rest
        ({ chunks := ranked.1 :: context.chunks, text := part ++ context.text }, counted)

/-- The order in which `build_context` takes the chunks. -/
def orderChunks (chunks : List Ranked) : List Ranked :=
  sortDescending Prod.snd (if config.reorderEnabled then reorderChunks chunks else chunks)

def buildContext (chunks : List Ranked) (maxTokens : Nat) : Context :=
  let ordered := orderChunks config chunks
  let (context, total) := assemble helpers maxTokens 0 ordered
  if config.tokenOptimizerEnabled ∧ maxTokens < total then
    let compressed := compressContext helpers (ordered.map Prod.fst) maxTokens
    if compressed.text = "" then context else compressed
  else context

/-- The list that `build_context` was given, afterwards: it is sorted in place unless it was
reordered into a new one. -/
def afterBuild (chunks : List Ranked) : List Ranked :=
  if config.reorderEnabled then chunks else sortDescending Prod.snd chunks

section Membership

variable {helpers config} {chunks : List Ranked} {ranked : Ranked} {chunk : ChunkDict}

theorem mem_of_mem_unseen {seen : List String} (member : ranked ∈ unseen helpers seen chunks) :
    ranked ∈ chunks := by
  induction chunks generalizing seen with
  | nil => simp [unseen] at member
  | cons first rest ih =>
      simp only [unseen] at member
      split at member
      · exact List.mem_cons_of_mem first (ih member)
      · rcases List.mem_cons.mp member with rfl | later
        · exact List.mem_cons_self
        · exact List.mem_cons_of_mem first (ih later)

theorem mem_of_mem_deduplicateChunks (member : ranked ∈ deduplicateChunks helpers chunks) :
    ranked ∈ chunks := mem_of_mem_unseen member

theorem deduplicateChunks_singleton (ranked : Ranked) :
    deduplicateChunks helpers [ranked] = [ranked] := by
  simp [deduplicateChunks, unseen]

theorem mem_of_mem_alternate {α : Type} {items : List α} {item : α}
    (member : item ∈ (alternate items).1 ∨ item ∈ (alternate items).2) : item ∈ items := by
  induction items using alternate.induct with
  | case1 => simp [alternate] at member
  | case2 single => simpa [alternate] using member
  | case3 first second rest even odd split ih =>
      simp only [alternate, List.mem_cons] at member ⊢
      rcases member with (rfl | even) | (rfl | odd)
      · exact Or.inl rfl
      · exact Or.inr (Or.inr (ih (Or.inl even)))
      · exact Or.inr (Or.inl rfl)
      · exact Or.inr (Or.inr (ih (Or.inr odd)))

theorem mem_of_mem_reorderChunks (member : ranked ∈ reorderChunks chunks) : ranked ∈ chunks := by
  unfold reorderChunks at member
  split at member
  · exact member
  · have ordered : ranked ∈ sortDescending Prod.snd chunks := by
      apply mem_of_mem_alternate
      simpa using member
    exact mem_sortDescending.mp ordered

theorem mem_of_mem_orderChunks (member : ranked ∈ orderChunks config chunks) : ranked ∈ chunks := by
  have ordered := mem_sortDescending.mp member
  split at ordered
  · exact mem_of_mem_reorderChunks ordered
  · exact ordered

theorem mem_of_mem_afterBuild (member : ranked ∈ afterBuild config chunks) : ranked ∈ chunks := by
  unfold afterBuild at member
  split at member
  · exact member
  · exact mem_sortDescending.mp member

theorem mem_of_mem_hierarchicalParts {maxTokens index used : Nat} {sources : List ChunkDict}
    {part : ChunkDict × String} (member : part ∈ hierarchicalParts helpers maxTokens index used
      sources) : part.1 ∈ sources := by
  induction sources generalizing index used with
  | nil => simp [hierarchicalParts] at member
  | cons first rest ih =>
      simp only [hierarchicalParts] at member
      split at member
      · exact List.mem_cons_of_mem first (ih member)
      split at member
      · split at member
        · obtain rfl := List.mem_singleton.mp member
          exact List.mem_cons_self
        · simp at member
      · rcases List.mem_cons.mp member with rfl | later
        · exact List.mem_cons_self
        · exact List.mem_cons_of_mem first (ih later)

theorem mem_of_mem_compressContext {maxTokens : Nat} {sources : List ChunkDict}
    (member : chunk ∈ (compressContext helpers sources maxTokens).chunks) : chunk ∈ sources := by
  obtain ⟨part, inside, rfl⟩ := List.mem_map.mp member
  exact mem_of_mem_hierarchicalParts inside

theorem mem_of_mem_assemble {maxTokens total : Nat}
    (member : chunk ∈ (assemble helpers maxTokens total chunks).1.chunks) :
    chunk ∈ chunks.map Prod.fst := by
  induction chunks generalizing total with
  | nil => simp [assemble] at member
  | cons first rest ih =>
      simp only [assemble] at member
      split at member
      · exact List.mem_cons_of_mem first.1 (ih member)
      split at member
      · split at member
        · obtain rfl := List.mem_singleton.mp member
          exact List.mem_cons_self
        · simp at member
      · rcases List.mem_cons.mp member with rfl | later
        · exact List.mem_cons_self
        · exact List.mem_cons_of_mem first.1 (ih later)

theorem mem_of_mem_buildContext {maxTokens : Nat}
    (member : chunk ∈ (buildContext helpers config chunks maxTokens).chunks) :
    ∃ score, (chunk, score) ∈ chunks := by
  have inside : chunk ∈ (orderChunks config chunks).map Prod.fst := by
    simp only [buildContext] at member
    split at member
    · split at member
      · exact mem_of_mem_assemble member
      · exact mem_of_mem_compressContext member
    · exact mem_of_mem_assemble member
  obtain ⟨source, found, rfl⟩ := List.mem_map.mp inside
  exact ⟨source.2, mem_of_mem_orderChunks found⟩

end Membership

end RagSystem.Core
