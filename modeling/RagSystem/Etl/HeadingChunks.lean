import RagSystem.Etl.HeadingForest

/-! The sub-headings that the heading chunks of a page list. -/

namespace RagSystem.Etl.HeadingChunks

open HeadingForest

/-- The `child_headings` of a heading chunk. -/
def childHeadings (chunk : Chunk) : List String :=
  match chunk.parentMetadata with
  | .heading _ _ _ _ _ titles => titles
  | _ => []

def subheadings (headings : List Heading) (place : Nat) : List String :=
  (Outline.belowPlace Heading.level headings place).map Heading.text

def isNamed (text : String) (level : Nat) (entry : HeadingEntry) : Bool :=
  entry.text = text ∧ entry.level = level

theorem roots_outlineOf : ∀ nodes : List HeadingNode,
    (outlineOf nodes).roots = nodes.map (fun node => entryOf node.heading)
  | [] => rfl
  | .node own children :: rest => by
      rw [outlineOf, nodeOutline, Outline.roots, roots_outlineOf rest]
      rfl

theorem findNodeInTree_outlineOf (text : String) (level : Nat) : ∀ nodes : List HeadingNode,
    (findNodeInTree text level nodes).map (fun node => (outlineOf node.children).roots) =
      (outlineOf nodes).childrenOf (isNamed text level)
  | [] => by simp [findNodeInTree, outlineOf, Outline.childrenOf]
  | .node own children :: rest => by
      have under := findNodeInTree_outlineOf text level children
      have after := findNodeInTree_outlineOf text level rest
      have same : isNamed text level (entryOf own) = true ↔
          own.text = text ∧ own.level = level := by
        rw [isNamed, decide_eq_true_iff, entryOf]
        exact and_congr Iff.rfl Int.ofNat_inj
      rw [findNodeInTree, HeadingNode.find, outlineOf, nodeOutline, Outline.childrenOf]
      by_cases found : own.text = text ∧ own.level = level
      · rw [if_pos found, if_pos (same.mpr found)]
        rfl
      · rw [if_neg found, if_neg (fun named => found (same.mp named)), ← under, ← after]
        cases findNodeInTree text level children <;> rfl

theorem nearestFrom_entryOf (start bound : Nat) (headings : List Heading) :
    Outline.nearestFrom HeadingEntry.level start (bound : Int) (headings.map entryOf) =
      Outline.nearestFrom Heading.level start bound headings := by
  induction headings generalizing start with
  | nil => rfl
  | cons heading rest ih =>
      have levels : (entryOf heading).level < (bound : Int) ↔ heading.level < bound := by
        simp [entryOf]
      simp only [List.map_cons, Outline.nearestFrom, ih, levels]

theorem belowPlace_entryOf (headings : List Heading) (place : Nat) :
    Outline.belowPlace HeadingEntry.level (headings.map entryOf) place =
      (Outline.belowPlace Heading.level headings place).map entryOf := by
  have parent (item : Heading × Nat) :
      Outline.nearest HeadingEntry.level ((headings.map entryOf).take item.2) (entryOf item.1) =
        Outline.nearest Heading.level (headings.take item.2) item.1 := by
    rw [Outline.nearest, Outline.nearest, ← List.map_take]
    exact nearestFrom_entryOf 0 item.1.level (headings.take item.2)
  rw [Outline.belowPlace, Outline.belowPlace, List.zipIdx_map, List.filter_map, List.map_map,
    List.map_map]
  simp only [Function.comp_def, Prod.map_fst, Prod.map_snd, id_eq, parent]

def firstNamed (headings : List Heading) (text : String) (level : Nat) : Option Nat :=
  (headings.map entryOf).findIdx? (isNamed text level)

section Chunks

variable {chunker : SemanticChunker} {libraries : Libraries} {html : String}
  {metadata : SourceMetadata}

theorem childHeadings_headingChunk (headings : List Heading) (position : Nat) (heading : Heading) :
    childHeadings (headingChunk chunker libraries metadata (Etl.buildHeadingTree headings) position
      heading) =
      ((firstNamed headings heading.text heading.level).map (subheadings headings)).getD [] := by
  have found := findNodeInTree_outlineOf heading.text heading.level
    (Etl.buildHeadingTree headings)
  rw [outlineOf_buildHeadingTree, buildHeadingTree_eq, Outline.childrenOf_ofLabels] at found
  have listed : childHeadings (headingChunk chunker libraries metadata
      (Etl.buildHeadingTree headings) position heading) =
      (((findNodeInTree heading.text heading.level (Etl.buildHeadingTree headings)).map
        HeadingNode.children).getD []).map (fun child => child.heading.text) := rfl
  have titles (place : Nat) : subheadings headings place =
      (Outline.belowPlace HeadingEntry.level (headings.map entryOf) place).map
        HeadingEntry.text := by
    rw [belowPlace_entryOf, List.map_map]
    rfl
  rw [listed, firstNamed]
  cases result : findNodeInTree heading.text heading.level (Etl.buildHeadingTree headings) with
  | none =>
      rw [result] at found
      rw [Option.map_eq_none_iff.mp found.symm]
      rfl
  | some node =>
      rw [result] at found
      obtain ⟨place, first, children⟩ := Option.map_eq_some_iff.mp found.symm
      simp only [roots_outlineOf] at children
      rw [first, Option.map_some, Option.map_some, Option.getD_some, Option.getD_some, titles,
        children, List.map_map]
      rfl

theorem firstNamed_spec {headings : List Heading} {place : Nat} {heading : Heading}
    (found : headings[place]? = some heading) :
    ∃ first earliest, firstNamed headings heading.text heading.level = some first ∧
      headings[first]? = some earliest ∧ earliest.text = heading.text ∧
      earliest.level = heading.level := by
  cases result : firstNamed headings heading.text heading.level with
  | none =>
      have unnamed := List.findIdx?_eq_none_iff.mp result (entryOf heading)
        (List.mem_map_of_mem (List.mem_of_getElem? found))
      simp [isNamed, entryOf] at unnamed
  | some first =>
      obtain ⟨inside, named, -⟩ := List.findIdx?_eq_some_iff_getElem.mp result
      rw [List.length_map] at inside
      rw [List.getElem_map, isNamed, decide_eq_true_iff] at named
      exact ⟨first, headings[first], rfl, List.getElem?_eq_getElem inside, named.1,
        Int.ofNat_inj.mp named.2⟩

/-- Every chunk lists the titles of the headings directly below its own. -/
def DescribesOwnSections (chunker : SemanticChunker) (libraries : Libraries) (html : String)
    (metadata : SourceMetadata) : Prop :=
  ∀ place chunk, (createHeadingChunks chunker libraries html metadata)[place]? = some chunk →
    childHeadings chunk = subheadings (extractHeadings libraries html) place

/-- Headings of the same text and level have the same titles directly below them. -/
def SameSubheadings (headings : List Heading) : Prop :=
  ∀ first second heading other, headings[first]? = some heading →
    headings[second]? = some other → heading.text = other.text → heading.level = other.level →
    subheadings headings first = subheadings headings second

theorem childHeadings_createHeadingChunks (chunker : SemanticChunker)
    (metadata : SourceMetadata) {place : Nat} {heading : Heading}
    (found : (extractHeadings libraries html)[place]? = some heading) :
    ∃ chunk, (createHeadingChunks chunker libraries html metadata)[place]? = some chunk ∧
      childHeadings chunk =
        ((firstNamed (extractHeadings libraries html) heading.text heading.level).map
          (subheadings (extractHeadings libraries html))).getD [] := by
  refine ⟨headingChunk chunker libraries metadata
    (Etl.buildHeadingTree (extractHeadings libraries html)) place heading, ?_,
    childHeadings_headingChunk _ place heading⟩
  rw [createHeadingChunks, List.getElem?_map, List.getElem?_zipIdx, found]
  simp

theorem describesOwnSections_iff (chunker : SemanticChunker) (libraries : Libraries)
    (html : String) (metadata : SourceMetadata) :
    DescribesOwnSections chunker libraries html metadata ↔
      SameSubheadings (extractHeadings libraries html) := by
  constructor
  · intro describes first second heading other one another texts levels
    obtain ⟨chunk, placed, listed⟩ := childHeadings_createHeadingChunks chunker metadata one
    obtain ⟨later, laterPlaced, laterListed⟩ :=
      childHeadings_createHeadingChunks chunker metadata another
    rw [describes first chunk placed] at listed
    rw [describes second later laterPlaced, ← texts, ← levels] at laterListed
    exact listed.trans laterListed.symm
  · intro same place chunk placed
    cases found : (extractHeadings libraries html)[place]? with
    | none =>
        rw [createHeadingChunks, List.getElem?_map, List.getElem?_zipIdx, found] at placed
        cases placed
    | some heading =>
        obtain ⟨made, madePlaced, listed⟩ :=
          childHeadings_createHeadingChunks chunker metadata found
        obtain rfl := Option.some.inj (placed.symm.trans madePlaced)
        obtain ⟨first, earliest, named, atFirst, texts, levels⟩ := firstNamed_spec found
        rw [listed, named]
        exact same first place earliest heading atFirst found texts levels

end Chunks

def repeatedPage : Libraries where
  sha256 := id
  markdown := none
  markdownify := none
  beautifulSoup := some (fun _ => [.heading ⟨"Server", 1, ""⟩, .heading ⟨"Setup", 2, ""⟩,
    .heading ⟨"Racks", 3, ""⟩, .heading ⟨"Client", 1, ""⟩, .heading ⟨"Setup", 2, ""⟩,
    .heading ⟨"Cables", 3, ""⟩])

def lengthChunker : SemanticChunker where
  estimateTokens := String.length

theorem describesOwnSections_fails :
    ((createHeadingChunks lengthChunker repeatedPage "" {})[4]?.map
        childHeadings) = some ["Racks"] ∧
      subheadings (extractHeadings repeatedPage "") 4 = ["Cables"] ∧
      ¬ DescribesOwnSections lengthChunker repeatedPage "" {} := by
  have listed : ((createHeadingChunks lengthChunker repeatedPage "" {})[4]?.map
        childHeadings) = some ["Racks"] := by
    decide +kernel
  have own : subheadings (extractHeadings repeatedPage "") 4 = ["Cables"] := by decide +kernel
  refine ⟨listed, own, ?_⟩
  intro describes
  obtain ⟨chunk, placed, titles⟩ := Option.map_eq_some_iff.mp listed
  rw [describes 4 chunk placed, own] at titles
  exact absurd titles (by decide)

end RagSystem.Etl.HeadingChunks
