import Mathlib.Data.List.Basic

/-! The chunk record that the chunkers emit and the indexer stores. -/

namespace RagSystem.Etl

/-- `parent_metadata`, by the function that fills it. -/
inductive ParentMetadata
  | empty
  | inherited (title : String) (keywords entities : List String)
  | heading (text : String) (level : Int) (anchorId pageId pageTitle : String)
      (childHeadings : List String)
  | document (pageId pageTitle firstLine : String)
  deriving DecidableEq, Repr

/-- `parent_metadata.get("title")`, empty when missing. -/
def ParentMetadata.title : ParentMetadata → String
  | .inherited title _ _ => title
  | _ => ""

structure Chunk where
  text : String
  hash : String
  title : String := ""
  summary : String := ""
  keywords : List String := []
  entities : List String := []
  hypotheticalQuestions : List String := []
  semanticKey : String := ""
  sourceType : String := ""
  sourceId : String := ""
  version : String := ""
  docTitle : String := ""
  parentMetadata : ParentMetadata := .empty
  position : Int := 0
  tokensApprox : Nat := 0
  originalText : String := ""
  enriched : Bool := false
  accessLevel : String := "public"
  allowedGroups : List String := []
  allowedUsers : List String := []
  createdAt : String := ""
  updatedAt : String := ""
  deriving DecidableEq, Repr

end RagSystem.Etl
