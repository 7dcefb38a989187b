import Mathlib.Data.List.Sublists

/-! Trees of elements and strings, and the searches below an element. -/

namespace HtmlTree

inductive Node
  | text (words : List Char)
  | tag (name : String) (children : List Node)

/-- A name and what stands below it. -/
abbrev Element := String × List Node

mutual

/-- The element itself, if it is one, and those in it, in document order. -/
def tags : Node → List Element
  | .text _ => []
  | .tag name children => (name, children) :: tagsIn children

def tagsIn : List Node → List Element
  | [] => []
  | node :: rest => tags node ++ tagsIn rest

end

mutual

def strings : Node → List (List Char)
  | .text words => [words]
  | .tag _ children => stringsIn children

def stringsIn : List Node → List (List Char)
  | [] => []
  | node :: rest => strings node ++ stringsIn rest

end

/-- `element.find_all(names)` -/
def findAll (names : List String) (element : Element) : List Element :=
  (tagsIn element.2).filter (fun inner => inner.1 ∈ names)

/-- `element.find(name)` -/
def find (name : String) (element : Element) : Option Element := (findAll [name] element).head?

mutual

theorem tagsIn_sublist_tags : ∀ {node : Node} {inner : Element}, inner ∈ tags node →
    (tagsIn inner.2).Sublist (tags node)
  | .text _, _, member => nomatch member
  | .tag name children, inner, member => by
      rw [tags] at member ⊢
      rcases List.mem_cons.mp member with rfl | inside
      · exact List.sublist_cons_self _ _
      · exact (tagsIn_sublist_tagsIn inside).trans (List.sublist_cons_self _ _)

theorem tagsIn_sublist_tagsIn : ∀ {nodes : List Node} {inner : Element}, inner ∈ tagsIn nodes →
    (tagsIn inner.2).Sublist (tagsIn nodes)
  | [], _, member => nomatch member
  | node :: rest, inner, member => by
      rw [tagsIn] at member ⊢
      rcases List.mem_append.mp member with here | later
      · exact (tagsIn_sublist_tags here).trans (List.sublist_append_left _ _)
      · exact (tagsIn_sublist_tagsIn later).trans (List.sublist_append_right _ _)

end

theorem findAll_sublist_of_find {name : String} {element inner : Element}
    (found : find name element = some inner) (names : List String) :
    (findAll names inner).Sublist (findAll names element) :=
  (tagsIn_sublist_tagsIn (List.mem_filter.mp (List.mem_of_head? found)).1).filter _

end HtmlTree
