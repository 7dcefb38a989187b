import Mathlib.Data.Int.Order.Basic
import Mathlib.Data.List.TakeWhile
import RagSystem.Data.Outline
import RagSystem.Etl.SemanticChunker

/-! `_build_heading_tree` (`etl/chunker/semantic_chunker.py`) with the dictionaries that its stack
and the nodes already emitted share. -/

namespace RagSystem.Etl.HeadingForest

structure HeadingEntry where
  text : String
  level : Int
  anchorId : String
  deriving DecidableEq, Repr

/-- The dictionary of a node. Its children are references to dictionaries. -/
structure Node where
  entry : HeadingEntry
  children : List Nat := []
  deriving DecidableEq, Repr

/-- The dictionaries made so far, each at the place of its reference, with the variables of the
loop; the top of the stack comes first. -/
structure Build where
  nodes : List Node := []
  root : List Nat := []
  stack : List Nat := []
  deriving DecidableEq, Repr

/-- `stack[-1]["level"] >= h["level"]` -/
def notBelow (nodes : List Node) (h : HeadingEntry) (reference : Nat) : Bool :=
  (nodes[reference]?).any (fun node => h.level ≤ node.entry.level)

def appendChild (child : Nat) (node : Node) : Node :=
  { node with children := node.children ++ [child] }

def addHeading (build : Build) (h : HeadingEntry) : Build :=
  let node := build.nodes.length
  match build.stack.dropWhile (notBelow build.nodes h) with
  | [] => ⟨build.nodes ++ [⟨h, []⟩], build.root ++ [node], [node]⟩
  | top :: rest =>
      ⟨build.nodes.modify top (appendChild node) ++ [⟨h, []⟩], build.root, node :: top :: rest⟩

def nested (nodes : List Node) : Nat → List Nat → Outline HeadingEntry
  | 0, _ => .nil
  | _, [] => .nil
  | fuel + 1, reference :: rest =>
      match nodes[reference]? with
      | none => .nil
      | some node => .cons node.entry (nested nodes fuel node.children) (nested nodes fuel rest)

/-- `_build_heading_tree`; as many nodes as were made are enough to read the result. -/
def buildHeadingTree (headings : List HeadingEntry) : Outline HeadingEntry :=
  let build := headings.foldl addHeading {}
  nested build.nodes build.nodes.length build.root

/-! ### The dictionaries of an outline -/

/-- The references of the outermost nodes, when the dictionaries stand in the order of the
traversal from place `start` on. -/
def references (start : Nat) : Outline HeadingEntry → List Nat
  | .nil => []
  | .cons _ children next => start :: references (start + 1 + children.size) next

def layout (start : Nat) : Outline HeadingEntry → List Node
  | .nil => []
  | .cons entry children next =>
      ⟨entry, references (start + 1) children⟩ ::
        (layout (start + 1) children ++ layout (start + 1 + children.size) next)

def spine (start : Nat) : Outline HeadingEntry → List Nat
  | .nil => []
  | .cons _ children .nil => spine (start + 1) children ++ [start]
  | .cons _ children (.cons entry below next) =>
      spine (start + 1 + children.size) (.cons entry below next)

def Build.ofOutline (outline : Outline HeadingEntry) : Build :=
  ⟨layout 0 outline, references 0 outline, spine 0 outline⟩

theorem length_layout (start : Nat) (outline : Outline HeadingEntry) :
    (layout start outline).length = outline.size := by
  induction outline generalizing start with
  | nil => rfl
  | cons entry children next under after => simp [layout, Outline.size, under, after]

theorem nested_layout (before after : List Node) (outline : Outline HeadingEntry) {fuel : Nat}
    (enough : outline.size ≤ fuel) :
    nested (before ++ layout before.length outline ++ after) fuel
      (references before.length outline) = outline := by
  induction outline generalizing before after fuel with
  | nil => cases fuel <;> rfl
  | cons entry children next under later =>
      rw [Outline.size] at enough
      obtain ⟨fuel, rfl⟩ : ∃ less, fuel = less + 1 := ⟨fuel - 1, by omega⟩
      have own : (before ++ layout before.length (.cons entry children next) ++
          after)[before.length]? = some ⟨entry, references (before.length + 1) children⟩ := by
        simp [layout]
      have enoughUnder : children.size ≤ fuel := by omega
      have enoughLater : next.size ≤ fuel := by omega
      have inner := under (before ++ [⟨entry, references (before.length + 1) children⟩])
        (layout (before.length + 1 + children.size) next ++ after) enoughUnder
      have outer := later (before ++ ⟨entry, references (before.length + 1) children⟩ ::
        layout (before.length + 1) children) after enoughLater
      have place : (before ++ ⟨entry, references (before.length + 1) children⟩ ::
          layout (before.length + 1) children).length = before.length + 1 + children.size := by
        simp only [List.length_append, List.length_cons, length_layout]
        omega
      rw [place] at outer
      rw [references, nested, own]
      simp only [List.length_append, List.length_singleton, List.append_assoc, List.cons_append,
        List.nil_append] at inner outer
      simp only [layout, List.append_assoc, List.cons_append, inner, outer]

/-! ### One heading -/

theorem spine_node (before : List Node) (outline : Outline HeadingEntry) {reference : Nat}
    (member : reference ∈ spine before.length outline) :
    ∃ node, (before ++ layout before.length outline)[reference]? = some node ∧
      node.entry ∈ outline.preorder := by
  generalize placed : before.length = start at member
  fun_induction spine start outline generalizing before with
  | case1 => cases member
  | case2 start entry children under =>
      subst placed
      rcases List.mem_append.mp member with inside | isOwn
      · obtain ⟨node, found, known⟩ := under
          (before ++ [⟨entry, references (before.length + 1) children⟩]) (by simp) inside
        refine ⟨node, ?_, by simp [Outline.preorder, known]⟩
        simpa [layout] using found
      · obtain rfl := List.mem_singleton.mp isOwn
        exact ⟨⟨entry, _⟩, by simp [layout]; rfl, by simp [Outline.preorder]⟩
  | case3 start first children entry below next later =>
      subst placed
      obtain ⟨node, found, known⟩ := later
        (before ++ ⟨first, references (before.length + 1) children⟩ ::
          layout (before.length + 1) children)
        (by simp only [List.length_append, List.length_cons, length_layout]; omega) member
      refine ⟨node, ?_, ?_⟩
      · simpa [layout, length_layout, Nat.add_assoc] using found
      · rw [Outline.preorder]
        exact List.mem_cons_of_mem _ (List.mem_append_right _ known)

/-- What a new heading makes of the outline's dictionaries: it becomes the child of the first node
that the loop leaves on the stack, or stands in the outermost list. -/
structure Attached (before : List Node) (outline : Outline HeadingEntry) (h : HeadingEntry)
    (result : Outline HeadingEntry) (left : List Nat) : Prop where
  outermost : left = [] → layout before.length result = layout before.length outline ++ [⟨h, []⟩] ∧
    references before.length result =
      references before.length outline ++ [before.length + outline.size] ∧
    spine before.length result = [before.length + outline.size]
  under : ∀ top rest, left = top :: rest →
    before ++ layout before.length result =
      (before ++ layout before.length outline).modify top
        (appendChild (before.length + outline.size)) ++ [⟨h, []⟩] ∧
    references before.length result = references before.length outline ∧
    spine before.length result = (before.length + outline.size) :: top :: rest

theorem spine_next {start : Nat} (first : HeadingEntry) (children : Outline HeadingEntry)
    {next : Outline HeadingEntry} (more : next ≠ .nil) :
    spine start (.cons first children next) = spine (start + 1 + children.size) next := by
  cases next with
  | nil => contradiction
  | cons entry below later => rfl

theorem modify_append (before after : List Node) (node : Node) (change : Node → Node) :
    (before ++ node :: after).modify before.length change = before ++ change node :: after := by
  induction before with
  | nil => rfl
  | cons first rest ih => simp [ih]

theorem place_next (start : Nat) (first : HeadingEntry) (children next : Outline HeadingEntry) :
    start + (Outline.cons first children next).size =
      start + 1 + children.size + next.size := by
  simp only [Outline.size]
  omega

theorem attached_inside {before front : List Node} {last h : HeadingEntry}
    {children : Outline HeadingEntry} (deeper : last.level < h.level)
    (joined : before ++ [⟨last, references (before.length + 1) children⟩] = front)
    (inner : Attached front children h (Outline.insert HeadingEntry.level h children)
      ((spine front.length children).dropWhile
        (notBelow (front ++ layout front.length children) h))) :
    Attached before (.cons last children .nil) h
      (.cons last (Outline.insert HeadingEntry.level h children) .nil)
      ((spine before.length (.cons last children .nil)).dropWhile
        (notBelow (before ++ layout before.length (.cons last children .nil)) h)) := by
  have counted : front.length = before.length + 1 := by
    rw [← joined, List.length_append, List.length_singleton]
  have same : before ++ layout before.length (.cons last children .nil) =
      front ++ layout (before.length + 1) children := by simp [layout, ← joined]
  have stays : notBelow (before ++ layout before.length (.cons last children .nil)) h
      before.length = false := by
    simp [notBelow, layout, deeper]
  have kept : (spine before.length (.cons last children .nil)).dropWhile
      (notBelow (before ++ layout before.length (.cons last children .nil)) h) =
      (spine (before.length + 1) children).dropWhile
        (notBelow (before ++ layout before.length (.cons last children .nil)) h) ++
          [before.length] := by
    rw [spine, List.dropWhile_append, List.dropWhile_cons_of_neg (by simp [stays])]
    split
    · next nothing => rw [List.isEmpty_iff.mp nothing, List.nil_append]
    · rfl
  rw [kept, same]
  rw [counted] at inner
  generalize (spine (before.length + 1) children).dropWhile _ = left at inner ⊢
  refine ⟨by simp, ?_⟩
  intro top rest whole
  rw [place_next, Outline.size, Nat.add_zero]
  cases left with
  | nil =>
      obtain ⟨rfl, rfl⟩ := List.cons.inj whole
      obtain ⟨added, listed, ends⟩ := inner.outermost rfl
      rw [counted] at added listed ends
      refine ⟨?_, rfl, ?_⟩
      · simp only [layout, added, listed, List.append_nil, modify_append]
        simp [appendChild]
      · rw [spine, ends]
        rfl
  | cons deepest others =>
      obtain ⟨rfl, rfl⟩ := List.cons.inj whole
      obtain ⟨changed, listed, ends⟩ := inner.under _ _ rfl
      rw [counted, ← same] at changed
      rw [counted] at listed ends
      refine ⟨?_, rfl, ?_⟩
      · rw [← changed, layout, listed]
        simp [layout, ← joined]
      · rw [spine, ends]
        rfl

theorem attached_beside {before : List Node} {last h : HeadingEntry}
    {children : Outline HeadingEntry} (flat : ¬last.level < h.level)
    (layered : Outline.Layered HeadingEntry.level (.cons last children .nil)) :
    Attached before (.cons last children .nil) h (.cons last children (.cons h .nil .nil))
      ((spine before.length (.cons last children .nil)).dropWhile
        (notBelow (before ++ layout before.length (.cons last children .nil)) h)) := by
  have gone : (spine before.length (.cons last children .nil)).dropWhile
      (notBelow (before ++ layout before.length (.cons last children .nil)) h) = [] := by
    rw [List.dropWhile_eq_nil_iff]
    intro reference member
    obtain ⟨node, found, known⟩ := spine_node before _ member
    have high : h.level ≤ node.entry.level := by
      rw [Outline.preorder, Outline.preorder, List.append_nil] at known
      rcases List.mem_cons.mp known with same | inside
      · rw [same]
        exact not_lt.mp flat
      · exact (not_lt.mp flat).trans (layered.1 _ inside).le
    simp [notBelow, found, high]
  rw [gone]
  refine ⟨fun _ => ?_, by simp⟩
  rw [place_next, Outline.size, Nat.add_zero]
  exact ⟨by simp [layout, references], rfl, rfl⟩

theorem attached_after {before block : List Node} {first h : HeadingEntry}
    {children next : Outline HeadingEntry} (more : next ≠ .nil)
    (head : (⟨first, references (before.length + 1) children⟩ : Node) ::
      layout (before.length + 1) children = block)
    (rest : Attached (before ++ block) next h (Outline.insert HeadingEntry.level h next)
      ((spine (before ++ block).length next).dropWhile
        (notBelow (before ++ block ++ layout (before ++ block).length next) h))) :
    Attached before (.cons first children next) h
      (.cons first children (Outline.insert HeadingEntry.level h next))
      ((spine before.length (.cons first children next)).dropWhile
        (notBelow (before ++ layout before.length (.cons first children next)) h)) := by
  have counted : (before ++ block).length = before.length + 1 + children.size := by
    simp only [← head, List.length_append, List.length_cons, length_layout]
    omega
  have shifted (rest : Outline HeadingEntry) :
      before ++ layout before.length (.cons first children rest) =
        before ++ block ++ layout (before.length + 1 + children.size) rest := by
    simp [layout, ← head]
  rw [counted, ← shifted] at rest
  rw [spine_next _ _ more]
  constructor
  · intro none
    obtain ⟨added, listed, ends⟩ := rest.outermost none
    rw [counted] at added listed ends
    rw [place_next, spine_next _ _ (Outline.insert_ne_nil _ _ _)]
    refine ⟨?_, ?_, ends⟩
    · simp only [layout, added, List.cons_append, List.append_assoc]
    · simp only [references, listed, List.cons_append]
  · intro top others some
    obtain ⟨changed, listed, ends⟩ := rest.under top others some
    rw [counted, ← shifted, ← shifted] at changed
    rw [counted] at listed ends
    rw [place_next]
    refine ⟨changed, ?_, ?_⟩
    · rw [references, references, listed]
    · rw [spine_next _ _ (Outline.insert_ne_nil _ _ _)]
      exact ends

theorem insert_attached (before : List Node) (outline : Outline HeadingEntry) (h : HeadingEntry)
    (layered : Outline.Layered HeadingEntry.level outline) :
    Attached before outline h (Outline.insert HeadingEntry.level h outline)
      ((spine before.length outline).dropWhile
        (notBelow (before ++ layout before.length outline) h)) := by
  fun_induction Outline.insert HeadingEntry.level h outline generalizing before with
  | case1 =>
      refine ⟨fun _ => ⟨rfl, rfl, rfl⟩, ?_⟩
      intro top rest impossible
      cases impossible
  | case2 last children deeper inside =>
      exact attached_inside deeper rfl (inside _ layered.2.2.1)
  | case3 last children flat => exact attached_beside flat layered
  | case4 first children entry below next later =>
      exact attached_after (by simp) rfl (later _ layered.2.2.2)

theorem addHeading_ofOutline (outline : Outline HeadingEntry) (h : HeadingEntry)
    (layered : Outline.Layered HeadingEntry.level outline) :
    addHeading (.ofOutline outline) h =
      .ofOutline (Outline.insert HeadingEntry.level h outline) := by
  have attached := insert_attached [] outline h layered
  simp only [List.length_nil, List.nil_append] at attached
  unfold addHeading Build.ofOutline
  simp only [length_layout]
  split
  · next none =>
      obtain ⟨added, listed, ends⟩ := attached.outermost none
      simp only [List.length_nil, Nat.zero_add] at added listed ends
      rw [added, listed, ends]
  · next top rest some =>
      obtain ⟨changed, listed, ends⟩ := attached.under top rest some
      simp only [List.length_nil, List.nil_append, Nat.zero_add] at changed listed ends
      rw [changed, listed, ends]

theorem foldl_addHeading (headings : List HeadingEntry) :
    headings.foldl addHeading {} = .ofOutline (Outline.ofLabels HeadingEntry.level headings) := by
  induction headings using List.reverseRecOn with
  | nil => rfl
  | append_singleton headings h ih =>
      rw [List.foldl_append, ih, Outline.ofLabels_snoc]
      exact addHeading_ofOutline _ h (Outline.layered_ofLabels HeadingEntry.level headings)

theorem buildHeadingTree_eq (headings : List HeadingEntry) :
    buildHeadingTree headings = Outline.ofLabels HeadingEntry.level headings := by
  unfold buildHeadingTree
  rw [foldl_addHeading]
  have read := nested_layout [] [] (Outline.ofLabels HeadingEntry.level headings) le_rfl
  simpa [Build.ofOutline, length_layout] using read

/-- The tree lists the headings in their order, and each one hangs under the nearest heading before
it with a smaller level, or is a root when there is none. -/
theorem heading_forest (headings : List HeadingEntry) :
    (buildHeadingTree headings).preorder = headings ∧
      ∀ before h after, headings = before ++ h :: after →
        ∃ parent, (buildHeadingTree headings).parents[before.length]? = some parent ∧
          Outline.NearestSmaller HeadingEntry.level before h parent := by
  rw [buildHeadingTree_eq]
  refine ⟨Outline.preorder_ofLabels HeadingEntry.level headings, ?_⟩
  intro before h after given
  rcases given with rfl
  exact ⟨_, Outline.parents_ofLabels HeadingEntry.level before h after,
    Outline.nearest_spec HeadingEntry.level before h⟩

/-! ### The tree of the chunker -/

def entryOf (heading : Heading) : HeadingEntry := ⟨heading.text, heading.level, heading.anchorId⟩

mutual

def outlineOf : List HeadingNode → Outline HeadingEntry
  | [] => .nil
  | first :: rest => nodeOutline first (outlineOf rest)

def nodeOutline : HeadingNode → Outline HeadingEntry → Outline HeadingEntry
  | .node heading children, next => .cons (entryOf heading) (outlineOf children) next

end

theorem outlineOf_insertHeading (heading : Heading) : ∀ nodes : List HeadingNode,
    outlineOf (insertHeading heading nodes) =
      Outline.insert HeadingEntry.level (entryOf heading) (outlineOf nodes)
  | [] => by simp [insertHeading, outlineOf, nodeOutline, Outline.insert]
  | [.node own children] => by
      have levels : (entryOf own).level < (entryOf heading).level ↔ own.level < heading.level := by
        simp [entryOf]
      have under := outlineOf_insertHeading heading children
      by_cases deeper : own.level < heading.level
      · simp [insertHeading, HeadingNode.heading, HeadingNode.insert, outlineOf, nodeOutline,
          Outline.insert, levels, deeper, under]
      · simp [insertHeading, HeadingNode.heading, outlineOf, nodeOutline, Outline.insert, levels,
          deeper]
  | .node own children :: .node next below :: rest => by
      have after := outlineOf_insertHeading heading (.node next below :: rest)
      simp only [outlineOf, nodeOutline] at after
      simp [insertHeading, outlineOf, nodeOutline, Outline.insert, after]

theorem outlineOf_buildHeadingTree (headings : List Heading) :
    outlineOf (Etl.buildHeadingTree headings) = buildHeadingTree (headings.map entryOf) := by
  rw [buildHeadingTree_eq]
  induction headings using List.reverseRecOn with
  | nil => simp [Etl.buildHeadingTree, outlineOf, Outline.ofLabels]
  | append_singleton headings heading ih =>
      rw [Etl.buildHeadingTree, List.foldl_append, List.map_append, List.map_singleton,
        Outline.ofLabels_snoc, ← ih]
      exact outlineOf_insertHeading heading _

end RagSystem.Etl.HeadingForest
