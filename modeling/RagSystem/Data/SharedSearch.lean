import Mathlib.Data.Finset.Lattice.Lemmas
import RagSystem.Data.BreadthFirst

/-! Breadth-first searches from several starts that share what is visited. -/

namespace BreadthFirst

open Transition

universe u

variable {α : Type u} [DecidableEq α] {graph : Graph α} {limit : Nat} {start place : α}
  {visited : Finset α} {current after partner : Search α}

/-! What is visited already does not disturb a search that would not end there. -/

/-- The visited places lead only to visited ones, and no path of the search ends at one. -/
structure Undisturbed (graph : Graph α) (limit : Nat) (start : α) (visited : Finset α) : Prop where
  closed : ∀ before ∈ visited, before ∈ ball graph start limit →
    ∀ place ∈ graph.next before, place ∈ visited
  open_ends : ∀ place ∈ visited, ¬ EndsAt graph limit start place

/-- The visits of places outside. -/
def outside (visited : Finset α) (queue : List (Visit α)) : List (Visit α) :=
  queue.filter (fun visit => visit.current ∉ visited)

/-- The other search has visited more from the beginning, and the rest is the same. -/
structure Ahead (graph : Graph α) (limit : Nat) (start : α) (visited : Finset α)
    (alone partner : Search α) : Prop where
  leveled : Leveled graph limit start alone
  seen : partner.visited = alone.visited ∪ visited
  notes : partner.found = alone.found
  waiting : outside visited partner.queue = outside visited alone.queue

section Ahead

theorem steps_skip {skipped queue found : List (Visit α)} {seen : Finset α}
    (all : ∀ visit ∈ skipped, visit.current ∈ seen) :
    Steps (step graph limit) ⟨skipped ++ queue, seen, found⟩ ⟨queue, seen, found⟩ := by
  induction skipped with
  | nil => exact Relation.ReflTransGen.refl
  | cons visit skipped ih =>
      obtain ⟨here, behind⟩ := List.forall_mem_cons.mp all
      exact Relation.ReflTransGen.head (step_iff.mpr (Moves.skip here)) (ih behind)

theorem Ahead.outside_step {visit : Visit α} {queue found : List (Visit α)} {seen : Finset α}
    (ahead : Ahead graph limit start visited ⟨visit :: queue, seen, found⟩ partner)
    (outer : visit.current ∉ visited) :
    ∃ rest, outside visited rest = outside visited queue ∧
      Steps (step graph limit) partner ⟨visit :: rest, seen ∪ visited, found⟩ := by
  obtain ⟨queued, seenThere, foundThere⟩ := partner
  obtain rfl : seenThere = seen ∪ visited := ahead.seen
  obtain rfl : foundThere = found := ahead.notes
  have same : outside visited queued = visit :: outside visited queue := by
    rw [ahead.waiting]
    exact List.filter_cons_of_pos (by simpa using outer)
  obtain ⟨skipped, rest, rfl, inner, _, remaining⟩ := List.filter_eq_cons_iff.mp same
  refine ⟨rest, remaining, steps_skip ?_⟩
  intro other member
  have inside : other.current ∈ visited := by simpa using inner other member
  exact Finset.mem_union_right _ inside

theorem Ahead.answers (undisturbed : Undisturbed graph limit start visited)
    (ahead : Ahead graph limit start visited current partner)
    (moves : Moves graph limit current after) :
    ∃ reached, Steps (step graph limit) partner reached ∧
      Ahead graph limit start visited after reached := by
  have leveled := ahead.leveled.moves moves
  cases moves with
  | @skip visit queue seen found old =>
      by_cases inner : visit.current ∈ visited
      · refine ⟨partner, Relation.ReflTransGen.refl, leveled, ahead.seen, ahead.notes, ?_⟩
        rw [ahead.waiting]
        exact List.filter_cons_of_neg (by simpa using inner)
      · obtain ⟨rest, remaining, steps⟩ := ahead.outside_step inner
        have there : visit.current ∈ seen ∪ visited := Finset.mem_union_left _ old
        exact ⟨_, steps.tail (step_iff.mpr (Moves.skip there)), leveled, rfl, rfl, remaining⟩
  | @note visit queue seen found fresh final =>
      have ending := leveled.ends (List.mem_append_right found (List.mem_singleton_self visit))
      have inner : visit.current ∉ visited :=
        fun member => undisturbed.open_ends _ member ending
      obtain ⟨rest, remaining, steps⟩ := ahead.outside_step inner
      have there : visit.current ∉ seen ∪ visited := by
        simpa using ⟨fresh, inner⟩
      refine ⟨_, steps.tail (step_iff.mpr (Moves.note there final)), leveled, ?_, rfl, remaining⟩
      exact (Finset.insert_union _ _ _).symm
  | @expand visit queue seen found fresh inside low =>
      by_cases inner : visit.current ∈ visited
      · refine ⟨partner, Relation.ReflTransGen.refl, leveled, ?_, ahead.notes, ?_⟩
        · rw [ahead.seen, Finset.insert_union, Finset.insert_eq_of_mem]
          exact Finset.mem_union_right _ inner
        · have near := leveled.visited_ball (Finset.mem_insert_self visit.current seen)
          have none : outside visited (push graph visit) = [] := by
            apply List.filter_eq_nil_iff.mpr
            intro pushed member
            obtain ⟨place, kept, rfl⟩ := List.mem_map.mp member
            have successor := (List.mem_filter.mp kept).1
            simpa using undisturbed.closed _ inner near place successor
          rw [ahead.waiting, outside, outside, List.filter_append]
          rw [outside] at none
          rw [none, List.append_nil]
          exact List.filter_cons_of_neg (by simpa using inner)
      · obtain ⟨rest, remaining, steps⟩ := ahead.outside_step inner
        have there : visit.current ∉ seen ∪ visited := by
          simpa using ⟨fresh, inner⟩
        refine ⟨_, steps.tail (step_iff.mpr (Moves.expand there inside low)), leveled, ?_, rfl, ?_⟩
        · exact (Finset.insert_union _ _ _).symm
        · have both := congrArg (fun kept => kept ++ outside visited (push graph visit)) remaining
          simpa [outside] using both

theorem Ahead.settles (ahead : Ahead graph limit start visited current partner)
    (ended : current.queue = []) :
    ∃ reached, Steps (step graph limit) partner reached ∧
      Ahead graph limit start visited current reached ∧ step graph limit reached = none := by
  obtain ⟨queue, seen, found⟩ := partner
  have inner : ∀ visit ∈ queue, visit.current ∈ seen := by
    intro visit member
    have none : outside visited queue = [] := by
      rw [ahead.waiting, ended]
      rfl
    have inside : visit.current ∈ visited := by
      simpa using List.filter_eq_nil_iff.mp none visit member
    have whole : seen = current.visited ∪ visited := ahead.seen
    rw [whole]
    exact Finset.mem_union_right _ inside
  have skipped : Steps (step graph limit) ⟨queue ++ [], seen, found⟩ ⟨[], seen, found⟩ :=
    steps_skip inner
  rw [List.append_nil] at skipped
  refine ⟨_, skipped, ⟨ahead.leveled, ahead.seen, ahead.notes, ?_⟩, rfl⟩
  rw [ended]

theorem search_undisturbed (undisturbed : Undisturbed graph limit start visited) :
    (search graph limit start visited).found = (search graph limit start ∅).found ∧
      (search graph limit start visited).visited =
        (search graph limit start ∅).visited ∪ visited := by
  have begins : Ahead graph limit start visited (initial start ∅) (initial start visited) :=
    ⟨leveled_initial, (Finset.empty_union visited).symm, rfl, rfl⟩
  obtain ⟨fuel, reached, ended, ahead⟩ := loop_simulates (Ahead graph limit start visited)
    (fun _ _ _ ahead stepped => ahead.answers undisturbed (step_iff.mp stepped))
    (fun _ _ ahead stopped => ahead.settles (step_eq_none_iff.mp stopped)) begins
    (loop_search graph limit start ∅ (le_refl _))
  have whole := loop_mono ended (Nat.le_max_left fuel (enough graph limit))
  rw [loop_search graph limit start visited (Nat.le_max_right fuel _)] at whole
  obtain rfl := Option.some.inj whole
  exact ⟨ahead.notes, ahead.seen⟩

end Ahead

/-! Several starts. -/

/-- What is noted by searches from the starts, each with what the earlier ones visited. -/
def searchAll (graph : Graph α) (limit : Nat) : List α → Finset α → List (Visit α)
  | [], _ => []
  | start :: rest, visited =>
      (search graph limit start visited).found ++
        searchAll graph limit rest (search graph limit start visited).visited

/-- No path from a start ends where another start reaches. -/
def Apart (graph : Graph α) (limit : Nat) (starts : List α) : Prop :=
  ∀ first ∈ starts, ∀ second ∈ starts, first ≠ second →
    ∀ place ∈ ball graph first limit, ¬ EndsAt graph limit second place

instance (starts : List α) : Decidable (Apart graph limit starts) :=
  inferInstanceAs (Decidable (∀ _ ∈ _, _))

/-- The same paths are noted in every order of the starts. -/
def OrderFree (graph : Graph α) (limit : Nat) (starts : List α) : Prop :=
  ∀ order, order.Perm starts → ∀ path,
    (∃ visit ∈ searchAll graph limit order ∅, visit.path = path) ↔
      ∃ visit ∈ searchAll graph limit starts ∅, visit.path = path

section Several

variable {first second : α} {starts done rest : List α} {visit : Visit α}

theorem undisturbed_of_apart (apart : Apart graph limit (done ++ start :: rest))
    (new : start ∉ done)
    (covers : ∀ place, place ∈ visited ↔ ∃ first ∈ done, place ∈ ball graph first limit) :
    Undisturbed graph limit start visited := by
  have here : start ∈ done ++ start :: rest := List.mem_append_right _ List.mem_cons_self
  constructor
  · intro before seen near place successor
    obtain ⟨first, member, inside⟩ := (covers before).mp seen
    have different : start ≠ first := fun same => new (same ▸ member)
    have passing := apart start here first (List.mem_append_left _ member) different before near
    have earlier : ∃ fewer < limit, before ∈ ball graph first fewer := by
      by_contra far
      refine passing ⟨inside, Or.inr ?_⟩
      intro fewer below reached
      exact far ⟨fewer, below, reached⟩
    obtain ⟨fewer, below, reached⟩ := earlier
    have next := mem_ball_succ.mpr (Or.inr ⟨before, reached, successor⟩)
    exact (covers place).mpr ⟨first, member, ball_mono next below⟩
  · intro place seen
    obtain ⟨first, member, inside⟩ := (covers place).mp seen
    have different : first ≠ start := fun same => new (same ▸ member)
    exact apart first (List.mem_append_left _ member) start here different place inside

theorem searchAll_of_apart (done : List α) (apart : Apart graph limit (done ++ starts))
    (distinct : (done ++ starts).Nodup)
    (covers : ∀ place, place ∈ visited ↔ ∃ first ∈ done, place ∈ ball graph first limit) :
    searchAll graph limit starts visited =
      starts.flatMap (fun start => (search graph limit start ∅).found) := by
  induction starts generalizing done visited with
  | nil => rfl
  | cons start rest ih =>
      have new : start ∉ done := by
        intro member
        exact (List.nodup_append'.mp distinct).2.2 member List.mem_cons_self
      obtain ⟨notes, seen⟩ := search_undisturbed (undisturbed_of_apart apart new covers)
      have regrouped : done ++ start :: rest = (done ++ [start]) ++ rest := by simp
      rw [regrouped] at apart distinct
      rw [searchAll, List.flatMap_cons, notes]
      refine congrArg _ (ih (done ++ [start]) apart distinct ?_)
      intro place
      rw [seen, Finset.mem_union, mem_visited_search, covers]
      constructor
      · intro given
        rcases given with near | ⟨first, member, inside⟩
        · exact ⟨start, by simp, near⟩
        · exact ⟨first, List.mem_append_left _ member, inside⟩
      · intro given
        rcases given with ⟨first, member, inside⟩
        rcases List.mem_append.mp member with earlier | last
        · exact Or.inr ⟨first, earlier, inside⟩
        · rw [List.mem_singleton.mp last] at inside
          exact Or.inl inside

theorem mem_searchAll_of_apart (apart : Apart graph limit starts) (distinct : starts.Nodup) :
    visit ∈ searchAll graph limit starts ∅ ↔
      ∃ start ∈ starts, visit ∈ (search graph limit start ∅).found := by
  rw [searchAll_of_apart [] apart distinct (by simp), List.mem_flatMap]

theorem mem_searchAll_perm {order : List α} (apart : Apart graph limit starts)
    (distinct : starts.Nodup) (reordered : order.Perm starts) :
    visit ∈ searchAll graph limit order ∅ ↔ visit ∈ searchAll graph limit starts ∅ := by
  have apartToo : Apart graph limit order := by
    intro first firstIn second secondIn
    exact apart first (reordered.mem_iff.mp firstIn) second (reordered.mem_iff.mp secondIn)
  rw [mem_searchAll_of_apart apartToo (reordered.nodup_iff.mpr distinct),
    mem_searchAll_of_apart apart distinct]
  simp only [reordered.mem_iff]

theorem trail_of_mem_searchAll (noted : visit ∈ searchAll graph limit starts visited) :
    ∃ start ∈ starts, Trail graph limit start visit ∧ visit.current ∉ visited := by
  induction starts generalizing visited with
  | nil => cases noted
  | cons start rest ih =>
      have trailing := trailing_search graph limit start visited
      rcases List.mem_append.mp noted with here | later
      · exact ⟨start, List.mem_cons_self, trailing.found visit here⟩
      · obtain ⟨other, member, trail, fresh⟩ := ih later
        exact ⟨other, List.mem_cons_of_mem start member, trail,
          fun seen => fresh (trailing.grows seen)⟩

omit [DecidableEq α] in
theorem Trail.same_start {visit other : Visit α} (trail : Trail graph limit first visit)
    (another : Trail graph limit second other) (same : visit.path = other.path) :
    first = second ∧ visit.current = other.current := by
  have heads := trail.first
  have lasts := trail.last
  rw [same, another.first] at heads
  rw [same, another.last] at lasts
  exact ⟨(Option.some.inj heads).symm, (Option.some.inj lasts).symm⟩

theorem found_of_trail (distinct : (start :: rest).Nodup) {other : Visit α}
    (noted : other ∈ searchAll graph limit (start :: rest) visited)
    (trail : Trail graph limit start visit) (same : other.path = visit.path) :
    other ∈ (search graph limit start visited).found := by
  rcases List.mem_append.mp noted with here | later
  · exact here
  · obtain ⟨further, member, another, _⟩ := trail_of_mem_searchAll later
    obtain ⟨rfl, _⟩ := another.same_start trail same
    exact absurd member (List.nodup_cons.mp distinct).1

theorem OrderFree.noted (free : OrderFree graph limit starts) (member : start ∈ starts)
    (found : visit ∈ (search graph limit start ∅).found) :
    ∃ other ∈ searchAll graph limit starts ∅, other.path = visit.path := by
  have order := (List.perm_cons_erase member).symm
  exact (free _ order visit.path).mp ⟨visit, List.mem_append_left _ found, rfl⟩

theorem OrderFree.apart (free : OrderFree graph limit starts) (distinct : starts.Nodup) :
    Apart graph limit starts := by
  intro first firstIn second secondIn different place near ending
  obtain ⟨visit, found, rfl⟩ := mem_found_search.mpr ending
  have trail := ((trailing_search graph limit second ∅).found visit found).1
  have rest : second ∈ starts.erase first := (List.mem_erase_of_ne different.symm).mpr secondIn
  have order : (first :: second :: (starts.erase first).erase second).Perm starts :=
    ((List.perm_cons_erase rest).symm.cons first).trans (List.perm_cons_erase firstIn).symm
  have distinctOrder := order.nodup_iff.mpr distinct
  obtain ⟨other, noted, same⟩ := (free _ order visit.path).mpr (free.noted secondIn found)
  rcases List.mem_append.mp noted with here | later
  · have another := ((trailing_search graph limit first ∅).found other here).1
    exact different (another.same_start trail same).1
  · have own := found_of_trail (List.nodup_cons.mp distinctOrder).2 later trail same
    have trailing := trailing_search graph limit second (search graph limit first ∅).visited
    obtain ⟨another, fresh⟩ := trailing.found other own
    rw [(another.same_start trail same).2] at fresh
    exact fresh (mem_visited_search.mpr near)

end Several

end BreadthFirst
