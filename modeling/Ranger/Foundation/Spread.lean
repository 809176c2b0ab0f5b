import Mathlib.Data.Set.Basic
import Mathlib.Logic.Relation

/-! # One round of rules that spread membership

A rule adds a set to every set that holds its trigger. One round fires the rules in the
order of a list, so that a later rule sees what an earlier one added. How much a round adds
lies between what the rules add at once and what they add in the long run, and it is the
same in every order exactly when these are equal.
-/

namespace Foundation.Spread

universe u

variable {τ : Type u}

structure Rule (τ : Type u) where
  trigger : τ
  adds : Set τ

/-- The members after one rule. -/
def fire (members : Set τ) (rule : Rule τ) : Set τ :=
  {x | x ∈ members ∨ (rule.trigger ∈ members ∧ x ∈ rule.adds)}

/-- The members after one round. -/
def round (rules : List (Rule τ)) (members : Set τ) : Set τ :=
  rules.foldl fire members

/-- What the rules add to a set at once. -/
def added (rules : List (Rule τ)) (members : Set τ) : Set τ :=
  {x | ∃ rule ∈ rules, rule.trigger ∈ members ∧ x ∈ rule.adds}

/-- The step from a trigger to what its rule adds. -/
def Step (rules : List (Rule τ)) (first second : τ) : Prop :=
  ∃ rule ∈ rules, rule.trigger = first ∧ second ∈ rule.adds

variable {rules : List (Rule τ)} {members : Set τ}

theorem subset_round : members ⊆ round rules members := by
  induction rules generalizing members with
  | nil => exact fun _ member => member
  | cons rule rest ih => exact fun _ member => ih (Or.inl member)

/-- A round adds what the rules add at once. -/
theorem added_subset_round : added rules members ⊆ round rules members := by
  induction rules generalizing members with
  | nil =>
      intro x ⟨rule, listed, _⟩
      cases listed
  | cons first rest ih =>
      intro x ⟨rule, listed, triggered, adds⟩
      rcases List.mem_cons.mp listed with rfl | later
      · have fired : x ∈ fire members rule := Or.inr ⟨triggered, adds⟩
        exact @subset_round _ rest _ _ fired
      · exact ih ⟨rule, later, Or.inl triggered, adds⟩

/-- A round stays within a set to which the rules add nothing. -/
theorem round_subset_of_closed {closed : Set τ} (within : members ⊆ closed)
    (closes : added rules closed ⊆ closed) : round rules members ⊆ closed := by
  induction rules generalizing members with
  | nil => exact within
  | cons rule rest ih =>
      refine ih (fun x member => ?_) fun x ⟨other, listed, added⟩ =>
        closes ⟨other, List.mem_cons_of_mem _ listed, added⟩
      rcases member with before | ⟨triggered, adds⟩
      · exact within before
      · exact closes ⟨rule, List.mem_cons_self, within triggered, adds⟩

theorem added_subset_of_round_eq (fixed : round rules members = members) :
    added rules members ⊆ members := by
  intro x new
  rw [← fixed]
  exact added_subset_round new

/-- What a round adds is reached by steps from what was there. -/
theorem exists_reflTransGen_of_mem_round :
    ∀ x ∈ round rules members, ∃ start ∈ members, Relation.ReflTransGen (Step rules) start x := by
  refine @round_subset_of_closed _ rules members
    {x | ∃ start ∈ members, Relation.ReflTransGen (Step rules) start x} ?_ ?_
  · exact fun x member => ⟨x, member, .refl⟩
  · intro x ⟨rule, listed, ⟨start, member, reached⟩, adds⟩
    exact ⟨start, member, reached.tail ⟨rule, listed, rfl, adds⟩⟩

/-- When the rules whose triggers are missing come first, a round adds what the rules add
at once and no more. -/
theorem round_quiet_first {quiet loud : List (Rule τ)}
    (missing : ∀ rule ∈ quiet, rule.trigger ∉ members)
    (present : ∀ rule ∈ loud, rule.trigger ∈ members) :
    round (quiet ++ loud) members = members ∪ added (quiet ++ loud) members := by
  have silent : round quiet members = members := by
    refine Set.Subset.antisymm (round_subset_of_closed subset_rfl ?_) subset_round
    intro x ⟨rule, listed, triggered, _⟩
    exact absurd triggered (missing rule listed)
  have all : ∀ (rules : List (Rule τ)) (current : Set τ), members ⊆ current →
      (∀ rule ∈ rules, rule.trigger ∈ members) →
      round rules current = current ∪ added rules members := by
    intro rules
    induction rules with
    | nil =>
        intro current _ _
        have nothing : added [] members = ∅ :=
          Set.eq_empty_of_forall_notMem fun x ⟨_, listed, _⟩ => nomatch listed
        rw [nothing, Set.union_empty]
        rfl
    | cons rule rest ih =>
        intro current above triggered
        have now : rule.trigger ∈ members := triggered rule List.mem_cons_self
        have later := ih (fire current rule) (fun x member => Or.inl (above member))
          fun other listed => triggered other (List.mem_cons_of_mem _ listed)
        refine later.trans (Set.ext fun x => ?_)
        constructor
        · rintro ((before | ⟨_, adds⟩) | ⟨other, listed, rest⟩)
          · exact Or.inl before
          · exact Or.inr ⟨rule, List.mem_cons_self, now, adds⟩
          · exact Or.inr ⟨other, List.mem_cons_of_mem _ listed, rest⟩
        · rintro (before | ⟨other, listed, rest⟩)
          · exact Or.inl (Or.inl before)
          · rcases List.mem_cons.mp listed with rfl | listed
            · exact Or.inl (Or.inr ⟨above now, rest.2⟩)
            · exact Or.inr ⟨other, listed, rest⟩
  have split : round (quiet ++ loud) members = round loud members := by
    rw [round, List.foldl_append]
    exact congrArg (fun current => loud.foldl fire current) silent
  have quietly : added (quiet ++ loud) members = added loud members := by
    ext x
    constructor
    · intro ⟨rule, listed, triggered, adds⟩
      rcases List.mem_append.mp listed with first | second
      · exact absurd triggered (missing rule first)
      · exact ⟨rule, second, triggered, adds⟩
    · exact fun ⟨rule, listed, rest⟩ => ⟨rule, List.mem_append_right _ listed, rest⟩
  rw [split, quietly]
  exact all loud members subset_rfl present

/-- The rules add nothing more to what they have added at once. -/
def OneStep (rules : List (Rule τ)) (members : Set τ) : Prop :=
  added rules (members ∪ added rules members) ⊆ members ∪ added rules members

/-- A round that reaches what is added in the long run. -/
theorem OneStep.round_eq (oneStep : OneStep rules members) :
    round rules members = members ∪ added rules members :=
  Set.Subset.antisymm (round_subset_of_closed Set.subset_union_left oneStep)
    (Set.union_subset subset_round added_subset_round)

end Foundation.Spread
