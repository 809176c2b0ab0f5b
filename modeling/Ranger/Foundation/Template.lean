import Ranger.Foundation.Delimited

/-! # Texts with marked tokens

A token stands between two marks. A text is read from the left: in front of each token is
text without marks, and behind the last one a tail with one mark at most. Every text is read
in one way only.
-/

namespace Foundation

universe u

variable {α : Type u}

/-- A token between marks, with the text in front of it. -/
@[ext]
structure Segment (mark : α) where
  text : List α
  token : List α
  text_free : mark ∉ text
  token_free : mark ∉ token

/-- A text with marked tokens. The tail may have a mark that is not closed. -/
structure Template (mark : α) where
  segments : List (Segment mark)
  tail : List α
  tail_open : ∀ text rest, tail = text ++ mark :: rest → mark ∉ rest

namespace Template

variable {mark : α}

/-- The text that is read. -/
def source (template : Template mark) : List α :=
  template.segments.flatMap (fun segment => segment.text ++ mark :: (segment.token ++ [mark])) ++
    template.tail

/-- The text with a value in place of each token. -/
def expand (template : Template mark) (value : List α → List α) : List α :=
  template.segments.flatMap (fun segment => segment.text ++ value segment.token) ++ template.tail

/-- The template behind its first token. -/
def cons (segment : Segment mark) (template : Template mark) : Template mark :=
  ⟨segment :: template.segments, template.tail, template.tail_open⟩

/-- The template without tokens. -/
def ofTail (tail : List α) (tail_open : ∀ text rest, tail = text ++ mark :: rest → mark ∉ rest) :
    Template mark := ⟨[], tail, tail_open⟩

theorem source_cons (segment : Segment mark) (template : Template mark) :
    (template.cons segment).source =
      segment.text ++ mark :: (segment.token ++ mark :: template.source) := by
  simp only [source, cons, List.flatMap_cons, List.append_assoc, List.cons_append,
    List.nil_append]

theorem expand_cons (segment : Segment mark) (template : Template mark)
    (value : List α → List α) : (template.cons segment).expand value =
      segment.text ++ (value segment.token ++ template.expand value) := by
  simp only [expand, cons, List.flatMap_cons, List.append_assoc]

/-- Templates are made from their tails by putting tokens in front. -/
@[elab_as_elim]
theorem induction {motive : Template mark → Prop}
    (ofTail : ∀ tail tail_open, motive (ofTail tail tail_open))
    (cons : ∀ segment template, motive template → motive (cons segment template))
    (template : Template mark) : motive template := by
  obtain ⟨segments, tail, tail_open⟩ := template
  induction segments with
  | nil => exact ofTail tail tail_open
  | cons segment rest ih => exact cons segment ⟨rest, tail, tail_open⟩ ih

/-- A text is read in one way at most. -/
theorem source_injective {template other : Template mark}
    (same : template.source = other.source) : template = other := by
  have closed : ∀ (segment : Segment mark) (template : Template mark) (tail : List α),
      (∀ text rest, tail = text ++ mark :: rest → mark ∉ rest) →
        tail ≠ (template.cons segment).source := by
    intro segment template tail tail_open read
    rw [source_cons] at read
    exact tail_open _ _ read (List.mem_append_right _ List.mem_cons_self)
  induction template using induction generalizing other with
  | ofTail tail tail_open =>
      cases other using induction with
      | ofTail tail' _ =>
          obtain rfl : tail = tail' := same
          rfl
      | cons segment template => exact absurd same (closed segment template tail tail_open)
  | cons segment template ih =>
      cases other using induction with
      | ofTail tail tail_open => exact absurd same.symm (closed segment template tail tail_open)
      | cons segment' other =>
          rw [source_cons, source_cons] at same
          obtain ⟨texts, behind⟩ :=
            Delimited.append_cons_inj segment.text_free segment'.text_free same
          obtain ⟨tokens, rests⟩ :=
            Delimited.append_cons_inj segment.token_free segment'.token_free behind
          rw [Segment.ext texts tokens, ih rests]

/-- Every text can be read. -/
theorem exists_source (text : List α) : ∃ template : Template mark, template.source = text := by
  induction size : text.length using Nat.strongRecOn generalizing text with
  | ind count ih =>
      by_cases opened : mark ∈ text
      · obtain ⟨front, rest, rfl, front_free⟩ := List.eq_append_cons_of_mem opened
        by_cases closed : mark ∈ rest
        · obtain ⟨token, behind, rfl, token_free⟩ := List.eq_append_cons_of_mem closed
          have shorter : behind.length < count := by
            rw [← size]
            simp only [List.length_append, List.length_cons]
            omega
          obtain ⟨template, read⟩ := ih behind.length shorter behind rfl
          refine ⟨template.cons ⟨front, token, front_free, token_free⟩, ?_⟩
          rw [source_cons, read]
        · refine ⟨ofTail (front ++ mark :: rest) fun text other split => ?_, List.nil_append _⟩
          rcases List.append_eq_append_iff.mp split with
            ⟨between, rfl, before⟩ | ⟨between, rfl, before⟩
          · cases between with
            | nil => exact (List.cons.inj before).2 ▸ closed
            | cons head between =>
                obtain ⟨-, rfl⟩ := List.cons.inj before
                exact absurd (List.mem_append_right between List.mem_cons_self) closed
          · cases between with
            | nil => exact (List.cons.inj before).2 ▸ closed
            | cons head between =>
                obtain ⟨rfl, -⟩ := List.cons.inj before
                exact absurd (List.mem_append_right text List.mem_cons_self) front_free
      · refine ⟨ofTail text fun front rest split => ?_, List.nil_append _⟩
        rw [split] at opened
        exact absurd (List.mem_append_right front List.mem_cons_self) opened

end Template

end Foundation
