import Mathlib.Data.List.Perm.Lattice
import Mathlib.Order.Defs.LinearOrder
import Mathlib.Order.Lattice

/-! # Journals

A journal is a list that only grows at its end. Its entries are looked up by a key that
few of them share, or by a moment: the last entry of an owner that was made by then.
-/

namespace Foundation.Journal

universe u v w

variable {ε : Type u} {κ : Type v} {τ : Type w}

section Keys

variable [DecidableEq κ] {key : ε → κ}

/-- Where no two entries share a key, a key finds its entry alone. -/
theorem filter_key_eq_singleton {journal : List ε} (distinct : (journal.map key).Nodup)
    {entry : ε} (listed : entry ∈ journal) :
    journal.filter (key · = key entry) = [entry] := by
  induction journal with
  | nil => nomatch listed
  | cons first rest ih =>
      rw [List.map_cons, List.nodup_cons] at distinct
      obtain rfl | later := List.mem_cons.mp listed
      · have others : rest.filter (key · = key entry) = [] := by
          refine List.filter_eq_nil_iff.mpr fun other member same => distinct.1 ?_
          exact of_decide_eq_true same ▸ List.mem_map_of_mem member
        rw [List.filter_cons_of_pos (by simp), others]
      · have apart : ¬key first = key entry := by
          intro same
          exact distinct.1 (same ▸ List.mem_map_of_mem later)
        rw [List.filter_cons_of_neg (by simpa using apart)]
        exact ih distinct.2 later

/-- An entry whose key was there before is not found alone. -/
theorem not_mem_of_filter_key_eq_singleton {past later : List ε} {entry found : ε}
    (only : (past ++ entry :: later).filter (key · = key entry) = [found]) :
    key entry ∉ past.map key := by
  intro repeated
  obtain ⟨old, member, same⟩ := List.mem_map.mp repeated
  have oldPasses : old ∈ past.filter (key · = key entry) :=
    List.mem_filter.mpr ⟨member, decide_eq_true same⟩
  have counted := congrArg List.length only
  rw [List.filter_append, List.filter_cons_of_pos (by simp)] at counted
  simp only [List.length_append, List.length_cons, List.length_nil] at counted
  have some := List.length_pos_of_mem oldPasses
  omega

end Keys

section Moments

variable [DecidableEq κ] [LinearOrder τ] (owner : ε → κ) (made : ε → τ)

/-- The last entry of an owner. -/
def latest (journal : List ε) (own : κ) : Option ε := (journal.filter (owner · = own)).getLast?

/-- The last entry of an owner that was made by a moment. -/
def asOf (journal : List ε) (own : κ) (moment : τ) : Option ε :=
  (journal.filter fun entry => owner entry = own ∧ made entry ≤ moment).getLast?

variable {owner made}

theorem latest_append_single (journal : List ε) (entry : ε) (own : κ) :
    latest owner (journal ++ [entry]) own =
      if owner entry = own then some entry else latest owner journal own := by
  unfold latest
  rw [List.filter_append]
  by_cases same : owner entry = own
  · rw [if_pos same, List.filter_cons_of_pos (by simpa using same), List.filter_nil,
      List.getLast?_concat]
  · rw [if_neg same, List.filter_cons_of_neg (by simpa using same), List.filter_nil,
      List.append_nil]

theorem mem_of_latest {journal : List ε} {own : κ} {entry : ε}
    (last : latest owner journal own = some entry) : entry ∈ journal ∧ owner entry = own := by
  obtain ⟨member, passes⟩ := List.mem_filter.mp (List.mem_of_getLast? last)
  exact ⟨member, of_decide_eq_true passes⟩

/-- What was made later does not change what was the case at a moment. -/
theorem asOf_append {past later : List ε} {own : κ} {moment : τ}
    (before : ∀ entry ∈ past, made entry ≤ moment)
    (after : ∀ entry ∈ later, moment < made entry) :
    asOf owner made (past ++ later) own moment = latest owner past own := by
  unfold asOf latest
  have none : later.filter (fun entry => owner entry = own ∧ made entry ≤ moment) = [] := by
    refine List.filter_eq_nil_iff.mpr fun entry member passes => ?_
    exact absurd (of_decide_eq_true passes).2 (not_le.mpr (after entry member))
  rw [List.filter_append, none, List.append_nil]
  refine congrArg List.getLast? (List.filter_congr fun entry member => ?_)
  exact decide_eq_decide.mpr ⟨And.left, fun same => ⟨same, before entry member⟩⟩

/-- Where entries were made in the order they are in, those behind the first that was made
after a moment were made after it. -/
theorem lt_of_mem_dropWhile {journal : List ε} {moment : τ}
    (ordered : journal.Pairwise (made · < made ·)) :
    ∀ entry ∈ journal.dropWhile (made · ≤ moment), moment < made entry := by
  induction journal with
  | nil => nofun
  | cons first rest ih =>
      obtain ⟨least, ordered⟩ := List.pairwise_cons.mp ordered
      intro entry listed
      rw [List.dropWhile_cons] at listed
      split at listed
      · exact ih ordered entry listed
      · next passed =>
          have first_after : moment < made first := not_le.mp (by simpa using passed)
          obtain rfl | behind := List.mem_cons.mp listed
          · exact first_after
          · exact lt_trans first_after (least entry behind)

end Moments

end Foundation.Journal
