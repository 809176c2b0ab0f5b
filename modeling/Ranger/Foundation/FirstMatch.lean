import Mathlib.Data.List.Induction

/-! # Editing the first element found for a key

Loops that look up, for one key after another, the first element of a list that
fits the key, edit it in place, and append new elements when nothing fits. When
edits do not change what an element fits, the elements edited are the first ones
found in the list the loop started from.
-/

namespace Foundation.FirstMatch

universe u v

variable {κ : Type u} {α : Type v} (fits : κ → α → Bool) (edit : α → α) (fresh : κ → List α)

/-- Edit the first element that fits a key, or append the key's new elements. -/
def upsert (items : List α) (key : κ) : List α :=
  match items.findIdx? (fits key) with
  | some index => items.modify index edit
  | none => items ++ fresh key

/-- Edit or append for one key after another. -/
def upsertAll (items : List α) (keys : List κ) : List α :=
  keys.foldl (upsert fits edit fresh) items

/-- The position is that of the first element fitting one of the keys. -/
def Selected (items : List α) (keys : List κ) (index : Nat) : Prop :=
  ∃ key ∈ keys, items.findIdx? (fits key) = some index

/-- What `upsertAll` has done after some keys: the selected elements are edited,
the other elements are as they were, and whatever follows is new. -/
structure Progress (new : α → Prop) (items : List α) (keys : List κ) (current : List α) :
    Prop where
  length_le : items.length ≤ current.length
  edited : ∀ index item, items[index]? = some item → Selected fits items keys index →
    current[index]? = some (edit item)
  kept : ∀ index item, items[index]? = some item → ¬ Selected fits items keys index →
    current[index]? = some item
  added : ∀ index item, items.length ≤ index → current[index]? = some item → new item

variable {fits edit fresh}

/-- The first position found depends on the outcomes of the test only. -/
theorem findIdx?_eq_of_map_eq {test : α → Bool} {first second : List α}
    (same : first.map test = second.map test) : first.findIdx? test = second.findIdx? test := by
  have read : ∀ list : List α, list.findIdx? test = (list.map test).findIdx? id := by
    intro list
    rw [List.findIdx?_map]
    rfl
  rw [read first, read second, same]

/-- An element found beyond the original list is a new one; one found within it
is the element found originally. -/
theorem Progress.findIdx?_cases {new : α → Prop} {items current : List α} {keys : List κ}
    (invariant : ∀ key item, fits key (edit item) = fits key item)
    (progress : Progress fits edit new items keys current) (key : κ) :
    (∃ index, items.findIdx? (fits key) = some index ∧
      current.findIdx? (fits key) = some index) ∨
    (items.findIdx? (fits key) = none ∧
      ∀ index, current.findIdx? (fits key) = some index → items.length ≤ index) := by
  have front : (current.take items.length).findIdx? (fits key) = items.findIdx? (fits key) := by
    apply findIdx?_eq_of_map_eq
    apply List.ext_getElem?
    intro index
    simp only [List.getElem?_map]
    by_cases inside : index < items.length
    · obtain ⟨item, read⟩ : ∃ item, items[index]? = some item :=
        ⟨_, List.getElem?_eq_getElem inside⟩
      rw [List.getElem?_take_of_lt inside]
      by_cases selected : Selected fits items keys index
      · simp only [progress.edited index item read selected, read, Option.map_some, invariant]
      · simp only [progress.kept index item read selected, read]
    · have short : (current.take items.length).length ≤ index := by
        simp only [List.length_take]
        omega
      rw [List.getElem?_eq_none short, List.getElem?_eq_none (Nat.le_of_not_lt inside)]
  have split : current.findIdx? (fits key) = (items.findIdx? (fits key)).or
      (((current.drop items.length).findIdx? (fits key)).map (· + items.length)) := by
    have whole : (current.take items.length ++ current.drop items.length).findIdx? (fits key) =
        ((current.take items.length).findIdx? (fits key)).or
          (((current.drop items.length).findIdx? (fits key)).map
            (· + (current.take items.length).length)) := List.findIdx?_append
    rw [List.take_append_drop, front, List.length_take_of_le progress.length_le] at whole
    exact whole
  cases found : items.findIdx? (fits key) with
  | some index => exact Or.inl ⟨index, rfl, by rw [split, found, Option.some_or]⟩
  | none =>
      refine Or.inr ⟨rfl, fun index located => ?_⟩
      rw [split, found, Option.none_or, Option.map_eq_some_iff] at located
      obtain ⟨offset, _, rfl⟩ := located
      omega

private theorem selected_append {items : List α} {keys : List κ} {key : κ} {index : Nat} :
    Selected fits items (keys ++ [key]) index ↔
      Selected fits items keys index ∨ items.findIdx? (fits key) = some index := by
  simp only [Selected, List.mem_append, List.mem_singleton, or_and_right, exists_or,
    exists_eq_left]

section Step

variable {new : α → Prop} {items current : List α} {keys : List κ} {key : κ}
  (progress : Progress fits edit new items keys current)

include progress

/-- A key found in the original list edits what was found there. -/
private theorem Progress.modify (idempotent : ∀ item, edit (edit item) = edit item) {target : Nat}
    (original : items.findIdx? (fits key) = some target) :
    Progress fits edit new items (keys ++ [key]) (current.modify target edit) := by
  have inside : target < items.length := (List.findIdx?_eq_some_iff_getElem.mp original).1
  refine ⟨by simpa only [List.length_modify] using progress.length_le, ?_, ?_, ?_⟩
  · intro index item read selected
    by_cases hit : target = index
    · rw [hit, List.getElem?_modify_eq, Option.map_eq_map]
      by_cases before : Selected fits items keys index
      · simp only [progress.edited index item read before, Option.map_some, idempotent]
      · simp only [progress.kept index item read before, Option.map_some]
    · rw [List.getElem?_modify_ne edit current hit]
      rcases selected_append.mp selected with before | now
      · exact progress.edited index item read before
      · exact absurd (Option.some.inj (original.symm.trans now)) hit
  · intro index item read unselected
    rw [selected_append, not_or] at unselected
    have miss : target ≠ index := fun hit => unselected.2 (hit ▸ original)
    rw [List.getElem?_modify_ne edit current miss]
    exact progress.kept index item read unselected.1
  · intro index item outside read
    have miss : target ≠ index := by omega
    rw [List.getElem?_modify_ne edit current miss] at read
    exact progress.added index item outside read

/-- A key not found in the original list changes only what follows it. -/
private theorem Progress.behind (absent : items.findIdx? (fits key) = none) {changed : List α}
    (length_le : items.length ≤ changed.length)
    (front : ∀ index, index < items.length → changed[index]? = current[index]?)
    (added : ∀ index item, items.length ≤ index → changed[index]? = some item → new item) :
    Progress fits edit new items (keys ++ [key]) changed := by
  have sameKeys : ∀ index, Selected fits items (keys ++ [key]) index ↔
      Selected fits items keys index := by
    intro index
    rw [selected_append, absent]
    simp only [reduceCtorEq, or_false]
  refine ⟨length_le, ?_, ?_, added⟩
  · intro index item read selected
    rw [front index (List.getElem?_eq_some_iff.mp read).1]
    exact progress.edited index item read ((sameKeys index).mp selected)
  · intro index item read missed
    rw [front index (List.getElem?_eq_some_iff.mp read).1]
    exact progress.kept index item read (fun before => missed ((sameKeys index).mpr before))

/-- One more key keeps the account of what was edited. -/
theorem Progress.upsert (invariant : ∀ key item, fits key (edit item) = fits key item)
    (idempotent : ∀ item, edit (edit item) = edit item)
    (newEdit : ∀ item, new item → new (edit item))
    (newFresh : items.findIdx? (fits key) = none → ∀ item ∈ fresh key, new item) :
    Progress fits edit new items (keys ++ [key]) (upsert fits edit fresh current key) := by
  unfold FirstMatch.upsert
  obtain ⟨target, original, located⟩ | ⟨absent, beyond⟩ :=
    progress.findIdx?_cases invariant key
  · rw [located]
    exact progress.modify idempotent original
  · cases located : current.findIdx? (fits key) with
    | some target =>
        have outside := beyond target located
        apply progress.behind absent
        · simpa only [List.length_modify] using progress.length_le
        · intro index inside
          have miss : target ≠ index := by omega
          exact List.getElem?_modify_ne edit current miss
        · intro index item far read
          by_cases hit : target = index
          · rw [hit, List.getElem?_modify_eq, Option.map_eq_map, Option.map_eq_some_iff] at read
            obtain ⟨before, present, rfl⟩ := read
            exact newEdit before (progress.added index before far present)
          · rw [List.getElem?_modify_ne edit current hit] at read
            exact progress.added index item far read
    | none =>
        apply progress.behind absent
        · rw [List.length_append]
          exact Nat.le_trans progress.length_le (Nat.le_add_right _ _)
        · intro index inside
          exact List.getElem?_append_left (Nat.lt_of_lt_of_le inside progress.length_le)
        · intro index item far read
          by_cases inside : index < current.length
          · rw [List.getElem?_append_left inside] at read
            exact progress.added index item far read
          · rw [List.getElem?_append_right (Nat.le_of_not_lt inside)] at read
            exact newFresh absent item (List.mem_of_getElem? read)

end Step

/-- **What a loop over keys edits.** The first elements found for the keys in the
original list are edited once, the other elements stay, and all that is appended
is new, made for keys that were not found. -/
theorem progress_upsertAll {new : α → Prop} {items : List α}
    (invariant : ∀ key item, fits key (edit item) = fits key item)
    (idempotent : ∀ item, edit (edit item) = edit item)
    (newEdit : ∀ item, new item → new (edit item)) (keys : List κ)
    (newFresh : ∀ key ∈ keys, items.findIdx? (fits key) = none →
      ∀ item ∈ fresh key, new item) :
    Progress fits edit new items keys (upsertAll fits edit fresh items keys) := by
  have extended : ∀ (rest done : List κ) (current : List α),
      (∀ key ∈ rest, items.findIdx? (fits key) = none → ∀ item ∈ fresh key, new item) →
      Progress fits edit new items done current →
      Progress fits edit new items (done ++ rest) (upsertAll fits edit fresh current rest) := by
    intro rest
    induction rest with
    | nil =>
        intro done current _ progress
        simpa only [List.append_nil, upsertAll, List.foldl_nil] using progress
    | cons key rest ih =>
        intro done current allFresh progress
        have next : Progress fits edit new items (done ++ [key])
            (FirstMatch.upsert fits edit fresh current key) :=
          progress.upsert invariant idempotent newEdit (allFresh key List.mem_cons_self)
        have whole := ih (done ++ [key]) _
          (fun other member => allFresh other (List.mem_cons_of_mem _ member)) next
        simpa only [List.append_assoc, List.singleton_append, upsertAll, List.foldl_cons]
          using whole
  have start : Progress fits edit new items [] items := by
    refine ⟨Nat.le_refl _, ?_, fun _ _ read _ => read, ?_⟩
    · rintro index item _ ⟨key, member, _⟩
      cases member
    · intro index item outside read
      rw [List.getElem?_eq_none outside] at read
      cases read
  exact extended keys [] items newFresh start

@[simp] theorem upsert_nil (key : κ) : upsert fits edit fresh [] key = fresh key := by
  simp [upsert]

/-- The element edited is the first one that fits. -/
theorem upsert_cons (item : α) (rest : List α) (key : κ) :
    upsert fits edit fresh (item :: rest) key =
      if fits key item then edit item :: rest else item :: upsert fits edit fresh rest key := by
  unfold upsert
  rw [List.findIdx?_cons]
  by_cases fitting : fits key item = true
  · simp only [fitting, ↓reduceIte, List.modify_zero_cons]
  · simp only [fitting, Bool.false_eq_true, ↓reduceIte]
    cases rest.findIdx? (fits key) with
    | none => rfl
    | some index => simp only [Option.map_some, List.modify_succ_cons]

/-- An element that an edit would not change stays in the list. -/
theorem mem_upsert_of_fixed {item : α} {items : List α} (member : item ∈ items)
    (fixed : edit item = item) (key : κ) : item ∈ upsert fits edit fresh items key := by
  induction items with
  | nil => cases member
  | cons first rest ih =>
      rw [upsert_cons]
      rcases List.mem_cons.mp member with rfl | later
      · split
        · rw [fixed]
          exact List.mem_cons_self
        · exact List.mem_cons_self
      · split
        · exact List.mem_cons_of_mem _ later
        · exact List.mem_cons_of_mem _ (ih later)

theorem any_upsert {test : α → Bool} (stable : ∀ item, test (edit item) = test item)
    (items : List α) (key : κ) :
    (upsert fits edit fresh items key).any test =
      (items.any test || (!items.any (fits key) && (fresh key).any test)) := by
  induction items with
  | nil => simp
  | cons first rest ih =>
      rw [upsert_cons, List.any_cons]
      by_cases fitting : fits key first = true
      · simp only [fitting, ↓reduceIte, List.any_cons, stable, Bool.true_or, Bool.not_true,
          Bool.false_and, Bool.or_false]
      · simp only [fitting, Bool.false_eq_true, ↓reduceIte, List.any_cons, ih, Bool.false_or,
          Bool.or_assoc]

/-- After a loop over keys every key has an element that fits it, if its new ones do. -/
theorem any_fits_upsertAll (stable : ∀ key item, fits key (edit item) = fits key item)
    (freshFits : ∀ key, (fresh key).any (fits key) = true) (items : List α) (keys : List κ) :
    ∀ key ∈ keys, (upsertAll fits edit fresh items keys).any (fits key) = true := by
  induction keys using List.reverseRecOn with
  | nil => exact fun _ member => by cases member
  | append_singleton keys last ih =>
      intro key member
      have unfolded : upsertAll fits edit fresh items (keys ++ [last]) =
          upsert fits edit fresh (upsertAll fits edit fresh items keys) last := by
        simp only [upsertAll, List.foldl_append, List.foldl_cons, List.foldl_nil]
      rw [unfolded, any_upsert (stable key)]
      rcases List.mem_append.mp member with before | same
      · rw [ih key before, Bool.true_or]
      · rw [List.mem_singleton.mp same, freshFits last]
        cases (upsertAll fits edit fresh items keys).any (fits last) <;> rfl

/-- What edits leave alone and new elements do not have is collected as before. -/
theorem flatMap_upsertAll {β : Type*} {collect : α → List β}
    (stable : ∀ item, collect (edit item) = collect item)
    (nothing : ∀ key, (fresh key).flatMap collect = []) (items : List α) (keys : List κ) :
    (upsertAll fits edit fresh items keys).flatMap collect = items.flatMap collect := by
  have one : ∀ (items : List α) (key : κ),
      (upsert fits edit fresh items key).flatMap collect = items.flatMap collect := by
    intro items key
    induction items with
    | nil => rw [upsert_nil, nothing, List.flatMap_nil]
    | cons first rest ih =>
        rw [upsert_cons]
        split
        · rw [List.flatMap_cons, List.flatMap_cons, stable]
        · rw [List.flatMap_cons, List.flatMap_cons, ih]
  induction keys generalizing items with
  | nil => rfl
  | cons key rest ih => exact (ih _).trans (one items key)

/-- What a search finds after an edit, when it does not tell the elements that
fit the key apart. -/
theorem find?_upsert {key : κ} {test : α → Bool} (stable : ∀ item, test (edit item) = test item)
    (uniform : ∀ first second, fits key first = true → fits key second = true →
      test first = test second)
    (freshFits : ∀ item ∈ fresh key, fits key item = true) (items : List α) :
    (upsert fits edit fresh items key).find? test =
      match items.find? test with
      | some item => some (if fits key item then edit item else item)
      | none => (fresh key).find? test := by
  induction items with
  | nil => simp
  | cons item rest ih =>
      rw [upsert_cons]
      by_cases fitting : fits key item = true
      · by_cases passes : test item = true
        · simp [fitting, passes, stable]
        · have others : rest.find? test = none ∨
              ∃ other, rest.find? test = some other ∧ fits key other = false := by
            cases found : rest.find? test with
            | none => exact Or.inl rfl
            | some other =>
                refine Or.inr ⟨other, rfl, Bool.eq_false_iff.mpr fun also => passes ?_⟩
                rw [uniform item other fitting also]
                exact List.find?_some found
          simp only [fitting, ↓reduceIte, List.find?_cons, stable, passes]
          rcases others with none_passes | ⟨other, found, unfit⟩
          · have freshFails : (fresh key).find? test = none := by
              apply List.find?_eq_none.mpr
              intro other member passing
              exact passes ((uniform item other fitting (freshFits other member)).trans passing)
            simp only [none_passes, freshFails]
          · simp only [found, unfit, Bool.false_eq_true, ↓reduceIte]
      · by_cases passes : test item = true
        · simp [fitting, passes]
        · simp [fitting, passes, ih]

/-- An edit that has been made changes nothing when it is made again. -/
theorem upsert_of_find? {key : κ} {items : List α} {item : α}
    (found : items.find? (fits key) = some item) (fixed : edit item = item) :
    upsert fits edit fresh items key = items := by
  induction items with
  | nil => cases found
  | cons first rest ih =>
      rw [upsert_cons]
      by_cases fitting : fits key first = true
      · rw [List.find?_cons_of_pos fitting, Option.some.injEq] at found
        rw [if_pos fitting, found, fixed]
      · rw [List.find?_cons_of_neg fitting] at found
        simp only [fitting, Bool.false_eq_true, ↓reduceIte, ih found]

section Idempotence

variable (stable : ∀ key item, fits key (edit item) = fits key item)
  (uniform : ∀ key other first second, fits key first = true → fits key second = true →
    fits other first = fits other second)
  (freshFits : ∀ key, ∀ item ∈ fresh key, fits key item = true)
  (idempotent : ∀ item, edit (edit item) = edit item)
  (settled : ∀ key, ∃ item, (fresh key).find? (fits key) = some item ∧ edit item = item)

include stable uniform freshFits idempotent settled in
/-- After a loop over keys, the first element found for each key is an edited one. -/
theorem find?_upsertAll (keys : List κ) (items : List α) :
    ∀ key ∈ keys, ∃ item, (upsertAll fits edit fresh items keys).find? (fits key) = some item ∧
      edit item = item := by
  induction keys using List.reverseRecOn with
  | nil => exact fun _ member => by cases member
  | append_singleton keys last ih =>
      intro key member
      have unfolded : upsertAll fits edit fresh items (keys ++ [last]) =
          upsert fits edit fresh (upsertAll fits edit fresh items keys) last := by
        simp only [upsertAll, List.foldl_append, List.foldl_cons, List.foldl_nil]
      rw [unfolded, find?_upsert (stable key) (uniform last key) (freshFits last)]
      rcases List.mem_append.mp member with before | same
      · obtain ⟨item, found, fixed⟩ := ih key before
        rw [found]
        by_cases fitting : fits last item = true
        · exact ⟨edit item, by simp only [fitting, ↓reduceIte], idempotent item⟩
        · exact ⟨item, by simp only [fitting, Bool.false_eq_true, ↓reduceIte], fixed⟩
      · rw [List.mem_singleton.mp same]
        cases found : (upsertAll fits edit fresh items keys).find? (fits last) with
        | none => exact settled last
        | some item =>
            have fitting : fits last item = true := List.find?_some found
            exact ⟨edit item, by simp only [fitting, ↓reduceIte], idempotent item⟩

include stable uniform freshFits idempotent settled in
/-- **Repeating a loop over keys.** The second round changes nothing. -/
theorem upsertAll_idempotent (keys : List κ) (items : List α) :
    upsertAll fits edit fresh (upsertAll fits edit fresh items keys) keys =
      upsertAll fits edit fresh items keys := by
  have fixed := find?_upsertAll stable uniform freshFits idempotent settled keys items
  generalize upsertAll fits edit fresh items keys = edited at fixed
  have unchanged : ∀ rest : List κ, (∀ key ∈ rest, key ∈ keys) →
      upsertAll fits edit fresh edited rest = edited := by
    intro rest
    induction rest with
    | nil => exact fun _ => rfl
    | cons key rest ih =>
        intro inside
        obtain ⟨item, found, same⟩ := fixed key (inside key List.mem_cons_self)
        have step : upsertAll fits edit fresh edited (key :: rest) =
            upsertAll fits edit fresh (upsert fits edit fresh edited key) rest := rfl
        rw [step, upsert_of_find? found same]
        exact ih fun other member => inside other (List.mem_cons_of_mem _ member)
  exact unchanged keys fun _ member => member

end Idempotence

end Foundation.FirstMatch
