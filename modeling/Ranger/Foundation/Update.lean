import Ranger.Foundation.FirstMatch

/-! # Edits that report whether they changed anything

An edit returns the edited value and a flag. An edit whose flag can be trusted
leaves the value alone when it reports no change; sequences of such edits and
edits of the first element found inherit the property.
-/

namespace Foundation.Update

universe u v

variable {σ : Type u} {ι : Type v}

/-- Without a reported change there is none. -/
def Reports (edit : σ → σ × Bool) : Prop := ∀ value, (edit value).2 = false → (edit value).1 = value

/-- One edit after another. -/
def both (first second : σ → σ × Bool) (value : σ) : σ × Bool :=
  let (value, changed) := first value
  let (value, later) := second value
  (value, changed || later)

/-- An edit for each item of a list. -/
def each (edit : ι → σ → σ × Bool) : List ι → σ → σ × Bool
  | [], value => (value, false)
  | item :: rest, value => both (edit item) (each edit rest) value

/-- An edit made on a condition. -/
def onlyIf (condition : Bool) (edit : σ → σ × Bool) (value : σ) : σ × Bool :=
  if condition then edit value else (value, false)

theorem Reports.both {first second : σ → σ × Bool} (left : Reports first)
    (right : Reports second) : Reports (both first second) := by
  intro value silent
  simp only [Update.both, Bool.or_eq_false_iff] at silent ⊢
  rw [right _ silent.2, left _ silent.1]

theorem Reports.each {edit : ι → σ → σ × Bool} (reports : ∀ item, Reports (edit item))
    (items : List ι) : Reports (each edit items) := by
  induction items with
  | nil => exact fun _ _ => rfl
  | cons item rest ih => exact (reports item).both ih

theorem Reports.onlyIf {edit : σ → σ × Bool} (reports : Reports edit) (condition : Bool) :
    Reports (onlyIf condition edit) := by
  cases condition with
  | true => exact reports
  | false => exact fun _ _ => rfl

theorem each_fst (edit : ι → σ → σ × Bool) (items : List ι) (value : σ) :
    (each edit items value).1 = items.foldl (fun current item => (edit item current).1) value := by
  induction items generalizing value with
  | nil => rfl
  | cons item rest ih => exact ih (edit item value).1

section FirstMatch

variable {κ : Type u} {α : Type v} (fits : κ → α → Bool) (edit : α → α × Bool)
  (fresh : κ → List α)

/-- Edit the first element that fits a key, or append the key's new elements. -/
def upsert (key : κ) (items : List α) : List α × Bool :=
  match items.findIdx? (fits key) with
  | some index =>
      (items.modify index fun item => (edit item).1,
        match items[index]? with
        | none => false
        | some item => (edit item).2)
  | none => (items ++ fresh key, !(fresh key).isEmpty)

theorem upsert_fst (key : κ) (items : List α) :
    (upsert fits edit fresh key items).1 =
      FirstMatch.upsert fits (fun item => (edit item).1) fresh items key := by
  unfold upsert FirstMatch.upsert
  cases items.findIdx? (fits key) with
  | none => rfl
  | some index => rfl

variable {edit}

theorem Reports.upsert (reports : Reports edit) (key : κ) :
    Reports (upsert fits edit fresh key) := by
  intro items silent
  unfold Update.upsert at silent ⊢
  cases found : items.findIdx? (fits key) with
  | none =>
      simp only [found, Bool.not_eq_false', List.isEmpty_iff] at silent
      simp only [silent, List.append_nil]
  | some index =>
      simp only [found] at silent ⊢
      cases read : items[index]? with
      | none => exact List.modify_eq_self (List.getElem?_eq_none_iff.mp read)
      | some item =>
          simp only [read] at silent
          apply List.ext_getElem?
          intro other
          by_cases same : index = other
          · subst same
            rw [List.getElem?_modify_eq, read, Option.map_eq_map, Option.map_some,
              reports item silent]
          · rw [List.getElem?_modify_ne _ _ same]

end FirstMatch

end Foundation.Update
