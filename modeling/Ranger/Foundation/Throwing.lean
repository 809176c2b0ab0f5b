import Mathlib.Init

/-! # Computations that may throw after changing a state

A computation returns or throws, and what it did to the state before it threw is done.
The rules below prove what holds when it returns and what holds when it throws; a
transaction takes back part of the changes of a computation that throws.
-/

namespace Foundation

universe u

/-- A computation that changes a state and may throw. -/
abbrev Throwing (ε σ α : Type u) : Type u := ExceptT ε (StateM σ) α

namespace Throwing

variable {ε σ α β ι : Type u}

/-- The outcome of a computation and the state it leaves. -/
def outcome (work : Throwing ε σ α) (state : σ) : Except ε α × σ := work state

/-- From a state with the first property a computation returns with the second one, or
throws and leaves the third one. -/
def Ensures (pre : σ → Prop) (work : Throwing ε σ α) (post : α → σ → Prop)
    (fails : σ → Prop) : Prop :=
  ∀ state, pre state →
    match work.outcome state with
    | (.ok value, next) => post value next
    | (.error _, next) => fails next

/-- The changes of a computation that throws are taken back as `restore` says, from the
state before and the one after. -/
def transactional (restore : σ → σ → σ) (work : Throwing ε σ α) : Throwing ε σ α :=
  fun state =>
    match work.outcome state with
    | (.ok value, next) => (.ok value, next)
    | (.error failure, next) => (.error failure, restore state next)

section Rules

variable {pre : σ → Prop} {fails : σ → Prop}

theorem ensures_pure {post : α → σ → Prop} {value : α}
    (holds : ∀ state, pre state → post value state) :
    Ensures pre (pure value : Throwing ε σ α) post fails := holds

theorem ensures_throw {post : α → σ → Prop} {failure : ε}
    (holds : ∀ state, pre state → fails state) :
    Ensures pre (throw failure : Throwing ε σ α) post fails := holds

theorem ensures_modify {change : σ → σ} {post : PUnit → σ → Prop}
    (holds : ∀ state, pre state → post ⟨⟩ (change state)) :
    Ensures pre (modify change : Throwing ε σ PUnit) post fails := holds

theorem outcome_bind (first : Throwing ε σ α) (next : α → Throwing ε σ β) (state : σ) :
    (first >>= next).outcome state =
      match first.outcome state with
      | (.ok value, between) => (next value).outcome between
      | (.error failure, between) => (.error failure, between) := by
  change (do
    let result ← first
    match result with
    | .ok value => next value
    | .error failure => pure (.error failure) : StateM σ (Except ε β)) state = _
  change (match first state with
    | (result, between) =>
        (match result with
        | .ok value => next value
        | .error failure => pure (.error failure) : StateM σ (Except ε β)) between) = _
  unfold outcome
  rcases first state with ⟨result, between⟩
  cases result with
  | error failure => rfl
  | ok value => rfl

/-- One computation after another. -/
theorem ensures_bind {first : Throwing ε σ α} {next : α → Throwing ε σ β}
    {mid : α → σ → Prop} {post : β → σ → Prop} (one : Ensures pre first mid fails)
    (two : ∀ value, Ensures (mid value) (next value) post fails) :
    Ensures pre (first >>= next) post fails := by
  intro state holds
  have done := one state holds
  rw [outcome_bind]
  rcases answer : first.outcome state with ⟨result, between⟩
  rw [answer] at done
  cases result with
  | error failure => exact done
  | ok value => exact two value between done

/-- What was read is the state. -/
theorem ensures_get_bind {next : σ → Throwing ε σ β} {post : β → σ → Prop}
    (rest : ∀ now, pre now → Ensures (fun state => state = now) (next now) post fails) :
    Ensures pre (get >>= next) post fails := by
  intro state holds
  exact rest state holds state rfl

theorem ensures_modify_bind {change : σ → σ} {next : PUnit → Throwing ε σ β}
    {mid : σ → Prop} {post : β → σ → Prop} (changed : ∀ state, pre state → mid (change state))
    (rest : Ensures mid (next ⟨⟩) post fails) :
    Ensures pre (modify change >>= next) post fails :=
  have one : Ensures pre (modify change : Throwing ε σ PUnit) (fun _ => mid) fails :=
    ensures_modify changed
  ensures_bind one fun _ => rest

theorem Ensures.weaken {work : Throwing ε σ α} {post : α → σ → Prop}
    (ensured : Ensures pre work post fails) {stronger : σ → Prop}
    {weaker : α → σ → Prop} {anyway : σ → Prop} (given : ∀ state, stronger state → pre state)
    (returns : ∀ value state, post value state → weaker value state)
    (throws : ∀ state, fails state → anyway state) :
    Ensures stronger work weaker anyway := by
  intro state holds
  have done := ensured state (given state holds)
  rcases answer : work.outcome state with ⟨result, next⟩
  rw [answer] at done
  cases result with
  | error failure => exact throws next done
  | ok value => exact returns value next done

theorem Ensures.strengthen {work : Throwing ε σ α} {post : α → σ → Prop}
    (ensured : Ensures pre work post fails) {stronger : σ → Prop}
    (given : ∀ state, stronger state → pre state) : Ensures stronger work post fails :=
  fun state holds => ensured state (given state holds)

theorem Ensures.at_state {work : Throwing ε σ α} {post : α → σ → Prop}
    (ensured : Ensures pre work post fails) {now : σ} (holds : pre now) :
    Ensures (fun state => state = now) work post fails :=
  ensured.strengthen fun _ isNow => isNow ▸ holds

/-- What a computation needs may be known beforehand. -/
theorem ensures_of_fact {fact : Prop} {work : Throwing ε σ α} {post : α → σ → Prop}
    (holds : ∀ state, pre state → fact) (ensured : fact → Ensures pre work post fails) :
    Ensures pre work post fails :=
  fun state given => ensured (holds state given) state given

/-- A loop keeps what every turn of it keeps. -/
theorem ensures_forM {items : List α} {body : α → Throwing ε σ PUnit}
    (turns : ∀ item ∈ items, Ensures pre (body item) (fun _ => pre) fails) :
    Ensures pre (items.forM body) (fun _ => pre) fails := by
  induction items with
  | nil => exact ensures_pure fun _ holds => holds
  | cons item rest ih =>
      apply ensures_bind (turns item List.mem_cons_self)
      exact fun _ => ih fun other listed => turns other (List.mem_cons_of_mem _ listed)

/-- A loop reaches what the turn for one of its items reaches and the other turns keep. -/
theorem ensures_forM_of_mem {items : List α} {body : α → Throwing ε σ PUnit}
    {reached : σ → Prop}
    (turns : ∀ item ∈ items, Ensures pre (body item) (fun _ => pre) fails)
    (stays : ∀ item ∈ items, Ensures reached (body item) (fun _ => reached) fails) {item : α}
    (listed : item ∈ items) (arrives : Ensures pre (body item) (fun _ => reached) fails) :
    Ensures pre (items.forM body) (fun _ => reached) fails := by
  induction items with
  | nil => cases listed
  | cons first rest ih =>
      have later : ∀ other ∈ rest, other ∈ first :: rest :=
        fun _ member => List.mem_cons_of_mem _ member
      rcases List.mem_cons.mp listed with rfl | behind
      · apply ensures_bind arrives
        exact fun _ => ensures_forM fun other member => stays other (later other member)
      · apply ensures_bind (turns first List.mem_cons_self)
        exact fun _ => ih (fun other member => turns other (later other member))
          (fun other member => stays other (later other member)) behind

theorem ensures_transactional {restore : σ → σ → σ} {work : Throwing ε σ α}
    {post : α → σ → Prop} {state : σ} (holds : pre state) (ensured : Ensures pre work post fails)
    {given : σ → Prop} (returns : ∀ value next, post value next → given next)
    (throws : ∀ next, fails next → given (restore state next)) :
    given ((transactional restore work).outcome state).2 := by
  have done := ensured state holds
  unfold transactional
  rcases answer : work.outcome state with ⟨result, next⟩
  rw [answer] at done
  unfold outcome at answer ⊢
  dsimp only [outcome]
  rw [answer]
  cases result with
  | error failure => exact throws next done
  | ok value => exact returns value next done

/-- A transaction that throws leaves what is restored. -/
theorem transactional_of_error {restore : σ → σ → σ} {work : Throwing ε σ α} {state : σ}
    {failure : ε} (threw : ((transactional restore work).outcome state).1 = .error failure) :
    ((transactional restore work).outcome state).2 = restore state (work.outcome state).2 := by
  rcases answer : work.outcome state with ⟨result, next⟩
  unfold transactional at threw ⊢
  dsimp only [outcome] at threw answer ⊢
  rw [answer] at threw ⊢
  cases result with
  | error other => rfl
  | ok value => exact nomatch threw

/-- A computation that has no way to throw returns. -/
theorem Ensures.returns {work : Throwing ε σ α} {post : α → σ → Prop}
    (ensured : Ensures pre work post fun _ => False) {state : σ} (holds : pre state) :
    ∃ value next, work.outcome state = (.ok value, next) ∧ post value next := by
  have done := ensured state holds
  rcases answer : work.outcome state with ⟨result, next⟩
  rw [answer] at done
  cases result with
  | error failure => exact done.elim
  | ok value => exact ⟨value, next, rfl, done⟩

/-- What a computation ensures holds behind a transaction that returns. -/
theorem Ensures.of_transactional_ok {restore : σ → σ → σ} {work : Throwing ε σ α}
    {post : α → σ → Prop} (ensured : Ensures pre work post fails) {state : σ} (holds : pre state)
    {value : α} (returned : ((transactional restore work).outcome state).1 = .ok value) :
    post value ((transactional restore work).outcome state).2 := by
  have done := ensured state holds
  rcases answer : work.outcome state with ⟨result, next⟩
  rw [answer] at done
  unfold transactional at returned ⊢
  dsimp only [outcome] at returned answer ⊢
  rw [answer] at returned ⊢
  cases result with
  | error other => cases returned
  | ok other =>
      cases returned
      exact done

end Rules

/-- From the changed state a computation does what it does anyway, and the change stays. -/
def Ignores (change : σ → σ) (work : Throwing ε σ α) : Prop :=
  ∀ state, work.outcome (change state) =
    ((work.outcome state).1, change (work.outcome state).2)

section Ignoring

variable {change : σ → σ}

theorem ignores_pure (value : α) : Ignores change (pure value : Throwing ε σ α) :=
  fun _ => rfl

theorem ignores_throw (failure : ε) : Ignores change (throw failure : Throwing ε σ α) :=
  fun _ => rfl

theorem ignores_modify {edit : σ → σ}
    (commutes : ∀ state, edit (change state) = change (edit state)) :
    Ignores change (modify edit : Throwing ε σ PUnit) := by
  intro state
  change ((Except.ok PUnit.unit, edit (change state)) : Except ε PUnit × σ) = _
  rw [commutes]
  rfl

theorem ignores_bind {first : Throwing ε σ α} {next : α → Throwing ε σ β}
    (one : Ignores change first) (two : ∀ value, Ignores change (next value)) :
    Ignores change (first >>= next) := by
  intro state
  rw [outcome_bind, outcome_bind, one state]
  rcases first.outcome state with ⟨result, between⟩
  cases result with
  | error failure => rfl
  | ok value => exact two value between

/-- What is done with the state must not depend on the change. -/
theorem ignores_get_bind {next : σ → Throwing ε σ β}
    (unread : ∀ now, next (change now) = next now) (rest : ∀ now, Ignores change (next now)) :
    Ignores change (get >>= next) := by
  intro state
  change (next (change state)).outcome (change state) = _
  rw [unread, rest state state]
  rfl

theorem ignores_forM {items : List ι} {body : ι → Throwing ε σ PUnit}
    (turns : ∀ item, Ignores change (body item)) : Ignores change (items.forM body) := by
  induction items with
  | nil => exact ignores_pure _
  | cons item rest ih => exact ignores_bind (turns item) fun _ => ih

end Ignoring

end Throwing

end Foundation
