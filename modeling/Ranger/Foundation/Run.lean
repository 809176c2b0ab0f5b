import Mathlib.Algebra.GroupWithZero.Nat
import Mathlib.Data.List.Induction

/-! # Runs of a machine over a list of inputs

A machine reads an input, answers and moves to its next state. The rules below
take one step lemma to whole runs: an invariant of the inputs read so far and
the state, and the agreement of the answers with a function of the input alone.
-/

namespace Foundation.Run

universe u v w

variable {σ : Type u} {ι : Type v} {ο : Type w}

/-- The answers a machine gives to a list of inputs. -/
def outputs (step : σ → ι → ο × σ) : σ → List ι → List ο
  | _, [] => []
  | state, input :: rest => (step state input).1 :: outputs step (step state input).2 rest

/-- The state a machine is in after a list of inputs. -/
def final (step : σ → ι → ο × σ) : σ → List ι → σ
  | state, [] => state
  | state, input :: rest => final step (step state input).2 rest

theorem outputs_map {ρ : Type w} (step : σ → ι → ο × σ) (read : ο → ρ) (state : σ)
    (inputs : List ι) :
    outputs (fun current input => (read (step current input).1, (step current input).2)) state
      inputs = (outputs step state inputs).map read := by
  induction inputs generalizing state with
  | nil => rfl
  | cons input rest ih => simp only [outputs, List.map_cons, ih]

variable {step : σ → ι → ο × σ}

/-- **Agreement of a run.** When a step whose input is compatible with every
earlier one answers `spec` and keeps the invariant, a run over pairwise
compatible inputs answers `spec` throughout. -/
theorem outputs_eq_map {inv : List ι → σ → Prop} {compatible : ι → ι → Prop} {spec : ι → ο}
    (agrees : ∀ past state input, inv past state → (∀ earlier ∈ past, compatible earlier input) →
      (step state input).1 = spec input ∧ inv (past ++ [input]) (step state input).2) :
    ∀ (inputs past : List ι) (state : σ), inv past state → (past ++ inputs).Pairwise compatible →
      outputs step state inputs = inputs.map spec := by
  intro inputs
  induction inputs with
  | nil => intro past state _ _; rfl
  | cons input rest ih =>
      intro past state holds pairwise
      have earlier : ∀ before ∈ past, compatible before input := by
        intro before member
        exact (List.pairwise_append.mp pairwise).2.2 before member input List.mem_cons_self
      obtain ⟨answer, next⟩ := agrees past state input holds earlier
      have tail := ih (past ++ [input]) (step state input).2 next
        (by simpa only [List.append_assoc, List.singleton_append] using pairwise)
      simp only [outputs, List.map_cons, answer, tail]

/-- **Compatibility forced by a run.** When an answer `spec` given after few
enough inputs forces compatibility with every earlier input and keeps the
invariant, a run that answers `spec` throughout has pairwise compatible inputs. -/
theorem pairwise_of_outputs_eq_map {inv : List ι → σ → Prop} {compatible : ι → ι → Prop}
    {spec : ι → ο} {bound : Nat}
    (forces : ∀ past state input, past.length < bound → inv past state →
      (step state input).1 = spec input →
      (∀ earlier ∈ past, compatible earlier input) ∧
        inv (past ++ [input]) (step state input).2) :
    ∀ (inputs past : List ι) (state : σ), inv past state → past.Pairwise compatible →
      (past ++ inputs).length ≤ bound → outputs step state inputs = inputs.map spec →
      (past ++ inputs).Pairwise compatible := by
  intro inputs
  induction inputs with
  | nil =>
      intro past state _ pairwise _ _
      simpa only [List.append_nil] using pairwise
  | cons input rest ih =>
      intro past state holds pairwise short same
      simp only [outputs, List.map_cons, List.cons.injEq] at same
      have room : past.length < bound := by
        simp only [List.length_append, List.length_cons] at short
        omega
      obtain ⟨earlier, next⟩ := forces past state input room holds same.1
      have extended : (past ++ [input]).Pairwise compatible := by
        refine List.pairwise_append.mpr ⟨pairwise, List.pairwise_singleton _ _, ?_⟩
        intro before member current last
        rw [List.mem_singleton.mp last]
        exact earlier before member
      have whole := ih (past ++ [input]) (step state input).2 next extended
        (by simpa only [List.append_assoc, List.singleton_append] using short) same.2
      simpa only [List.append_assoc, List.singleton_append] using whole

theorem final_append (step : σ → ι → ο × σ) (state : σ) (first second : List ι) :
    final step state (first ++ second) = final step (final step state first) second := by
  induction first generalizing state with
  | nil => rfl
  | cons input rest ih => exact ih (step state input).2

/-- Every step of a run is allowed in the state it is taken in. -/
def Throughout (step : σ → ι → ο × σ) (allowed : σ → ι → Prop) : σ → List ι → Prop
  | _, [] => True
  | state, input :: rest => allowed state input ∧ Throughout step allowed (step state input).2 rest

instance Throughout.decidable (step : σ → ι → ο × σ) (allowed : σ → ι → Prop)
    [∀ state input, Decidable (allowed state input)] :
    ∀ state inputs, Decidable (Throughout step allowed state inputs)
  | _, [] => .isTrue trivial
  | state, input :: rest =>
      have := Throughout.decidable step allowed (step state input).2 rest
      inferInstanceAs (Decidable
        (allowed state input ∧ Throughout step allowed (step state input).2 rest))

theorem Throughout.at_split {allowed : σ → ι → Prop} {state : σ} {inputs : List ι}
    (throughout : Throughout step allowed state inputs) :
    ∀ done input rest, inputs = done ++ input :: rest → allowed (final step state done) input := by
  intro done
  induction done generalizing state inputs with
  | nil =>
      intro input rest split
      subst split
      exact throughout.1
  | cons first done ih =>
      intro input rest split
      subst split
      exact ih throughout.2 input rest rfl

theorem throughout_append {allowed : σ → ι → Prop} {state : σ} {first second : List ι} :
    Throughout step allowed state (first ++ second) ↔
      Throughout step allowed state first ∧
        Throughout step allowed (final step state first) second := by
  induction first generalizing state with
  | nil => exact (and_iff_right trivial).symm
  | cons input rest ih => exact (and_congr_right fun _ => ih).trans and_assoc.symm

/-- **Runs allowed in two ways.** Where the steps that keep an invariant are allowed in one
way exactly when they are in another, so are the runs of such steps. -/
theorem throughout_congr {inv : σ → Prop} {allowed keeps : σ → ι → Prop}
    (steps : ∀ state input, inv state → (allowed state input ↔ keeps state input))
    (kept : ∀ state input, inv state → keeps state input → inv (step state input).2) :
    ∀ (inputs : List ι) {state : σ}, inv state →
      (Throughout step allowed state inputs ↔ Throughout step keeps state inputs) := by
  intro inputs
  induction inputs with
  | nil => exact fun _ => Iff.rfl
  | cons input rest ih =>
      intro state holds
      refine (and_congr_left' (steps state input holds)).trans (and_congr_right fun keep => ?_)
      exact ih (kept state input holds keep)

/-- An invariant kept by allowed steps holds after every part of a run of them. -/
theorem forall_prefix_of_allowed {inv : σ → Prop} {allowed : σ → ι → Prop}
    (steps : ∀ state input, inv state → allowed state input → inv (step state input).2)
    {state : σ} (start : inv state) {inputs : List ι}
    (within : ∀ done input rest, inputs = done ++ input :: rest →
      allowed (final step state done) input) :
    ∀ done rest, inputs = done ++ rest → inv (final step state done) := by
  intro done
  induction done using List.reverseRecOn with
  | nil => exact fun _ _ => start
  | append_singleton done input ih =>
      intro rest split
      have split' : inputs = done ++ input :: rest := by simpa using split
      rw [final_append]
      exact steps _ input (ih _ split') (within done input rest split')

/-- **Properties that allowed steps may break.** Beside an invariant of the allowed
steps, a property holds after every part of a run of them exactly when every step
of the run keeps it. -/
theorem forall_prefix_iff_of_allowed {inv property : σ → Prop} {allowed keeps : σ → ι → Prop}
    (invariant : ∀ state input, inv state → allowed state input → inv (step state input).2)
    (steps : ∀ state input, inv state → allowed state input → property state →
      (property (step state input).2 ↔ keeps state input))
    {state : σ} (start : inv state) (first : property state) {inputs : List ι}
    (within : ∀ done input rest, inputs = done ++ input :: rest →
      allowed (final step state done) input) :
    (∀ done rest, inputs = done ++ rest → property (final step state done)) ↔
      ∀ done input rest, inputs = done ++ input :: rest →
        keeps (final step state done) input := by
  have always := forall_prefix_of_allowed invariant start within
  constructor
  · intro throughout done input rest split
    have before := throughout done (input :: rest) split
    have after := throughout (done ++ [input]) rest (by simp [split])
    rw [final_append] at after
    exact (steps _ input (always done _ split) (within done input rest split) before).mp after
  · intro kept done
    induction done using List.reverseRecOn with
    | nil => exact fun _ _ => first
    | append_singleton done input ih =>
        intro rest split
        have split' : inputs = done ++ input :: rest := by simpa using split
        rw [final_append]
        exact (steps _ input (always done _ split') (within done input rest split')
          (ih _ split')).mpr (kept done input rest split')

/-- **Invariants that steps may break.** A property of states holds after every
part of a run exactly when every step of the run is one that keeps it. -/
theorem forall_prefix_iff {inv : σ → Prop} {keeps : σ → ι → Prop}
    (steps : ∀ state input, inv state → (inv (step state input).2 ↔ keeps state input))
    {state : σ} (start : inv state) (inputs : List ι) :
    (∀ done rest, inputs = done ++ rest → inv (final step state done)) ↔
      ∀ done input rest, inputs = done ++ input :: rest →
        keeps (final step state done) input := by
  have unconditional : ∀ state input, True → True → inv state →
      (inv (step state input).2 ↔ keeps state input) :=
    fun state input _ _ holds => steps state input holds
  exact forall_prefix_iff_of_allowed (fun _ _ _ _ => trivial) unconditional trivial start
    fun _ _ _ _ => trivial

/-- **Progress.** A measure that stays at zero, and that an allowed step lowers by the gain
of its input and raises by its cost at most, is zero at the end of a run or was lowered by
as much as the gains exceed the costs. -/
theorem measure_final_le {inv : σ → Prop} {allowed : σ → ι → Prop} {measure : σ → Nat}
    {gain cost : ι → Nat}
    (kept : ∀ state input, inv state → allowed state input → inv (step state input).2)
    (rests : ∀ state input, inv state → allowed state input → measure state = 0 →
      measure (step state input).2 = 0)
    (lowers : ∀ state input, inv state → allowed state input →
      measure (step state input).2 = 0 ∨
        measure (step state input).2 + gain input ≤ measure state + cost input) :
    ∀ {inputs : List ι} {state : σ}, inv state →
      (∀ done input rest, inputs = done ++ input :: rest → allowed (final step state done) input) →
      (measure state = 0 → measure (final step state inputs) = 0) ∧
      (measure (final step state inputs) = 0 ∨
        measure (final step state inputs) + (inputs.map gain).sum ≤
          measure state + (inputs.map cost).sum) := by
  intro inputs
  induction inputs with
  | nil => exact fun _ _ => ⟨id, .inr (Nat.le_refl _)⟩
  | cons input rest ih =>
      intro state holds within
      have first := within [] input rest rfl
      have next := @ih (step state input).2 (kept state input holds first)
        fun done later behind split => within (input :: done) later behind (by rw [split]; rfl)
      refine ⟨fun zero => next.1 (rests state input holds first zero), ?_⟩
      rcases lowers state input holds first with zero | lower
      · exact .inl (next.1 zero)
      · rcases next.2 with zero | rest
        · exact .inl zero
        · refine .inr ?_
          simp only [final, List.map_cons, List.sum_cons] at rest ⊢
          omega

end Foundation.Run
