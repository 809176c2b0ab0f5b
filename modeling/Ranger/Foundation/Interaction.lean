import Ranger.Foundation.Run
import Ranger.Foundation.Walk

/-! # Programs that ask their surroundings

A program asks questions and goes on with the answers, which are not its own. What it may
ask depends on what it was told so far. Programs that take turns share what answers them;
what holds of each of them whatever it is told holds in every interleaving.
-/

namespace Foundation

universe u

/-- A program that asks questions, each with its own kind of answer. -/
inductive Program (ι : Type u) (ο : ι → Type u) (α : Type u) : Type u where
  | done (result : α)
  | ask (question : ι) (next : ο question → Program ι ο α)

namespace Program

variable {ι : Type u} {ο : ι → Type u} {α β ε : Type u}

def bind : Program ι ο α → (α → Program ι ο β) → Program ι ο β
  | done result, next => next result
  | ask question first, next => ask question fun answer => (first answer).bind next

instance : Monad (Program ι ο) where
  pure := done
  bind := bind

/-- The answer to a question. -/
def request (question : ι) : Program ι ο (ο question) := ask question done

/-- What a program was asked and told so far. -/
abbrev History (ο : ι → Type u) := List (Σ question, ο question)

/-- Whatever a program is told, it only asks what it may, and it is done with a result of
which the last property holds. -/
def Meets (allowed : History ο → ι → Prop) (post : History ο → α → Prop) :
    History ο → Program ι ο α → Prop
  | past, done result => post past result
  | past, ask question next => allowed past question ∧
      ∀ answer, Meets allowed post (past ++ [⟨question, answer⟩]) (next answer)

section Rules

variable {allowed : History ο → ι → Prop} {past : History ο}

theorem Meets.mono {post weaker : History ο → α → Prop} {program : Program ι ο α}
    (meets : program.Meets allowed post past)
    (weaken : ∀ now result, past <+: now → post now result → weaker now result) :
    program.Meets allowed weaker past := by
  induction program generalizing past with
  | done result => exact weaken past result (List.prefix_refl past) meets
  | ask question next ih =>
      refine ⟨meets.1, fun answer => ih answer (meets.2 answer) fun now result longer => ?_⟩
      exact weaken now result ((List.prefix_append past _).trans longer)

theorem Meets.allow {laxer : History ο → ι → Prop} {post : History ο → α → Prop}
    {program : Program ι ο α} (meets : program.Meets allowed post past)
    (lax : ∀ now question, allowed now question → laxer now question) :
    program.Meets laxer post past := by
  induction program generalizing past with
  | done result => exact meets
  | ask question next ih =>
      exact ⟨lax past question meets.1, fun answer => ih answer (meets.2 answer)⟩

theorem Meets.and {one two : History ο → α → Prop} {program : Program ι ο α}
    (first : program.Meets allowed one past) (second : program.Meets allowed two past) :
    program.Meets allowed (fun now result => one now result ∧ two now result) past := by
  induction program generalizing past with
  | done result => exact ⟨first, second⟩
  | ask question next ih =>
      exact ⟨first.1, fun answer => ih answer (first.2 answer) (second.2 answer)⟩

/-- What was asked meanwhile is what may be asked at any time. -/
theorem Meets.added {may : ι → Prop} {post : History ο → α → Prop} {program : Program ι ο α}
    (meets : program.Meets (fun _ => may) post past) :
    program.Meets (fun _ => may) (fun now result => post now result ∧
      ∃ added, now = past ++ added ∧ ∀ event ∈ added, may event.1) past := by
  induction program generalizing past with
  | done result => exact ⟨meets, [], (List.append_nil past).symm, fun _ listed => by cases listed⟩
  | ask question next ih =>
      refine ⟨meets.1, fun answer => (ih answer (meets.2 answer)).mono fun now result _ done => ?_⟩
      obtain ⟨holds, added, same, asked⟩ := done
      refine ⟨holds, ⟨question, answer⟩ :: added, ?_, fun event listed => ?_⟩
      · rw [same, List.append_assoc, List.singleton_append]
      · obtain rfl | behind := List.mem_cons.mp listed
        · exact meets.1
        · exact asked event behind

/-- One program after another. -/
theorem meets_bind {mid : History ο → α → Prop} {post : History ο → β → Prop}
    {first : Program ι ο α} {next : α → Program ι ο β} (one : first.Meets allowed mid past)
    (two : ∀ now result, past <+: now → mid now result → (next result).Meets allowed post now) :
    (first >>= next).Meets allowed post past := by
  change (first.bind next).Meets allowed post past
  induction first generalizing past with
  | done result => exact two past result (List.prefix_refl past) one
  | ask question inner ih =>
      refine ⟨one.1, fun answer => ih answer (one.2 answer) fun now result longer => ?_⟩
      exact two now result ((List.prefix_append past _).trans longer)

end Rules

/-- What a program is done with when every question has one answer. -/
def answered (oracle : (question : ι) → ο question) : Program ι ο α → α
  | done result => result
  | ask question next => (next (oracle question)).answered oracle

section Answered

variable (oracle : (question : ι) → ο question)

@[simp] theorem answered_pure (result : α) :
    (pure result : Program ι ο α).answered oracle = result := rfl

@[simp] theorem answered_request (question : ι) :
    (request question : Program ι ο _).answered oracle = oracle question := rfl

@[simp] theorem answered_bind (first : Program ι ο α) (next : α → Program ι ο β) :
    (first >>= next).answered oracle = (next (first.answered oracle)).answered oracle := by
  change (first.bind next).answered oracle = _
  induction first with
  | done result => rfl
  | ask question inner ih => exact ih (oracle question)

end Answered

end Program

open Program

/-- A program that may throw. -/
abbrev Asking (ε : Type u) (ι : Type u) (ο : ι → Type u) (α : Type u) : Type u :=
  ExceptT ε (Program ι ο) α

namespace Asking

variable {ι : Type u} {ο : ι → Type u} {α β ε γ : Type u}

/-- The answer to a question. -/
def request (question : ι) : Asking ε ι ο (ο question) := ExceptT.lift (Program.request question)

/-- Whatever it is told, a program only asks what it may, and it returns with the first
property or throws with the second one. -/
def Ensures (allowed : History ο → ι → Prop) (past : History ο) (work : Asking ε ι ο α)
    (post : History ο → α → Prop) (fails : History ο → ε → Prop) : Prop :=
  Program.Meets allowed (fun now result => match result with
    | .ok value => post now value
    | .error failure => fails now failure) past work.run

section Rules

variable {allowed : History ο → ι → Prop} {past : History ο} {fails : History ο → ε → Prop}

theorem ensures_pure {post : History ο → α → Prop} {value : α} (holds : post past value) :
    Ensures allowed past (pure value : Asking ε ι ο α) post fails := holds

theorem ensures_throw {post : History ο → α → Prop} {failure : ε} (holds : fails past failure) :
    Ensures allowed past (throw failure : Asking ε ι ο α) post fails := holds

theorem ensures_request {post : History ο → ο question → Prop} (may : allowed past question)
    (told : ∀ answer, post (past ++ [⟨question, answer⟩]) answer) :
    Ensures allowed past (request question : Asking ε ι ο _) post fails :=
  ⟨may, told⟩

/-- One program after another. -/
theorem ensures_bind {mid : History ο → α → Prop} {post : History ο → β → Prop}
    {first : Asking ε ι ο α} {next : α → Asking ε ι ο β}
    (one : Ensures allowed past first mid fails)
    (two : ∀ now value, past <+: now → mid now value →
      Ensures allowed now (next value) post fails) :
    Ensures allowed past (first >>= next) post fails := by
  refine meets_bind one fun now result longer reached => ?_
  cases result with
  | ok value => exact two now value longer reached
  | error failure => exact reached

theorem ensures_request_bind {question : ι} {next : ο question → Asking ε ι ο β}
    {post : History ο → β → Prop} (may : allowed past question)
    (rest : ∀ answer, Ensures allowed (past ++ [⟨question, answer⟩]) (next answer) post fails) :
    Ensures allowed past (request question >>= next) post fails :=
  ⟨may, rest⟩

theorem Ensures.weaken {work : Asking ε ι ο α} {post : History ο → α → Prop}
    (ensured : Ensures allowed past work post fails) {weaker : History ο → α → Prop}
    {anyway : History ο → ε → Prop}
    (returns : ∀ now value, past <+: now → post now value → weaker now value)
    (throws : ∀ now failure, past <+: now → fails now failure → anyway now failure) :
    Ensures allowed past work weaker anyway := by
  refine Meets.mono ensured fun now result longer reached => ?_
  cases result with
  | ok value => exact returns now value longer reached
  | error failure => exact throws now failure longer reached

/-- What is thrown is handled, by what is known then. -/
theorem ensures_tryCatch {post : History ο → α → Prop} {anyway : History ο → ε → Prop}
    {work : Asking ε ι ο α} {handler : ε → Asking ε ι ο α}
    (ensured : Ensures allowed past work post fails)
    (handled : ∀ now failure, past <+: now → fails now failure →
      Ensures allowed now (handler failure) post anyway) :
    Ensures allowed past (tryCatch work handler) post anyway := by
  refine meets_bind ensured fun now result longer reached => ?_
  cases result with
  | ok value => exact reached
  | error failure => exact handled now failure longer reached

/-- A loop over items keeps what every turn of it keeps. -/
theorem ensures_forM {inv : History ο → Prop} {items : List γ} {body : γ → Asking ε ι ο PUnit}
    (start : inv past)
    (turns : ∀ now, past <+: now → inv now → ∀ item ∈ items,
      Ensures allowed now (body item) (fun after _ => inv after) fails) :
    Ensures allowed past (items.forM body) (fun now _ => inv now) fails := by
  induction items generalizing past with
  | nil => exact ensures_pure start
  | cons item rest ih =>
      refine ensures_bind (turns past (List.prefix_refl past) start item List.mem_cons_self) ?_
      intro now _ longer kept
      refine ih kept fun after further holds other listed => ?_
      exact turns after (longer.trans further) holds other (List.mem_cons_of_mem item listed)

end Rules

end Asking

/-- A program that keeps a state of its own. -/
abbrev Keeping (σ ι : Type u) (ο : ι → Type u) (α : Type u) : Type u :=
  StateT σ (Program ι ο) α

namespace Keeping

variable {σ ι : Type u} {ο : ι → Type u} {α β : Type u}

/-- Ask a question and take in the answer. -/
def hear (question : ι) (take : ο question → σ → σ) : Keeping σ ι ο (ο question) := do
  let answer ← StateT.lift (Program.request question)
  modify (take answer)
  pure answer

/-- Whatever a program is told, it only asks what it may, the state it keeps records what it
was told, and it returns with the property. -/
def Records (may : ι → Prop) (record : History ο → σ) (past : History ο)
    (work : Keeping σ ι ο α) (post : History ο → α → Prop) : Prop :=
  Program.Meets (fun _ => may)
    (fun now result => result.2 = record now ∧ post now result.1) past (work.run (record past))

section Rules

variable {may : ι → Prop} {record : History ο → σ} {past : History ο}

theorem records_pure {post : History ο → α → Prop} {value : α} (holds : post past value) :
    Records may record past (pure value) post := ⟨rfl, holds⟩

theorem records_hear {question : ι} {take : ο question → σ → σ}
    {post : History ο → ο question → Prop} (allowed : may question)
    (taken : ∀ answer, take answer (record past) = record (past ++ [⟨question, answer⟩]))
    (told : ∀ answer, post (past ++ [⟨question, answer⟩]) answer) :
    Records may record past (hear question take) post :=
  ⟨allowed, fun answer => ⟨taken answer, told answer⟩⟩

/-- One program after another. -/
theorem records_bind {mid : History ο → α → Prop} {post : History ο → β → Prop}
    {first : Keeping σ ι ο α} {next : α → Keeping σ ι ο β} (one : Records may record past first mid)
    (two : ∀ now value, past <+: now → mid now value → Records may record now (next value) post) :
    Records may record past (first >>= next) post := by
  refine Program.meets_bind one fun now result longer reached => ?_
  obtain ⟨value, kept⟩ := result
  obtain ⟨same, holds⟩ := reached
  change kept = record now at same
  subst same
  exact two now value longer holds

theorem Records.weaken {post weaker : History ο → α → Prop} {work : Keeping σ ι ο α}
    (records : Records may record past work post)
    (weaken : ∀ now value, past <+: now → post now value → weaker now value) :
    Records may record past work weaker :=
  Program.Meets.mono records fun now result longer reached =>
    ⟨reached.1, weaken now result.1 longer reached.2⟩

end Rules

section Checks

variable {σ ι κ : Type} {ο : ι → Type}

/-- The second check is made when the first one has passed. -/
def andThen (first second : Keeping σ ι ο Bool) : Keeping σ ι ο Bool := do
  if ← first then second else pure false

variable {may : ι → Prop} {record : History ο → σ} {past : History ο}
  {mid post : History ο → Bool → Prop}

theorem records_andThen {first second : Keeping σ ι ο Bool}
    (one : Records may record past first mid)
    (two : ∀ now, past <+: now → mid now true → Records may record now second post)
    (fails : ∀ now, mid now false → post now false) :
    Records may record past (andThen first second) post := by
  refine records_bind one fun now passed longer reached => ?_
  cases passed with
  | true => exact two now longer reached
  | false => exact records_pure (fails now reached)

/-- A walk keeps what every check of it keeps, on the nodes that it reaches. -/
theorem records_walkM {descent : Descent κ} {check : κ → Keeping σ ι ο Bool} {reached : κ → Prop}
    (follows : ∀ node, reached node → ∀ follower ∈ descent.next node, reached follower)
    (turns : ∀ now node, reached node → post now true →
      Records may record now (check node) post)
    (stack : List κ) (within : ∀ node ∈ stack, reached node) (start : post past true) :
    Records may record past (descent.walkM check stack) post := by
  induction stack using Descent.walkM.induct descent generalizing past with
  | case1 =>
      rw [Descent.walkM]
      exact records_pure start
  | case2 node stack ih =>
      rw [Descent.walkM]
      have here : reached node := within node List.mem_cons_self
      refine records_andThen (turns past node here start) (fun now _ passed => ih ?_ passed)
        fun _ failed => failed
      intro other listed
      rcases List.mem_append.mp listed with follower | later
      · exact follows node here other follower
      · exact within other (List.mem_cons_of_mem node later)

/-- Whatever it has been told, a check that passes brings something about, which lasts. -/
def Brings (may : ι → Prop) (record : History ο → σ) (work : Keeping σ ι ο Bool)
    (holds : History ο → Prop) : Prop :=
  ∀ past, Records may record past work fun now passed => passed = true → holds now

theorem brings_pure {value : Bool} {holds : History ο → Prop}
    (always : value = true → ∀ past, holds past) : Brings may record (pure value) holds :=
  fun past => records_pure fun passed => always passed past

theorem Brings.mono {work : Keeping σ ι ο Bool} {holds weaker : History ο → Prop}
    (brings : Brings may record work holds) (weaken : ∀ now, holds now → weaker now) :
    Brings may record work weaker :=
  fun past => (brings past).weaken fun now _ _ held passed => weaken now (held passed)

/-- Two checks that pass bring both about. -/
theorem brings_andThen {first second : Keeping σ ι ο Bool} {one two : History ο → Prop}
    (lasts : ∀ now later, now <+: later → one now → one later)
    (bringsOne : Brings may record first one) (bringsTwo : Brings may record second two) :
    Brings may record (andThen first second) fun now => one now ∧ two now := by
  refine fun past => records_andThen (bringsOne past) (fun now _ held => ?_) ?_
  · refine (bringsTwo now).weaken fun later _ longer brought passed => ?_
    exact ⟨lasts now later longer (held rfl), brought passed⟩
  · intro now _ impossible
    cases impossible

/-- A walk that passes brings about what every check on it does. -/
theorem brings_walkM {descent : Descent κ} {check : κ → Keeping σ ι ο Bool}
    {holds : κ → History ο → Prop}
    (lasts : ∀ node now later, now <+: later → holds node now → holds node later)
    (brings : ∀ node, Brings may record (check node) (holds node)) (stack : List κ) :
    Brings may record (descent.walkM check stack)
      fun now => ∀ root ∈ stack, ∀ node, descent.Below root node → holds node now := by
  induction stack using Descent.walkM.induct descent with
  | case1 =>
      rw [Descent.walkM]
      exact brings_pure fun _ _ _ listed => by cases listed
  | case2 node stack ih =>
      rw [Descent.walkM]
      refine (brings_andThen (lasts node) (brings node) ih).mono fun now held root listed => ?_
      obtain ⟨here, rest⟩ := held
      intro other below
      rcases List.mem_cons.mp listed with rfl | later
      · rcases Relation.ReflTransGen.cases_head below with rfl | ⟨follower, first, reached⟩
        · exact here
        · exact rest follower (List.mem_append_left _ first) other reached
      · exact rest root (List.mem_append_right _ later) other below

end Checks

end Keeping

section Turns

variable {σ κ δ ι : Type u} {ο : ι → Type u} {α : Type u}

/-- A program that runs for its owner, with what it was told so far. -/
structure Task (κ : Type u) (ο : ι → Type u) (α : Type u) where
  owner : κ
  past : History ο
  rest : Program ι ο α

/-- Programs that take turns, and what they share. -/
structure Concurrent (σ κ : Type u) (ο : ι → Type u) (α : Type u) where
  shared : σ
  tasks : List (Task κ ο α) := []

/-- The next to happen: a program is started, asks its next question, or what is shared
changes from outside. -/
inductive Turn (κ δ : Type u) where
  | start (owner : κ)
  | proceed (task : Nat)
  | outside (change : δ)

namespace Concurrent

/-- A task asks its next question, unless it is done. -/
def proceed (serve : κ → (question : ι) → σ → ο question × σ) (state : Concurrent σ κ ο α)
    (index : Nat) : Concurrent σ κ ο α :=
  match state.tasks[index]? with
  | none => state
  | some task =>
      match task.rest with
      | .done _ => state
      | .ask question next =>
          let answer := serve task.owner question state.shared
          { shared := answer.2
            tasks := state.tasks.set index
              { task with past := task.past ++ [⟨question, answer.1⟩], rest := next answer.1 } }

variable (program : κ → Program ι ο α) (serve : κ → (question : ι) → σ → ο question × σ)
  (outside : δ → σ → σ)

def step (state : Concurrent σ κ ο α) : Turn κ δ → Unit × Concurrent σ κ ο α
  | .start owner => ((), { state with tasks := state.tasks ++ [⟨owner, [], program owner⟩] })
  | .proceed index => ((), state.proceed serve index)
  | .outside change => ((), { state with shared := outside change state.shared })

/-- What is kept of the shared state and what each task knows, with what it may still ask. -/
structure Safe (inv : σ → Prop) (known : κ → History ο → Prop)
    (allowed : κ → History ο → ι → Prop) (post : κ → History ο → α → Prop)
    (state : Concurrent σ κ ο α) : Prop where
  shared : inv state.shared
  knows : ∀ task ∈ state.tasks, known task.owner task.past
  meets : ∀ task ∈ state.tasks,
    task.rest.Meets (allowed task.owner) (post task.owner) task.past

variable {program serve outside} {inv : σ → Prop} {known : κ → History ο → Prop}
  {allowed : κ → History ο → ι → Prop} {post : κ → History ο → α → Prop}

theorem Safe.proceed {state : Concurrent σ κ ο α}
    (safe : state.Safe inv known allowed post)
    (serves : ∀ owner past question shared, known owner past → allowed owner past question →
      inv shared → inv (serve owner question shared).2 ∧
        known owner (past ++ [⟨question, (serve owner question shared).1⟩])) (index : Nat) :
    (state.proceed serve index).Safe inv known allowed post := by
  unfold Concurrent.proceed
  split
  · exact safe
  · rename_i task found
    have listed : task ∈ state.tasks := List.mem_of_getElem? found
    have meets := safe.meets task listed
    rcases task with ⟨owner, past, rest⟩
    cases rest with
    | done result => exact safe
    | ask question next =>
        obtain ⟨may, goes⟩ := meets
        obtain ⟨kept, told⟩ :=
          serves owner past question state.shared (safe.knows _ listed) may safe.shared
        refine ⟨kept, fun other member => ?_, fun other member => ?_⟩
        · obtain before | rfl := List.mem_or_eq_of_mem_set member
          · exact safe.knows other before
          · exact told
        · obtain before | rfl := List.mem_or_eq_of_mem_set member
          · exact safe.meets other before
          · exact goes _

/-- **Interleavings.** When each program only asks what it may whatever it is told, and
answering what may be asked keeps the shared state and what is known, this stays so in
every run, however the programs take turns. -/
theorem safe_of_run (fair : Turn κ δ → Prop)
    (programs : ∀ owner, fair (.start owner) →
      known owner [] ∧ (program owner).Meets (allowed owner) (post owner) [])
    (serves : ∀ owner past question shared, known owner past → allowed owner past question →
      inv shared → inv (serve owner question shared).2 ∧
        known owner (past ++ [⟨question, (serve owner question shared).1⟩]))
    (changes : ∀ change shared, fair (.outside change) → inv shared →
      inv (outside change shared))
    {state : Concurrent σ κ ο α} (safe : state.Safe inv known allowed post)
    {turns : List (Turn κ δ)} (all : ∀ turn ∈ turns, fair turn) :
    (Run.final (step program serve outside) state turns).Safe inv known allowed post := by
  induction turns generalizing state with
  | nil => exact safe
  | cons turn rest ih =>
      refine ih ?_ fun later listed => all later (List.mem_cons_of_mem turn listed)
      have now := all turn List.mem_cons_self
      cases turn with
      | start owner =>
          obtain ⟨knows, meets⟩ := programs owner now
          refine ⟨safe.shared, fun task member => ?_, fun task member => ?_⟩
          · obtain before | added := List.mem_append.mp member
            · exact safe.knows task before
            · rw [List.mem_singleton.mp added]
              exact knows
          · obtain before | added := List.mem_append.mp member
            · exact safe.meets task before
            · rw [List.mem_singleton.mp added]
              exact meets
      | proceed index => exact safe.proceed serves index
      | outside change =>
          exact ⟨changes change state.shared now safe.shared, safe.knows, safe.meets⟩

/-- No task asks anything but what it may. -/
def Asks (may : ι → Prop) (state : Concurrent σ κ ο α) : Prop :=
  ∀ task ∈ state.tasks, task.rest.Meets (fun _ => may) (fun _ _ => True) task.past

section Asks

variable {may : ι → Prop}

theorem Asks.proceed {state : Concurrent σ κ ο α} (asks : state.Asks may) (index : Nat) :
    (state.proceed serve index).Asks may := by
  unfold Concurrent.proceed
  split
  · exact asks
  · rename_i task found
    rcases task with ⟨owner, past, rest⟩
    cases rest with
    | done result => exact asks
    | ask question next =>
        intro other member
        obtain before | rfl := List.mem_or_eq_of_mem_set member
        · exact asks other before
        · exact (asks _ (List.mem_of_getElem? found)).2 _

theorem Asks.step {state : Concurrent σ κ ο α} (asks : state.Asks may)
    (programs : ∀ owner, (program owner).Meets (fun _ => may) (fun _ _ => True) [])
    (turn : Turn κ δ) : ((step program serve outside state turn).2).Asks may := by
  cases turn with
  | start owner =>
      intro task member
      obtain before | added := List.mem_append.mp member
      · exact asks task before
      · rw [List.mem_singleton.mp added]
        exact programs owner
  | proceed index => exact asks.proceed index
  | outside change => exact asks

/-- A task that goes on changes what is shared by what it may ask, if at all. -/
theorem Asks.proceed_shared {holds : σ → Prop} {state : Concurrent σ κ ο α}
    (asks : state.Asks may)
    (keeps : ∀ owner question, may question → holds (serve owner question state.shared).2)
    (same : holds state.shared) (index : Nat) : holds (state.proceed serve index).shared := by
  unfold Concurrent.proceed
  split
  · exact same
  · rename_i task found
    rcases task with ⟨owner, past, rest⟩
    cases rest with
    | done result => exact same
    | ask question next => exact keeps owner question (asks _ (List.mem_of_getElem? found)).1

end Asks

/-- A task of its owner, with what it knows and what it will bring about. -/
structure Attends (inv : σ → Prop) (may : ι → Prop) (owner : κ) (known : History ο → Prop)
    (post : History ο → α → Prop) (index : Nat) (state : Concurrent σ κ ο α) : Prop where
  shared : inv state.shared
  asks : state.Asks may
  task : ∃ task, state.tasks[index]? = some task ∧ task.owner = owner ∧ known task.past ∧
    task.rest.Meets (fun _ => may) post task.past

section Attends

variable {may : ι → Prop} {owner : κ} {told : History ο → Prop} {brought : History ο → α → Prop}

theorem Attends.proceed {state : Concurrent σ κ ο α} {place : Nat}
    (attends : state.Attends inv may owner told brought place)
    (keeps : ∀ other question shared, may question → inv shared →
      inv (serve other question shared).2)
    (tells : ∀ past question shared, told past → may question → inv shared →
      told (past ++ [⟨question, (serve owner question shared).1⟩])) (index : Nat) :
    (state.proceed serve index).Attends inv may owner told brought place := by
  have asks : (state.proceed serve index).Asks may := attends.asks.proceed index
  have shared := attends.asks.proceed_shared
    (fun other question allowed => keeps other question _ allowed attends.shared)
    attends.shared index
  refine ⟨shared, asks, ?_⟩
  obtain ⟨valid, _, followed, found, same, knows, meets⟩ := attends
  unfold Concurrent.proceed
  split
  · exact ⟨followed, found, same, knows, meets⟩
  · rename_i task taken
    rcases task with ⟨other, past, rest⟩
    cases rest with
    | done result => exact ⟨followed, found, same, knows, meets⟩
    | ask question next =>
        dsimp only
        by_cases here : index = place
        · subst here
          rw [taken] at found
          obtain rfl := Option.some.inj found
          subst same
          have inside := (List.getElem?_eq_some_iff.mp taken).1
          exact ⟨_, List.getElem?_set_self inside, rfl, tells _ _ _ knows meets.1 valid, meets.2 _⟩
        · refine ⟨followed, ?_, same, knows, meets⟩
          rw [List.getElem?_set_ne here, found]

/-- **What a task knows since it started.** However the programs take turns, a task knows
what each answer since its start tells, by what holds of the shared state all the time. -/
theorem attends_of_run (fair : δ → Prop)
    (programs : ∀ owner, (program owner).Meets (fun _ => may) (fun _ _ => True) [])
    (keeps : ∀ other question shared, may question → inv shared →
      inv (serve other question shared).2)
    (tells : ∀ past question shared, told past → may question → inv shared →
      told (past ++ [⟨question, (serve owner question shared).1⟩]))
    (changes : ∀ change shared, fair change → inv shared → inv (outside change shared))
    {state : Concurrent σ κ ο α} {place : Nat}
    (attends : state.Attends inv may owner told brought place)
    {turns : List (Turn κ δ)} (all : ∀ change, .outside change ∈ turns → fair change) :
    (Run.final (step program serve outside) state turns).Attends inv may owner told brought
      place := by
  induction turns generalizing state with
  | nil => exact attends
  | cons turn rest ih =>
      refine ih ?_ fun change listed => all change (List.mem_cons_of_mem turn listed)
      have asks : ((step program serve outside state turn).2).Asks may :=
        attends.asks.step programs turn
      cases turn with
      | start other =>
          obtain ⟨shared, _, followed, found, held⟩ := attends
          refine ⟨shared, asks, followed, ?_, held⟩
          exact (List.getElem?_append_left (List.getElem?_eq_some_iff.mp found).1).trans found
      | proceed index => exact attends.proceed keeps tells index
      | outside change =>
          exact ⟨changes change _ (all change List.mem_cons_self) attends.shared, asks,
            attends.task⟩

/-- A task as it starts. -/
theorem attends_start {state : Concurrent σ κ ο α} (shared : inv state.shared)
    (asks : state.Asks may)
    (programs : ∀ owner, (program owner).Meets (fun _ => may) (fun _ _ => True) [])
    (nothing : told []) (meets : (program owner).Meets (fun _ => may) brought []) :
    ((step program serve outside state (.start owner)).2).Attends inv may owner told brought
      state.tasks.length :=
  ⟨shared, asks.step programs (.start owner), _, List.getElem?_concat_length, rfl, nothing, meets⟩

end Attends

end Concurrent

/-- Everything that was asked might be asked, by what was known before. -/
def Admitted (allowed : History ο → ι → Prop) (past : History ο) : Prop :=
  ∀ before event after, past = before ++ event :: after → allowed before event.1

theorem admitted_nil {allowed : History ο → ι → Prop} : Admitted allowed [] := by
  intro before event after split
  cases before <;> cases split

theorem Admitted.snoc {allowed : History ο → ι → Prop} {past : History ο}
    (admitted : Admitted allowed past) {question : ι} (may : allowed past question)
    (answer : ο question) : Admitted allowed (past ++ [⟨question, answer⟩]) := by
  intro before event after split
  rcases List.eq_nil_or_concat after with rfl | ⟨rest, last, rfl⟩
  · obtain ⟨rfl, same⟩ := List.append_inj' split rfl
    cases same
    exact may
  · rw [List.concat_eq_append, ← List.cons_append, ← List.append_assoc] at split
    exact admitted before event rest (List.append_inj' split rfl).1

end Turns

end Foundation
