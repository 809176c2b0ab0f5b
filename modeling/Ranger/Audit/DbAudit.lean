import Mathlib.Data.List.Induction
import Mathlib.Data.List.Infix

/-! # Audits in a database

A batch of events is persisted one by one into an open transaction, which is committed
after each event or after a number of them. A failure ends the batch: what was persisted
before it is committed, stays in the open transaction, or goes with it.
-/

namespace Ranger

structure EntityTransaction (ε : Type) where
  persisted : List ε := []
  rollbackOnly : Bool := false

structure EntityManager (ε : Type) where
  transaction : Option (EntityTransaction ε) := none

/-- The provider with its connection and the rows that are committed. -/
structure DbAuditProvider (ε : Type) where
  mCommitBatchSize : Int := 1
  mDbRetryMinIntervalMs : Int := 60 * 1000
  mLastDbFailedTime : Int := 0
  mUncommitted : List ε := []
  entityManager : Option (EntityManager ε) := none
  committed : List ε := []

/-- What becomes of a `persist`. One that throws may mark the transaction for rollback. -/
inductive PersistAnswer where
  | persisted
  | thrown (setRollbackOnly : Bool)
  deriving DecidableEq

/-- What the database answers while an event is logged, and the time. -/
structure DbAnswers where
  now : Int := 0
  connects : Bool := true
  begins : Bool := true
  persist : PersistAnswer := .persisted
  commits : Bool := true

/-- An event with the answers to it. -/
structure DbAttempt (ε : Type) extends DbAnswers where
  event : ε

namespace DbAuditProvider

variable {ε : Type} (provider : DbAuditProvider ε)

section Calls

variable (answers : DbAnswers)

def transaction? : Option (EntityTransaction ε) :=
  provider.entityManager.bind (·.transaction)

def logDbError (now : Int) : DbAuditProvider ε :=
  if now - provider.mLastDbFailedTime > provider.mDbRetryMinIntervalMs then
    { provider with mLastDbFailedTime := now }
  else provider

def cleanUp : DbAuditProvider ε := { provider with entityManager := none }

def init : Bool × DbAuditProvider ε :=
  if answers.now - provider.mLastDbFailedTime < provider.mDbRetryMinIntervalMs then
    (false, provider)
  else if answers.connects then (true, { provider with entityManager := some {} })
  else (false, (provider.logDbError answers.now).cleanUp)

/-- A `begin` that throws is caught in `log`. -/
def beginTransaction : Bool × DbAuditProvider ε :=
  match provider.entityManager with
  | none => (false, provider)
  | some entityManager =>
      if entityManager.transaction.isSome then (true, provider)
      else if answers.begins then
        (true, { provider with entityManager := some { transaction := some {} } })
      else (false, provider.logDbError answers.now)

/-- A commit that fails closes the connection, and the transaction is lost. -/
def commitTransaction : Bool × DbAuditProvider ε :=
  match provider.transaction? with
  | none => (false, (provider.logDbError answers.now).cleanUp)
  | some transaction =>
      if !transaction.rollbackOnly && answers.commits then
        (true,
          { provider with
            entityManager := some {}
            committed := provider.committed ++ transaction.persisted })
      else (false, (provider.logDbError answers.now).cleanUp)

def preCreate : Bool × DbAuditProvider ε :=
  let (ret, provider) :=
    if provider.entityManager.isSome then (true, provider) else provider.init answers
  if ret && provider.transaction?.isNone then provider.beginTransaction answers
  else (ret, provider)

def postCreate (event : ε) : Bool × DbAuditProvider ε :=
  if provider.mCommitBatchSize ≤ 1 then provider.commitTransaction answers
  else
    let provider := { provider with mUncommitted := provider.mUncommitted ++ [event] }
    if (provider.mUncommitted.length : Int) % provider.mCommitBatchSize = 0 then
      let (ret, provider) := provider.commitTransaction answers
      (ret, { provider with mUncommitted := [] })
    else (true, provider)

/-- Change the open transaction. -/
def modifyTransaction (change : EntityTransaction ε → EntityTransaction ε) : DbAuditProvider ε :=
  { provider with
    entityManager := provider.entityManager.map fun entityManager =>
      { transaction := entityManager.transaction.map change } }

def flush : DbAuditProvider ε :=
  if provider.mUncommitted ≠ [] then
    { (provider.commitTransaction answers).2 with mUncommitted := [] }
  else provider

end Calls

def log (attempt : DbAttempt ε) : Bool × DbAuditProvider ε :=
  match provider.preCreate attempt.toDbAnswers with
  | (false, provider) => (false, provider)
  | (true, provider) =>
      match attempt.persist with
      | .persisted =>
          (provider.modifyTransaction fun transaction =>
            { transaction with persisted := transaction.persisted ++ [attempt.event] }).postCreate
              attempt.toDbAnswers attempt.event
      | .thrown setRollbackOnly =>
          (false, (provider.modifyTransaction fun transaction =>
            { transaction with
              rollbackOnly := transaction.rollbackOnly || setRollbackOnly }).logDbError attempt.now)

/-- The first event that fails ends the batch. -/
def logAll : DbAuditProvider ε → List (DbAttempt ε) → Bool × DbAuditProvider ε
  | provider, [] => (true, provider)
  | provider, attempt :: rest =>
      match provider.log attempt with
      | (true, provider) => logAll provider rest
      | (false, provider) => (false, provider)

/-- The open transaction, or the one that is opened next. -/
def current : EntityTransaction ε := provider.transaction?.getD {}

/-- Whether the open transaction can only be rolled back. -/
def isDoomed : Bool := provider.current.rollbackOnly

/-- What is committed, and what the open transaction still commits. -/
def endsUp : List ε :=
  provider.committed ++ if provider.isDoomed then [] else provider.current.persisted

/-- **All or nothing.** Of a batch that fails nothing ends up committed, of one that succeeds
everything does. -/
structure AllOrNothing (batch : List (DbAttempt ε)) (outcome : Bool × DbAuditProvider ε) :
    Prop where
  nothing : outcome.1 = false → outcome.2.endsUp <+: provider.endsUp
  all : outcome.1 = true → outcome.2.endsUp = provider.endsUp ++ batch.map (·.event)

/-- Whether there is a commit behind an event of a batch, counted from zero. -/
def CommitsAfter (index : Nat) : Prop :=
  provider.mCommitBatchSize ≤ 1 ∨
    ((provider.mUncommitted.length : Int) + index + 1) % provider.mCommitBatchSize = 0

/-- A transaction is open or can be opened. -/
def Ready (answers : DbAnswers) : Prop :=
  provider.transaction?.isSome = true ∨
    (provider.entityManager.isSome = true ∨
      provider.mDbRetryMinIntervalMs ≤ answers.now - provider.mLastDbFailedTime ∧
        answers.connects = true) ∧ answers.begins = true

/-- Behind the first event, a transaction is opened only after a commit. -/
def ReadyAt : Nat → DbAnswers → Prop
  | 0, answers => provider.Ready answers
  | index + 1, answers => provider.CommitsAfter index → answers.begins = true

/-- An event of a batch that fails, where those before it did not. -/
def FailsAt (index : Nat) (answers : DbAnswers) : Prop :=
  ¬provider.ReadyAt index answers ∨ answers.persist ≠ .persisted ∨
    provider.CommitsAfter index ∧ (provider.isDoomed = true ∨ answers.commits = false)

/-- None of the events fails. -/
def Succeeds (batch : List (DbAttempt ε)) : Prop :=
  ∀ index attempt, batch[index]? = some attempt → ¬provider.FailsAt index attempt.toDbAnswers

/-- A failure behind others leaves nothing of them: there was no commit before, and the open
transaction is lost or was doomed. -/
def FailsWhole (done : List (DbAttempt ε)) (attempt : DbAttempt ε) : Prop :=
  done = [] ∨ provider.isDoomed = true ∨
    (∀ index < done.length, ¬provider.CommitsAfter index) ∧ attempt.persist ≠ .thrown false

/-- No event fails and the open transaction is not doomed, or the first that fails takes those
before it with it. -/
def StaysWhole (batch : List (DbAttempt ε)) : Prop :=
  (provider.Succeeds batch ∧ (provider.isDoomed = true → batch = [])) ∨
    ∃ done attempt rest, batch = done ++ attempt :: rest ∧ provider.Succeeds done ∧
      provider.FailsAt done.length attempt.toDbAnswers ∧ provider.FailsWhole done attempt

section Log

variable {provider} {attempt : DbAttempt ε}

@[simp] theorem transaction?_logDbError (now : Int) :
    (provider.logDbError now).transaction? = provider.transaction? := by
  unfold logDbError
  split <;> rfl

@[simp] theorem committed_logDbError (now : Int) :
    (provider.logDbError now).committed = provider.committed := by
  unfold logDbError
  split <;> rfl

/-- The provider with a transaction that is open. -/
def within (provider : DbAuditProvider ε) (transaction : EntityTransaction ε) :
    DbAuditProvider ε :=
  { provider with entityManager := some { transaction := some transaction } }

theorem preCreate_of_ready {answers : DbAnswers} (ready : provider.Ready answers) :
    provider.preCreate answers = (true, provider.within provider.current) := by
  obtain ⟨_, _, _, _, entityManager, _⟩ := provider
  match entityManager with
  | some ⟨some transaction⟩ => rfl
  | some ⟨none⟩ =>
      have begins : answers.begins = true := by simpa [Ready, transaction?] using ready
      simp [preCreate, beginTransaction, transaction?, current, within, begins]
  | none =>
      obtain ⟨⟨late, connects⟩, begins⟩ :
          (_ ∧ answers.connects = true) ∧ answers.begins = true := by
        simpa [Ready, transaction?] using ready
      simp [preCreate, init, beginTransaction, transaction?, current, within, begins, connects,
        Int.not_lt.mpr late]

theorem preCreate_of_not_ready {answers : DbAnswers} (unready : ¬provider.Ready answers) :
    (provider.preCreate answers).1 = false ∧
      (provider.preCreate answers).2.transaction? = provider.transaction? ∧
      (provider.preCreate answers).2.committed = provider.committed := by
  have closed : provider.transaction? = none := by
    by_contra opened
    exact unready (.inl (Option.isSome_iff_ne_none.mpr opened))
  rw [closed]
  by_cases connected : provider.entityManager.isSome = true
  · obtain ⟨entityManager, found⟩ := Option.isSome_iff_exists.mp connected
    have none : entityManager.transaction = none := by simpa [transaction?, found] using closed
    have begins : answers.begins = false := Bool.eq_false_iff.mpr fun begins =>
      unready (.inr ⟨.inl connected, begins⟩)
    have performed : provider.preCreate answers = (false, provider.logDbError answers.now) := by
      simp [preCreate, beginTransaction, closed, found, none, begins]
    rw [performed]
    exact ⟨rfl, (transaction?_logDbError _).trans closed, committed_logDbError _⟩
  · simp only [preCreate, connected, Bool.false_eq_true, ↓reduceIte]
    by_cases early : answers.now - provider.mLastDbFailedTime < provider.mDbRetryMinIntervalMs
    · simp [init, early, closed]
    · by_cases connects : answers.connects = true
      · have begins : answers.begins = false := Bool.eq_false_iff.mpr fun begins =>
          unready (.inr ⟨.inr ⟨Int.not_lt.mp early, connects⟩, begins⟩)
        have performed : ({ provider with entityManager := some {} } :
            DbAuditProvider ε).beginTransaction answers =
              (false, { provider with entityManager := some {} }.logDbError answers.now) := by
          simp [beginTransaction, begins]
        simp only [init, early, connects, ↓reduceIte, Bool.true_and]
        rw [if_pos (by rfl), performed]
        exact ⟨rfl, transaction?_logDbError _, committed_logDbError _⟩
      · simp [init, early, connects, cleanUp, transaction?]

@[simp] theorem current_within (transaction : EntityTransaction ε) :
    (provider.within transaction).current = transaction := rfl

@[simp] theorem committed_within (transaction : EntityTransaction ε) :
    (provider.within transaction).committed = provider.committed := rfl

/-- What ends up committed depends on the rows and the transaction. -/
theorem endsUp_congr {after : DbAuditProvider ε} (committed : after.committed = provider.committed)
    (same : after.transaction? = provider.transaction?) : after.endsUp = provider.endsUp := by
  unfold endsUp isDoomed current
  rw [committed, same]

theorem endsUp_of_no_transaction (none : provider.transaction? = none) :
    provider.endsUp = provider.committed := by
  unfold endsUp isDoomed current
  rw [none]
  exact List.append_nil _

theorem endsUp_within (transaction : EntityTransaction ε) :
    (provider.within transaction).endsUp =
      provider.committed ++ if transaction.rollbackOnly then [] else transaction.persisted := rfl

/-- An event that cannot be persisted, or finds no transaction, leaves the open transaction
or dooms it. -/
theorem log_of_unready (unready : ¬provider.Ready attempt.toDbAnswers) :
    (provider.log attempt).1 = false ∧ (provider.log attempt).2.endsUp = provider.endsUp := by
  obtain ⟨refused, same, committed⟩ := preCreate_of_not_ready unready
  unfold log
  revert refused same committed
  match provider.preCreate attempt.toDbAnswers with
  | (false, after) => exact fun _ same committed => ⟨rfl, endsUp_congr committed same⟩
  | (true, _) => exact fun refused => nomatch refused

theorem log_of_thrown (ready : provider.Ready attempt.toDbAnswers) {setRollbackOnly : Bool}
    (thrown : attempt.persist = .thrown setRollbackOnly) :
    (provider.log attempt).1 = false ∧ (provider.log attempt).2.endsUp =
      if setRollbackOnly then provider.committed else provider.endsUp := by
  have performed : provider.log attempt = (false, (provider.within
      { provider.current with
        rollbackOnly := provider.current.rollbackOnly || setRollbackOnly }).logDbError
          attempt.now) := by
    unfold log
    rw [preCreate_of_ready ready]
    simp only [thrown]
    rfl
  rw [performed]
  refine ⟨rfl, ?_⟩
  rw [endsUp_congr (committed_logDbError _) (transaction?_logDbError _), endsUp_within]
  cases setRollbackOnly with
  | true => simp only [Bool.or_true, ↓reduceIte, List.append_nil]
  | false =>
      simp only [Bool.or_false, Bool.false_eq_true, ↓reduceIte]
      rfl

/-- The provider whose transaction has one more event. -/
def persist (provider : DbAuditProvider ε) (event : ε) : DbAuditProvider ε :=
  provider.within
    { provider.current with persisted := provider.current.persisted ++ [event] }

theorem endsUp_persist (provider : DbAuditProvider ε) (event : ε) :
    (provider.persist event).endsUp =
      provider.endsUp ++ if provider.isDoomed then [] else [event] := by
  unfold endsUp
  rw [show (provider.persist event).isDoomed = provider.isDoomed from rfl, List.append_assoc]
  cases provider.isDoomed with
  | true => rfl
  | false => rfl

theorem log_of_persisted (ready : provider.Ready attempt.toDbAnswers)
    (persisted : attempt.persist = .persisted) :
    provider.log attempt =
      (provider.persist attempt.event).postCreate attempt.toDbAnswers attempt.event := by
  unfold log
  rw [preCreate_of_ready ready]
  simp only [persisted]
  rfl

/-- Between the commits the event waits in the transaction. -/
theorem log_of_waiting (ready : provider.Ready attempt.toDbAnswers)
    (persisted : attempt.persist = .persisted) (waits : ¬provider.CommitsAfter 0) :
    provider.log attempt =
      (true,
        { provider.persist attempt.event with
          mUncommitted := provider.mUncommitted ++ [attempt.event] }) := by
  obtain ⟨batched, between⟩ := not_or.mp waits
  rw [log_of_persisted ready persisted]
  have apart : ¬(((provider.mUncommitted ++ [attempt.event]).length : Int) %
      provider.mCommitBatchSize = 0) := by
    simpa using between
  exact (if_neg batched).trans (if_neg apart)

theorem commitTransaction_of_some {answers : DbAnswers} {transaction : EntityTransaction ε}
    (found : provider.transaction? = some transaction) :
    provider.commitTransaction answers =
      if !transaction.rollbackOnly && answers.commits then
        (true,
          { provider with
            entityManager := some {}
            committed := provider.committed ++ transaction.persisted })
      else (false, (provider.logDbError answers.now).cleanUp) := by
  unfold commitTransaction
  rw [found]

/-- At a commit that succeeds, all that waited is committed with the event. -/
theorem log_of_committed (ready : provider.Ready attempt.toDbAnswers)
    (persisted : attempt.persist = .persisted) (reached : provider.CommitsAfter 0)
    (healthy : provider.isDoomed = false) (commits : attempt.commits = true) :
    ∃ mUncommitted, (1 < provider.mCommitBatchSize → mUncommitted = []) ∧
      provider.log attempt =
        (true,
          { provider with
            mUncommitted := mUncommitted
            entityManager := some {}
            committed := provider.endsUp ++ [attempt.event] }) := by
  have ends : provider.endsUp ++ [attempt.event] =
      provider.committed ++ (provider.current.persisted ++ [attempt.event]) := by
    rw [endsUp, healthy, if_neg Bool.false_ne_true, List.append_assoc]
  have both : (!provider.isDoomed && attempt.commits) = true := by rw [healthy, commits]; rfl
  rw [log_of_persisted ready persisted, ends]
  by_cases single : provider.mCommitBatchSize ≤ 1
  · refine ⟨provider.mUncommitted, fun batched => absurd single (Int.not_le.mpr batched), ?_⟩
    exact (if_pos single).trans ((commitTransaction_of_some rfl).trans (if_pos both))
  · have full : ((provider.mUncommitted ++ [attempt.event]).length : Int) %
        provider.mCommitBatchSize = 0 := by
      simpa using reached.resolve_left single
    refine ⟨[], fun _ => rfl, (if_neg single).trans ((if_pos full).trans ?_)⟩
    rw [commitTransaction_of_some rfl]
    rw [show (!EntityTransaction.rollbackOnly _ && DbAnswers.commits _) = true from both]
    rfl

/-- At a commit that fails, all that waited is lost. -/
theorem log_of_lost (ready : provider.Ready attempt.toDbAnswers)
    (persisted : attempt.persist = .persisted) (reached : provider.CommitsAfter 0)
    (lost : provider.isDoomed = true ∨ attempt.commits = false) :
    (provider.log attempt).1 = false ∧ (provider.log attempt).2.endsUp = provider.committed := by
  have either : (!provider.isDoomed && attempt.commits) = false := by
    obtain doomed | refused := lost
    · rw [doomed]
      rfl
    · rw [refused, Bool.and_false]
  have ended : ∀ other : DbAuditProvider ε,
      (other.logDbError attempt.now).cleanUp.transaction? = none := fun _ => rfl
  rw [log_of_persisted ready persisted]
  by_cases single : provider.mCommitBatchSize ≤ 1
  · have performed : (provider.persist attempt.event).postCreate attempt.toDbAnswers attempt.event =
        (false, ((provider.persist attempt.event).logDbError attempt.now).cleanUp) := by
      refine (if_pos single).trans ((commitTransaction_of_some rfl).trans ?_)
      exact if_neg (Bool.eq_false_iff.mp either)
    rw [performed]
    refine ⟨rfl, (endsUp_of_no_transaction (ended _)).trans ?_⟩
    exact committed_logDbError _
  · have full : ((provider.mUncommitted ++ [attempt.event]).length : Int) %
        provider.mCommitBatchSize = 0 := by
      simpa using reached.resolve_left single
    have performed : (provider.persist attempt.event).postCreate attempt.toDbAnswers attempt.event =
        (false,
          { ({ provider.persist attempt.event with
              mUncommitted := provider.mUncommitted ++ [attempt.event] }.logDbError
                attempt.now).cleanUp with
            mUncommitted := [] }) := by
      refine (if_neg single).trans ((if_pos full).trans ?_)
      rw [commitTransaction_of_some rfl]
      rw [show (!EntityTransaction.rollbackOnly _ && DbAnswers.commits _) = false from either]
      rfl
    rw [performed]
    refine ⟨rfl, (endsUp_of_no_transaction rfl).trans ?_⟩
    exact committed_logDbError _

theorem committed_prefix_endsUp (provider : DbAuditProvider ε) :
    provider.committed <+: provider.endsUp := List.prefix_append _ _

/-- An event that fails leaves what was open, or loses it. -/
theorem log_of_fails (fails : provider.FailsAt 0 attempt.toDbAnswers) :
    (provider.log attempt).1 = false ∧
      ((provider.Ready attempt.toDbAnswers ∧ attempt.persist ≠ .thrown false) ∧
          (provider.log attempt).2.endsUp = provider.committed ∨
        ¬(provider.Ready attempt.toDbAnswers ∧ attempt.persist ≠ .thrown false) ∧
          (provider.log attempt).2.endsUp = provider.endsUp) := by
  by_cases ready : provider.Ready attempt.toDbAnswers
  · cases answer : attempt.persist with
    | persisted =>
        obtain ⟨full, lost⟩ := (fails.resolve_left (not_not_intro ready)).resolve_left
          (not_not_intro answer)
        obtain ⟨refused, ends⟩ := log_of_lost ready answer full lost
        exact ⟨refused, .inl ⟨⟨ready, nofun⟩, ends⟩⟩
    | thrown setRollbackOnly =>
        obtain ⟨refused, ends⟩ := log_of_thrown ready answer
        cases setRollbackOnly with
        | true => exact ⟨refused, .inl ⟨⟨ready, by simp⟩, ends⟩⟩
        | false => exact ⟨refused, .inr ⟨fun kept => kept.2 rfl, ends⟩⟩
  · obtain ⟨refused, ends⟩ := log_of_unready ready
    exact ⟨refused, .inr ⟨fun kept => ready kept.1, ends⟩⟩

end Log

/-- What is known of the provider after events of a batch that did not fail. -/
structure After (events : List ε) (after : DbAuditProvider ε) : Prop where
  commitsAfter : ∀ index, after.CommitsAfter index ↔ provider.CommitsAfter (events.length + index)
  ready : ∀ answers, after.ReadyAt 0 answers ↔ provider.ReadyAt events.length answers
  doomed : after.isDoomed = provider.isDoomed
  endsUp : after.endsUp = provider.endsUp ++ if provider.isDoomed then [] else events
  waiting : (∀ index < events.length, ¬provider.CommitsAfter index) →
    after.committed = provider.committed
  committed : ∀ index < events.length, provider.CommitsAfter index →
    provider.endsUp.length < after.committed.length

section Batch

variable {provider} {events : List ε} {after : DbAuditProvider ε} {attempt : DbAttempt ε}

theorem After.refl : provider.After [] provider where
  commitsAfter index := by rw [List.length_nil, Nat.zero_add]
  ready _ := Iff.rfl
  doomed := rfl
  endsUp := by rw [ite_self, List.append_nil]
  waiting _ := rfl
  committed _ inside := absurd inside (Nat.not_lt_zero _)

theorem After.failsAt_iff (reached : provider.After events after) (answers : DbAnswers) :
    after.FailsAt 0 answers ↔ provider.FailsAt events.length answers := by
  unfold FailsAt
  rw [reached.ready, reached.commitsAfter, reached.doomed, Nat.add_zero]

variable (provider) in
/-- The commits behind the next events, from what is counted. -/
theorem commitsAfter_next {next : DbAuditProvider ε}
    (size : next.mCommitBatchSize = provider.mCommitBatchSize)
    (count : 1 < provider.mCommitBatchSize → (next.mUncommitted.length : Int) %
      provider.mCommitBatchSize = (provider.mUncommitted.length + 1) % provider.mCommitBatchSize)
    (index : Nat) : next.CommitsAfter index ↔ provider.CommitsAfter (index + 1) := by
  unfold CommitsAfter
  rw [size]
  by_cases single : provider.mCommitBatchSize ≤ 1
  · exact iff_of_true (.inl single) (.inl single)
  · refine or_congr_right ?_
    have shift : (provider.mUncommitted.length : Int) + (index + 1 : Nat) + 1 =
        provider.mUncommitted.length + 1 + (index + 1) := by omega
    rw [shift, Int.add_assoc, ← Int.emod_add_emod, count (Int.not_le.mp single),
      Int.emod_add_emod]

/-- An event that does not fail is added. -/
theorem After.log (reached : provider.After events after)
    (succeeds : ¬provider.FailsAt events.length attempt.toDbAnswers) :
    (after.log attempt).1 = true ∧
      provider.After (events ++ [attempt.event]) (after.log attempt).2 := by
  rw [← reached.failsAt_iff] at succeeds
  simp only [FailsAt, not_or, not_not, not_and, Bool.not_eq_true, Bool.not_eq_false] at succeeds
  obtain ⟨ready, persisted, commits⟩ := succeeds
  have length : (events ++ [attempt.event]).length = events.length + 1 := List.length_append
  have shifted : ∀ index, after.CommitsAfter (index + 1) ↔
      provider.CommitsAfter ((events ++ [attempt.event]).length + index) := by
    intro index
    rw [reached.commitsAfter, length, Nat.add_assoc, Nat.add_comm 1]
  by_cases full : after.CommitsAfter 0
  · obtain ⟨healthy, commits⟩ := commits full
    obtain ⟨mUncommitted, emptied, performed⟩ := log_of_committed ready persisted full
      healthy commits
    rw [performed]
    rw [reached.doomed] at healthy
    have committed : provider.endsUp ++ (events ++ [attempt.event]) =
        after.endsUp ++ [attempt.event] := by
      rw [reached.endsUp, healthy, if_neg Bool.false_ne_true, List.append_assoc]
    have here : provider.CommitsAfter events.length := (reached.commitsAfter 0).mp full
    refine ⟨rfl, fun index => ?_, fun answers => ?_, ?_, ?_, fun none => ?_, fun index _ _ => ?_⟩
    · refine (commitsAfter_next after ?_ (fun batched => ?_) index).trans (shifted index)
      · rfl
      · rw [emptied batched]
        simpa [eq_comm] using full.resolve_left (Int.not_le.mpr batched)
    · rw [length]
      refine ⟨fun ready _ => ?_, fun ready => .inr ⟨.inl rfl, ready here⟩⟩
      obtain opened | ⟨_, begins⟩ := ready
      · nomatch opened
      · exact begins
    · exact healthy.symm
    · rw [healthy, if_neg Bool.false_ne_true, committed]
      exact List.append_nil _
    · exact absurd here (none _ (length ▸ Nat.lt_succ_self _))
    · change provider.endsUp.length < (after.endsUp ++ [attempt.event]).length
      rw [← committed, List.length_append, length]
      omega
  · rw [log_of_waiting ready persisted full]
    have apart : ¬provider.CommitsAfter events.length := mt (reached.commitsAfter 0).mpr full
    refine ⟨rfl, fun index => ?_, fun answers => ?_, ?_, ?_, fun none => ?_, fun index inside => ?_⟩
    · refine (commitsAfter_next after ?_ (fun _ => ?_) index).trans (shifted index)
      · rfl
      · exact congrArg (fun count : Nat => (count : Int) % after.mCommitBatchSize)
          List.length_append
    · rw [length]
      exact iff_of_true (.inl rfl) fun full => absurd full apart
    · exact reached.doomed
    · refine (endsUp_persist after attempt.event).trans ?_
      rw [reached.endsUp, reached.doomed, List.append_assoc]
      cases provider.isDoomed with
      | true => rfl
      | false => rfl
    · refine reached.waiting fun index inside => none index ?_
      rw [length]
      exact Nat.lt_succ_of_lt inside
    · intro full
      rw [length] at inside
      obtain earlier | rfl := Nat.lt_succ_iff_lt_or_eq.mp inside
      · exact reached.committed index earlier full
      · exact absurd full apart

theorem succeeds_concat {done : List (DbAttempt ε)} :
    provider.Succeeds (done ++ [attempt]) ↔
      provider.Succeeds done ∧ ¬provider.FailsAt done.length attempt.toDbAnswers := by
  constructor
  · refine fun succeeds => ⟨fun index other found => succeeds index other ?_,
      succeeds _ attempt (by simp)⟩
    exact List.getElem?_append_left (List.getElem?_eq_some_iff.mp found).1 ▸ found
  · rintro ⟨succeeds, last⟩ index other found
    obtain inside | outside := Nat.lt_or_ge index done.length
    · rw [List.getElem?_append_left inside] at found
      exact succeeds index other found
    · rw [List.getElem?_append_right outside, List.getElem?_singleton] at found
      obtain ⟨here, same⟩ := Option.ite_none_right_eq_some.mp found
      cases same
      obtain rfl : index = done.length := by omega
      exact last

/-- A batch fails at a first event, if it fails. -/
theorem exists_first_failure {batch : List (DbAttempt ε)} (fails : ¬provider.Succeeds batch) :
    ∃ done attempt rest, batch = done ++ attempt :: rest ∧ provider.Succeeds done ∧
      provider.FailsAt done.length attempt.toDbAnswers := by
  induction batch using List.reverseRecOn with
  | nil => exact absurd (fun _ _ found => nomatch found) fails
  | append_singleton before last ih =>
      by_cases succeeds : provider.Succeeds before
      · refine ⟨before, last, [], rfl, succeeds, ?_⟩
        by_contra last
        exact fails (succeeds_concat.mpr ⟨succeeds, last⟩)
      · obtain ⟨done, attempt, rest, rfl, succeeds, here⟩ := ih succeeds
        exact ⟨done, attempt, rest ++ [last], by simp, succeeds, here⟩

/-- The events before a failure are logged one after another. -/
theorem logAll_of_succeeds {done : List (DbAttempt ε)} (succeeds : provider.Succeeds done) :
    ∃ after, provider.After (done.map (·.event)) after ∧
      ∀ rest, provider.logAll (done ++ rest) = after.logAll rest := by
  induction done using List.reverseRecOn with
  | nil => exact ⟨provider, .refl, fun _ => rfl⟩
  | append_singleton before last ih =>
      obtain ⟨succeeds, here⟩ := succeeds_concat.mp succeeds
      obtain ⟨after, reached, performed⟩ := ih succeeds
      have logged := @After.log ε provider _ after last reached (by rwa [List.length_map])
      refine ⟨(after.log last).2, by simpa using logged.2, fun rest => ?_⟩
      rw [List.append_assoc, performed, List.singleton_append, logAll]
      obtain ⟨accepted, _⟩ := logged
      revert accepted
      match after.log last with
      | (true, next) => exact fun _ => rfl
      | (false, _) => exact fun refused => nomatch refused

/-- Where the failing event leaves nothing of those before it. -/
theorem endsUp_of_failure {done : List (DbAttempt ε)}
    (reached : provider.After (done.map (·.event)) after)
    (fails : provider.FailsAt done.length attempt.toDbAnswers) :
    (after.log attempt).2.endsUp <+: provider.endsUp ↔ provider.FailsWhole done attempt := by
  have length : (done.map (·.event)).length = done.length := List.length_map _
  have outcome := (log_of_fails ((reached.failsAt_iff _).mpr (length.symm ▸ fails))).2
  by_cases kept : provider.endsUp = after.endsUp
  · refine iff_of_true ?_ ?_
    · rw [kept]
      obtain ⟨_, ends⟩ | ⟨_, ends⟩ := outcome
      · exact ends ▸ committed_prefix_endsUp after
      · exact ends ▸ List.prefix_rfl
    · by_contra whole
      obtain ⟨some, healthy, _⟩ : done ≠ [] ∧ _ ∧ _ := by simpa [FailsWhole] using whole
      rw [reached.endsUp, healthy, if_neg Bool.false_ne_true, List.self_eq_append_right,
        List.map_eq_nil_iff] at kept
      exact some kept
  · obtain ⟨healthy, some⟩ : provider.isDoomed = false ∧ done ≠ [] := by
      rw [reached.endsUp, List.self_eq_append_right] at kept
      refine ⟨Bool.eq_false_iff.mpr fun doomed => kept (if_pos doomed), ?_⟩
      rintro rfl
      exact kept (ite_self _)
    have longer : provider.endsUp.length < after.endsUp.length := by
      rw [reached.endsUp, healthy, if_neg Bool.false_ne_true, List.length_append, length]
      exact Nat.lt_add_of_pos_right (List.length_pos_iff.mpr some)
    unfold FailsWhole
    rw [or_iff_right some, or_iff_right (Bool.eq_false_iff.mp healthy)]
    obtain ⟨⟨ready, answer⟩, ends⟩ | ⟨unlost, ends⟩ := outcome
    · rw [ends, and_iff_left answer]
      refine ⟨fun within index inside full => ?_, fun waiting => ?_⟩
      · have more := reached.committed index (length.symm ▸ inside) full
        exact absurd within.length_le (Nat.not_le.mpr more)
      · rw [reached.waiting fun index inside => waiting index (length ▸ inside)]
        exact committed_prefix_endsUp provider
    · rw [ends]
      refine iff_of_false (fun within => ?_) fun lost => unlost ⟨?_, lost.2⟩
      · exact absurd within.length_le (Nat.not_le.mpr longer)
      · refine (reached.ready attempt.toDbAnswers).mpr ?_
        obtain ⟨count, counted⟩ :=
          Nat.exists_eq_succ_of_ne_zero (mt List.length_eq_zero_iff.mp some)
        rw [length, counted]
        exact fun full => absurd full (lost.1 count (counted ▸ Nat.lt_succ_self _))

/-- **Batches of audits in a database.** A batch is all or nothing exactly when no event of it
fails and the open transaction can be committed, or the first failure is that of its first
event, or loses the transaction before any commit. -/
theorem allOrNothing_iff (provider : DbAuditProvider ε) (batch : List (DbAttempt ε)) :
    provider.AllOrNothing batch (provider.logAll batch) ↔ provider.StaysWhole batch := by
  have succeeding : provider.Succeeds batch → (provider.AllOrNothing batch
      (provider.logAll batch) ↔ (provider.isDoomed = true → batch = [])) := by
    intro succeeds
    obtain ⟨after, reached, performed⟩ := logAll_of_succeeds succeeds
    have whole := performed []
    rw [List.append_nil] at whole
    rw [whole]
    refine ⟨fun ⟨_, all⟩ doomed => ?_, fun empty => ⟨nofun, fun _ => ?_⟩⟩
    · have same := all rfl
      rw [logAll, reached.endsUp, doomed, if_pos rfl] at same
      simpa using same
    · rw [logAll, reached.endsUp]
      split
      · next doomed => rw [empty doomed, List.map_nil]
      · rfl
  have failing : ∀ done attempt rest, batch = done ++ attempt :: rest → provider.Succeeds done →
      provider.FailsAt done.length attempt.toDbAnswers → (provider.AllOrNothing batch
        (provider.logAll batch) ↔ provider.FailsWhole done attempt) := by
    rintro done attempt rest rfl succeeds fails
    obtain ⟨after, reached, performed⟩ := logAll_of_succeeds succeeds
    have refused : (after.log attempt).1 = false := by
      refine (log_of_fails ((reached.failsAt_iff _).mpr ?_)).1
      rwa [List.length_map]
    have outcome : provider.logAll (done ++ attempt :: rest) = (false, (after.log attempt).2) := by
      rw [performed, logAll]
      revert refused
      match after.log attempt with
      | (false, _) => exact fun _ => rfl
      | (true, _) => exact fun accepted => nomatch accepted
    rw [outcome, ← endsUp_of_failure reached fails]
    exact ⟨fun ⟨nothing, _⟩ => nothing rfl, fun nothing => ⟨fun _ => nothing, nofun⟩⟩
  constructor
  · intro whole
    by_cases succeeds : provider.Succeeds batch
    · exact .inl ⟨succeeds, (succeeding succeeds).mp whole⟩
    · obtain ⟨done, attempt, rest, split, before, here⟩ := exists_first_failure succeeds
      exact .inr ⟨done, attempt, rest, split, before, here,
        (failing done attempt rest split before here).mp whole⟩
  · rintro (⟨succeeds, healthy⟩ | ⟨done, attempt, rest, split, before, here, whole⟩)
    · exact (succeeding succeeds).mpr healthy
    · exact (failing done attempt rest split before here).mpr whole

end Batch

/-- A flush commits what ends up committed. -/
theorem committed_flush {provider : DbAuditProvider ε} {answers : DbAnswers}
    (pending : provider.mUncommitted ≠ []) (opened : provider.transaction?.isSome = true)
    (healthy : provider.isDoomed = false) (commits : answers.commits = true) :
    (provider.flush answers).committed = provider.endsUp := by
  obtain ⟨transaction, found⟩ := Option.isSome_iff_exists.mp opened
  have current : provider.current = transaction := by rw [DbAuditProvider.current, found]; rfl
  unfold isDoomed at healthy
  unfold flush endsUp isDoomed
  rw [if_pos pending, commitTransaction_of_some found, healthy, current]
  rw [current] at healthy
  simp only [healthy, commits, Bool.not_false, Bool.and_self, ↓reduceIte, Bool.false_eq_true]

section Example

/-- An event that is persisted and committed. -/
def accepted (event : Nat) : DbAttempt Nat := { event }

/-- An event whose commit fails. -/
def rejected (event : Nat) : DbAttempt Nat := { event, commits := false }

/-- A provider that commits every event. -/
def eachEvent : DbAuditProvider Nat := { entityManager := some {} }

/-- **A batch that fails behind a commit.** The first event stays committed. -/
theorem committed_part_stays : ¬eachEvent.AllOrNothing [accepted 1, rejected 2]
    (eachEvent.logAll [accepted 1, rejected 2]) := by
  intro whole
  have nothing := whole.nothing (by decide)
  exact absurd nothing (by decide)

end Example

end DbAuditProvider

end Ranger
