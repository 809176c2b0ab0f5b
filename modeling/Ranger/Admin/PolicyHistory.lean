import Mathlib.Data.List.TakeWhile
import Ranger.Admin.DataHistory

/-! # Whether the history tells what the policies were

A run of edits writes every version of every policy to the history. A moment finds what
was stored then; a version does if no edit writes one that its policy had before.
-/

namespace Ranger.PolicyHistory

open Foundation

/-- A number a Java `int` can hold. -/
def IsInt32 (number : Int) : Prop := -2147483648 ≤ number ∧ number ≤ 2147483647

theorem isInt32_iff {number : Int} :
    IsInt32 number ↔ ∃ versionNo : Int32, versionNo.toInt = number := by
  unfold IsInt32
  constructor
  · intro ⟨least, greatest⟩
    exact ⟨.ofInt number, Int32.toInt_ofInt_of_le least (by omega)⟩
  · intro ⟨versionNo, same⟩
    have least := versionNo.le_toInt
    have greatest := versionNo.toInt_lt
    omega

variable {Json : Type} [ObjectMapper Json] [Platform]

/-- The history tells of every policy of a run what it was under its versions and at
every moment, and no update gives a version for the second time. -/
structure Faithful (start : PolicyHistory Json) (edits : List PolicyEdit) : Prop where
  newVersions : ∀ done edit rest, edits = done ++ edit :: rest →
    ∀ policy, edit.call = .updatePolicy policy → ((start.run done).perform edit).isOk →
      ∀ updated ∈ (start.run (done ++ [edit])).store.policies, updated.id = policy.id →
        ∀ earlier, earlier <+: done → ∀ old ∈ (start.run earlier).store.policies,
          old.id = policy.id → old.version ≠ updated.version
  byVersion : ∀ done, done <+: edits → ∀ policy ∈ (start.run done).store.policies,
    ∃ id, ∃ versionNo : Int32, policy.id = some id ∧ policy.version = some versionNo.toInt ∧
      (start.run edits).getPolicyForVersionNumber id versionNo = .ok policy
  byTime : ∀ moment, ∀ policy ∈ start.storedAt edits moment,
    ∃ id, policy.id = some id ∧ (start.run edits).getPolicyFromEventTime moment id = .ok policy

/-- The history has a row of the policy with the version. -/
def HasVersion (db : PolicyHistory Json) (id : Option Int) (version : Int) : Prop :=
  (id, some version) ∈ (journal db.dataHist).map HistoryEntry.key

/-- An edit that succeeds writes a version the policy did not have before: the one after the
version that is sent, which a Java `int` can hold, and at a deletion the one after the version
that is stored. -/
def GivesNewVersion (db : PolicyHistory Json) (edit : PolicyEdit) : Prop :=
  (db.perform edit).isOk →
    match edit.call with
    | .createPolicy _ => True
    | .updatePolicy policy =>
        IsInt32 (nextPolicyVersion policy.version) ∧
          ¬db.HasVersion policy.id (nextPolicyVersion policy.version)
    | .deletePolicy id =>
        ∀ policy ∈ db.store.findPolicy (some id),
          ¬db.HasVersion (some id) (nextPolicyVersion policy.version)

instance (db : PolicyHistory Json) (edit : PolicyEdit) : Decidable (db.GivesNewVersion edit) := by
  unfold GivesNewVersion HasVersion IsInt32
  cases edit.call <;> infer_instance

/-- Nothing was stored yet. -/
structure Fresh (db : PolicyHistory Json) : Prop where
  noPolicies : db.store.policies = []
  noEntries : journal db.dataHist = []

/-- What an edit that succeeds does: it writes one entry behind the others, and stores or
deletes the policy. -/
inductive Effect (db : PolicyHistory Json) (time : Int) :
    PolicyCall → PolicyHistory Json → Prop
  | created {policy created after} (id : created.id = some db.store.nextPolicyId)
      (version : created.version = some 1)
      (policies : after.store.policies = db.store.policies ++ [created])
      (next : after.store.nextPolicyId = db.store.nextPolicyId + 1)
      (written : journal after.dataHist = journal db.dataHist ++ [.of time created]) :
      Effect db time (.createPolicy policy) after
  | updated {policy existing updated after} (stored : existing ∈ db.store.policies)
      (own : existing.id = policy.id) (id : updated.id = policy.id)
      (version : updated.version = some (nextPolicyVersion policy.version))
      (policies : after.store.policies =
        db.store.policies.map fun row => if row.id = policy.id then updated else row)
      (next : after.store.nextPolicyId = db.store.nextPolicyId)
      (written : journal after.dataHist = journal db.dataHist ++ [.of time updated]) :
      Effect db time (.updatePolicy policy) after
  | deleted {id existing after} (found : db.store.findPolicy (some id) = some existing)
      (policies : after.store.policies = db.store.policies.filter (·.id != some id))
      (next : after.store.nextPolicyId = db.store.nextPolicyId)
      (written : journal after.dataHist = journal db.dataHist ++
        [.of time { existing with version := some (nextPolicyVersion existing.version) }]) :
      Effect db time (.deletePolicy id) after

section Steps

variable {db after : PolicyHistory Json}

omit [Platform] in
theorem effect_of_createPolicy {policy ret : RangerPolicy} {time : Int}
    (called : db.createPolicy time policy = .ok (ret, after)) :
    Effect db time (.createPolicy policy) after := by
  obtain ⟨⟨createdPolicy, store⟩, stored, called⟩ := Outcome.bind_eq_ok.mp called
  obtain ⟨dataHist, written, called⟩ := Outcome.bind_eq_ok.mp called
  cases called
  obtain ⟨service, serviceDef, -, -, same, rfl⟩ := ServiceDBStore.stored_of_createPolicy stored
  refine .created ?_ ?_ rfl rfl (journal_createObjectDataHistory written)
  · rw [same]; rfl
  · rw [same]; rfl

theorem effect_of_updatePolicy {policy ret : RangerPolicy} {time : Int}
    (called : db.updatePolicy time policy = .ok (ret, after)) :
    Effect db time (.updatePolicy policy) after := by
  obtain ⟨⟨updPolicy, store⟩, stored, called⟩ := Outcome.bind_eq_ok.mp called
  obtain ⟨dataHist, written, called⟩ := Outcome.bind_eq_ok.mp called
  cases called
  obtain ⟨existing, service, serviceDef, found, -, -, same, rfl⟩ :=
    ServiceDBStore.stored_of_updatePolicy stored
  obtain ⟨member, own⟩ := ServiceDBStore.findPolicy_eq_some found
  refine .updated member own ?_ ?_ rfl rfl (journal_createObjectDataHistory written)
  · rw [same]; rfl
  · rw [same]; rfl

omit [Platform] in
theorem effect_of_deletePolicy {id time : Int} (called : db.deletePolicy time id = .ok after) :
    Effect db time (.deletePolicy id) after := by
  obtain ⟨read, found, called⟩ := Outcome.bind_eq_ok.mp called
  cases read with
  | none => nomatch called
  | some existing =>
      obtain ⟨store, stored, called⟩ := Outcome.bind_eq_ok.mp called
      obtain ⟨dataHist, written, called⟩ := Outcome.bind_eq_ok.mp called
      cases called
      obtain ⟨policy, service, located, -, rfl⟩ := ServiceDB.deletePolicy_eq_ok stored
      have own : db.store.findPolicy (some id) = some existing := by
        unfold ServiceDBStore.getPolicy at found
        rw [located] at found ⊢
        cases found
        rfl
      exact .deleted own rfl rfl (journal_createObjectDataHistory written)

theorem effect_of_perform {edit : PolicyEdit} (performed : db.perform edit = .ok after) :
    Effect db edit.time edit.call after := by
  obtain ⟨time, call⟩ := edit
  cases call with
  | createPolicy policy =>
      obtain ⟨⟨ret, _⟩, called, rfl⟩ := Outcome.map_eq_ok.mp performed
      exact effect_of_createPolicy called
  | updatePolicy policy =>
      obtain ⟨⟨ret, _⟩, called, rfl⟩ := Outcome.map_eq_ok.mp performed
      exact effect_of_updatePolicy called
  | deletePolicy id => exact effect_of_deletePolicy performed

omit [Platform] in
/-- The version of the policy that was updated. -/
theorem Effect.version_updated {time : Int} {policy updated : RangerPolicy}
    (effect : Effect db time (.updatePolicy policy) after)
    (stored : updated ∈ after.store.policies) (own : updated.id = policy.id) :
    updated.version = some (nextPolicyVersion policy.version) := by
  cases effect with
  | updated _ _ id version policies _ _ =>
      rw [policies] at stored
      obtain ⟨row, old, rfl⟩ := List.mem_map.mp stored
      split at own
      · next same => rwa [if_pos same]
      · next apart => exact absurd own apart

end Steps

/-- Ids were given out, and the last entry of a policy that is stored tells what it is. -/
structure Tracked (db : PolicyHistory Json) : Prop where
  given : ∀ policy ∈ db.store.policies, ∃ id, policy.id = some id ∧ id < db.store.nextPolicyId
  owned : ∀ entry ∈ journal db.dataHist,
    ∃ id, entry.objectId = some id ∧ id < db.store.nextPolicyId
  current : ∀ policy ∈ db.store.policies, ∃ entry,
    Journal.latest HistoryEntry.objectId (journal db.dataHist) policy.id = some entry ∧
      entry.version = policy.version ∧ ObjectMapper.readValue entry.content = policy

/-- One policy is written behind the others, and the others stay. -/
structure Writes (db after : PolicyHistory Json) (time : Int) (written : RangerPolicy) : Prop where
  grown : journal after.dataHist = journal db.dataHist ++ [.of time written]
  given : ∃ id, written.id = some id ∧ id < after.store.nextPolicyId
  next : db.store.nextPolicyId ≤ after.store.nextPolicyId
  others : ∀ policy ∈ after.store.policies,
    policy = written ∨ policy ∈ db.store.policies ∧ policy.id ≠ written.id
  known : written.id = some db.store.nextPolicyId ∨
    ∃ old ∈ db.store.policies, old.id = written.id
  stored : written ∈ after.store.policies ∨
    ∀ policy ∈ after.store.policies, policy.id ≠ written.id

omit [Platform] in
theorem Fresh.tracked {db : PolicyHistory Json} (fresh : db.Fresh) : db.Tracked where
  given policy stored := by
    rw [fresh.noPolicies] at stored
    nomatch stored
  owned entry listed := by
    rw [fresh.noEntries] at listed
    nomatch listed
  current policy stored := by
    rw [fresh.noPolicies] at stored
    nomatch stored

section Tracking

variable {db after : PolicyHistory Json}

omit [Platform] in
theorem Tracked.writes (tracked : db.Tracked) {time : Int} {call : PolicyCall}
    (effect : Effect db time call after) : ∃ written, Writes db after time written := by
  cases effect with
  | @created policy created _ id version policies next written =>
      refine ⟨created, written, ⟨_, id, ?_⟩, ?_, ?_, .inl id, .inl ?_⟩
      · omega
      · omega
      · intro other stored
        rw [policies] at stored
        obtain old | new := List.mem_append.mp stored
        · refine .inr ⟨old, fun same => ?_⟩
          obtain ⟨otherId, own, below⟩ := tracked.given other old
          rw [own, id, Option.some.injEq] at same
          omega
        · exact .inl (List.mem_singleton.mp new)
      · rw [policies]
        exact List.mem_append_right _ (List.mem_singleton_self _)
  | @updated policy existing updated _ stored own id version policies next written =>
      refine ⟨updated, written, ?_, ?_, ?_, .inr ⟨existing, stored, own.trans id.symm⟩, .inl ?_⟩
      · obtain ⟨existingId, given, below⟩ := tracked.given existing stored
        exact ⟨existingId, id.trans (own.symm.trans given), by omega⟩
      · omega
      · intro other stored
        rw [policies] at stored
        obtain ⟨row, old, rfl⟩ := List.mem_map.mp stored
        split
        · exact .inl rfl
        · next apart => exact .inr ⟨old, fun same => apart (same.trans id)⟩
      · rw [policies]
        exact List.mem_map.mpr ⟨existing, stored, if_pos own⟩
  | @deleted id existing _ found policies next written =>
      obtain ⟨stored, own⟩ := ServiceDBStore.findPolicy_eq_some found
      have gone : ∀ other ∈ after.store.policies, other ∈ db.store.policies ∧
          other.id ≠ existing.id := by
        intro other kept
        rw [policies] at kept
        obtain ⟨old, apart⟩ := List.mem_filter.mp kept
        exact ⟨old, fun same => by simp [same, own] at apart⟩
      refine ⟨_, written, ?_, ?_, fun other kept => .inr (gone other kept),
        .inr ⟨existing, stored, rfl⟩, .inr fun other kept => (gone other kept).2⟩
      · obtain ⟨existingId, given, below⟩ := tracked.given existing stored
        exact ⟨existingId, given, by omega⟩
      · omega

omit [Platform] in
theorem Tracked.of_writes (tracked : db.Tracked) {time : Int} {written : RangerPolicy}
    (writes : Writes db after time written) : after.Tracked where
  given policy stored := by
    obtain rfl | ⟨old, -⟩ := writes.others policy stored
    · exact writes.given
    · obtain ⟨id, own, below⟩ := tracked.given policy old
      exact ⟨id, own, Int.lt_of_lt_of_le below writes.next⟩
  owned entry listed := by
    rw [writes.grown] at listed
    obtain old | new := List.mem_append.mp listed
    · obtain ⟨id, own, below⟩ := tracked.owned entry old
      exact ⟨id, own, Int.lt_of_lt_of_le below writes.next⟩
    · rw [List.mem_singleton.mp new]
      exact writes.given
  current policy stored := by
    rw [writes.grown, Journal.latest_append_single, HistoryEntry.objectId_of]
    obtain rfl | ⟨old, apart⟩ := writes.others policy stored
    · rw [if_pos rfl]
      exact ⟨_, rfl, rfl, ObjectMapper.readValue_writeValueAsString _⟩
    · rw [if_neg fun same => apart (Eq.symm same)]
      exact tracked.current policy old

/-- A run writes behind what was written, at the times of its edits. -/
theorem Tracked.run {edits : List PolicyEdit} (tracked : db.Tracked) :
    (db.run edits).Tracked ∧ ∃ later,
      journal (db.run edits).dataHist = journal db.dataHist ++ later ∧
        ∀ entry ∈ later, ∃ edit ∈ edits, entry.createTime = edit.time := by
  induction edits generalizing db with
  | nil => exact ⟨tracked, [], (List.append_nil _).symm, nofun⟩
  | cons edit rest ih =>
      change Tracked (run (Outcome.getState db (db.perform edit)) rest) ∧ ∃ later,
        journal (run (Outcome.getState db (db.perform edit)) rest).dataHist = _ ∧ _
      cases performed : db.perform edit with
      | error failure =>
          obtain ⟨kept, later, grown, times⟩ := ih tracked
          refine ⟨kept, later, grown, fun entry listed => ?_⟩
          obtain ⟨other, member, same⟩ := times entry listed
          exact ⟨other, List.mem_cons_of_mem _ member, same⟩
      | ok after =>
          obtain ⟨written, writes⟩ := tracked.writes (effect_of_perform performed)
          obtain ⟨kept, later, grown, times⟩ := ih (tracked.of_writes writes)
          rw [writes.grown, List.append_assoc] at grown
          refine ⟨kept, _ :: later, grown, fun entry listed => ?_⟩
          obtain rfl | listed := List.mem_cons.mp listed
          · exact ⟨edit, List.mem_cons_self, rfl⟩
          · obtain ⟨other, member, same⟩ := times entry listed
            exact ⟨other, List.mem_cons_of_mem _ member, same⟩

end Tracking

omit [Platform] in
/-- What is stored was written under its version. -/
theorem Tracked.written {db : PolicyHistory Json} (tracked : db.Tracked) {policy : RangerPolicy}
    (stored : policy ∈ db.store.policies) :
    ∃ entry ∈ journal db.dataHist, entry.key = (policy.id, policy.version) ∧
      ObjectMapper.readValue entry.content = policy := by
  obtain ⟨entry, last, version, read⟩ := tracked.current policy stored
  obtain ⟨listed, own⟩ := Journal.mem_of_latest last
  exact ⟨entry, listed, Prod.ext own version, read⟩

theorem run_append (db : PolicyHistory Json) (first second : List PolicyEdit) :
    db.run (first ++ second) = (db.run first).run second := Run.final_append _ _ _ _

section Moments

variable {start : PolicyHistory Json} {edits : List PolicyEdit}

/-- **A moment finds what was stored then.** -/
theorem Fresh.byTime (fresh : start.Fresh) (increasing : edits.Pairwise (·.time < ·.time))
    {moment : Int} {policy : RangerPolicy} (stored : policy ∈ start.storedAt edits moment) :
    ∃ id, policy.id = some id ∧
      (start.run edits).getPolicyFromEventTime moment id = .ok policy := by
  obtain ⟨tracked, past, written, before⟩ :=
    @Tracked.run _ _ _ start (edits.takeWhile (·.time ≤ moment)) fresh.tracked
  obtain ⟨-, later, grown, after⟩ :=
    @Tracked.run _ _ _ _ (edits.dropWhile (·.time ≤ moment)) tracked
  rw [← run_append, List.takeWhile_append_dropWhile] at grown
  rw [fresh.noEntries, List.nil_append] at written
  obtain ⟨id, own, -⟩ := tracked.given policy stored
  obtain ⟨entry, last, -, read⟩ := tracked.current policy stored
  refine ⟨id, own, (getPolicyFromEventTime_eq_ok _).mpr ⟨entry, ?_, read⟩⟩
  rw [grown, Journal.asOf_append, ← own, last]
  · intro old listed
    rw [written] at listed
    obtain ⟨edit, done, made⟩ := before old listed
    rw [made]
    have early := List.mem_takeWhile_imp done
    exact of_decide_eq_true early
  · intro new listed
    obtain ⟨edit, open_, made⟩ := after new listed
    rw [made]
    exact Journal.lt_of_mem_dropWhile increasing edit open_

end Moments

/-- Every version of every policy was written once, and is a Java `int`. -/
structure Told (db : PolicyHistory Json) : Prop where
  tracked : db.Tracked
  distinct : ((journal db.dataHist).map HistoryEntry.key).Nodup
  ints : ∀ policy ∈ db.store.policies, ∃ version, policy.version = some version ∧ IsInt32 version

omit [Platform] in
theorem Fresh.told {db : PolicyHistory Json} (fresh : db.Fresh) : db.Told where
  tracked := fresh.tracked
  distinct := by
    rw [fresh.noEntries]
    exact List.nodup_nil
  ints policy stored := by
    rw [fresh.noPolicies] at stored
    nomatch stored

section Versions

variable {db after : PolicyHistory Json}

omit [Platform] in
/-- A policy written under a new version. -/
theorem Told.distinct_append (told : db.Told) {time : Int} {written : RangerPolicy}
    (grown : journal after.dataHist = journal db.dataHist ++ [.of time written])
    (new : (written.id, written.version) ∉ (journal db.dataHist).map HistoryEntry.key) :
    ((journal after.dataHist).map HistoryEntry.key).Nodup := by
  rw [grown, List.map_append, List.map_singleton, HistoryEntry.key_of]
  refine List.nodup_append.mpr ⟨told.distinct, List.nodup_singleton _, ?_⟩
  intro key listed last final same
  exact new (List.mem_singleton.mp final ▸ same ▸ listed)

theorem Told.of_perform (told : db.Told) {edit : PolicyEdit} (gives : db.GivesNewVersion edit)
    (performed : db.perform edit = .ok after) : after.Told := by
  have effect := effect_of_perform performed
  have new := gives (by rw [performed]; rfl)
  obtain ⟨_, writes⟩ := told.tracked.writes effect
  have tracked := told.tracked.of_writes writes
  obtain ⟨time, call⟩ := edit
  cases effect with
  | @created policy created _ id version policies next written =>
      refine ⟨tracked, told.distinct_append written ?_, ?_⟩
      · intro listed
        obtain ⟨entry, member, same⟩ := List.mem_map.mp listed
        obtain ⟨entryId, own, below⟩ := told.tracked.owned entry member
        have given : some entryId = some db.store.nextPolicyId :=
          own.symm.trans ((congrArg Prod.fst same).trans id)
        cases given
        exact Int.lt_irrefl _ below
      · intro other stored
        rw [policies] at stored
        obtain old | new := List.mem_append.mp stored
        · exact told.ints other old
        · rw [List.mem_singleton.mp new]
          exact ⟨1, version, by unfold IsInt32; omega⟩
  | @updated policy existing updated _ stored own id version policies next written =>
      obtain ⟨fits, absent⟩ := new
      refine ⟨tracked, told.distinct_append written ?_, ?_⟩
      · rw [id, version]
        exact absent
      · intro other stored
        rw [policies] at stored
        obtain ⟨row, old, rfl⟩ := List.mem_map.mp stored
        split
        · exact ⟨_, version, fits⟩
        · exact told.ints row old
  | @deleted id existing _ found policies next written =>
      refine ⟨tracked, told.distinct_append written ?_, ?_⟩
      · rw [(ServiceDBStore.findPolicy_eq_some found).2]
        exact new existing found
      · intro other kept
        rw [policies] at kept
        exact told.ints other (List.mem_of_mem_filter kept)

theorem Told.step (db : PolicyHistory Json) (edit : PolicyEdit) (told : db.Told)
    (gives : db.GivesNewVersion edit) : (db.step edit).2.Told :=
  @Outcome.getState_induction _ _ Told db told (db.perform edit) fun _ performed =>
    told.of_perform gives performed

/-- **A version finds its policy** at the end of a run that told the versions apart. -/
theorem Told.byVersion {rest : List PolicyEdit} (told : db.Told) (final : (db.run rest).Told)
    {policy : RangerPolicy} (stored : policy ∈ db.store.policies) :
    ∃ id, ∃ versionNo : Int32, policy.id = some id ∧ policy.version = some versionNo.toInt ∧
      (db.run rest).getPolicyForVersionNumber id versionNo = .ok policy := by
  obtain ⟨id, own, -⟩ := told.tracked.given policy stored
  obtain ⟨version, carried, fits⟩ := told.ints policy stored
  obtain ⟨versionNo, rfl⟩ := isInt32_iff.mp fits
  obtain ⟨entry, listed, key, read⟩ := told.tracked.written stored
  obtain ⟨-, later, grown, -⟩ := @Tracked.run _ _ _ db rest told.tracked
  have kept : entry ∈ journal (db.run rest).dataHist := by
    rw [grown]
    exact List.mem_append_left _ listed
  refine ⟨id, versionNo, own, carried, (getPolicyForVersionNumber_eq_ok _).mpr ⟨entry, ?_, read⟩⟩
  rw [← own, ← carried, ← key]
  exact Journal.filter_key_eq_singleton final.distinct kept

omit [Platform] in
/-- What is read under a version was written once. -/
theorem not_mem_of_read {past later : List (HistoryEntry Json)} {written : HistoryEntry Json}
    (grown : journal db.dataHist = past ++ written :: later) {id : Int} {versionNo : Int32}
    (same : written.key = (some id, some versionNo.toInt)) {policy : RangerPolicy}
    (read : db.getPolicyForVersionNumber id versionNo = .ok policy) :
    written.key ∉ past.map HistoryEntry.key := by
  obtain ⟨entry, only, -⟩ := (getPolicyForVersionNumber_eq_ok _).mp read
  rw [grown, ← same] at only
  exact Journal.not_mem_of_filter_key_eq_singleton only

end Versions

section Runs

variable {start : PolicyHistory Json} {edits : List PolicyEdit}

theorem run_append_single (db : PolicyHistory Json) (done : List PolicyEdit) (edit : PolicyEdit) :
    db.run (done ++ [edit]) = Outcome.getState (db.run done) ((db.run done).perform edit) :=
  run_append db done [edit]

/-- An entry of a policy that is stored tells what was stored once. -/
theorem Fresh.origin (fresh : start.Fresh) : ∀ done : List PolicyEdit,
    ∀ entry ∈ journal (start.run done).dataHist,
      (∃ earlier, earlier <+: done ∧ ∃ old ∈ (start.run earlier).store.policies,
        (old.id, old.version) = entry.key) ∨
      ∀ policy ∈ (start.run done).store.policies, policy.id ≠ entry.objectId := by
  intro done
  induction done using List.reverseRecOn with
  | nil =>
      intro entry listed
      change entry ∈ journal start.dataHist at listed
      rw [fresh.noEntries] at listed
      nomatch listed
  | append_singleton done edit ih =>
      intro entry listed
      have tracked : (start.run done).Tracked := fresh.tracked.run.1
      rw [run_append_single] at listed ⊢
      cases performed : (start.run done).perform edit with
      | error failure =>
          rw [performed, Outcome.getState_error] at listed
          obtain ⟨earlier, first, old⟩ | gone := ih entry listed
          · exact .inl ⟨earlier, first.trans (List.prefix_append _ _), old⟩
          · exact .inr gone
      | ok after =>
          obtain ⟨written, writes⟩ := tracked.writes (effect_of_perform performed)
          rw [performed, Outcome.getState_ok, writes.grown] at listed
          rw [Outcome.getState_ok]
          obtain old | new := List.mem_append.mp listed
          · obtain ⟨earlier, first, stored⟩ | gone := ih entry old
            · exact .inl ⟨earlier, first.trans (List.prefix_append _ _), stored⟩
            · refine .inr fun policy kept same => ?_
              obtain rfl | ⟨kept, -⟩ := writes.others policy kept
              · obtain fresh' | ⟨older, stored, own⟩ := writes.known
                · obtain ⟨id, given, below⟩ := tracked.owned entry old
                  rw [← same, fresh', Option.some.injEq] at given
                  omega
                · exact gone older stored (own.trans same)
              · exact gone policy kept same
          · rw [List.mem_singleton.mp new]
            obtain stored | gone := writes.stored
            · refine .inl ⟨done ++ [edit], List.prefix_rfl, written, ?_, rfl⟩
              rwa [run_append_single, performed]
            · exact .inr gone

/-- A history that tells what the policies were was written under new versions. -/
theorem Faithful.givesNewVersion (fresh : start.Fresh) (faithful : Faithful start edits)
    {done : List PolicyEdit} {edit : PolicyEdit} {rest : List PolicyEdit}
    (split : edits = done ++ edit :: rest) : (start.run done).GivesNewVersion edit := by
  intro succeeds
  cases performed : (start.run done).perform edit with
  | error failure =>
      rw [performed] at succeeds
      nomatch succeeds
  | ok after =>
      have tracked : (start.run done).Tracked := fresh.tracked.run.1
      have effect := effect_of_perform performed
      obtain ⟨_, writes⟩ := tracked.writes effect
      have reached : start.run (done ++ [edit]) = after := by
        rw [run_append_single, performed, Outcome.getState_ok]
      obtain ⟨-, later, grown, -⟩ := @Tracked.run _ _ _ after rest (tracked.of_writes writes)
      rw [← reached, ← run_append, List.append_assoc, List.singleton_append, ← split,
        reached] at grown
      obtain ⟨time, call⟩ := edit
      cases effect with
      | created => trivial
      | @updated policy existing updated _ stored own id version policies next written =>
          rw [written, List.append_assoc, List.singleton_append] at grown
          have present : updated ∈ after.store.policies := by
            rw [policies]
            exact List.mem_map.mpr ⟨existing, stored, if_pos own⟩
          obtain ⟨policyId, versionNo, given, carried, read⟩ :=
            faithful.byVersion _ ⟨rest, by rw [split]; simp⟩ updated (reached ▸ present)
          have absent := not_mem_of_read grown (Prod.ext given carried) read
          refine ⟨isInt32_iff.mpr ⟨versionNo, ?_⟩, ?_⟩
          · rw [version, Option.some.injEq] at carried
            exact carried.symm
          · rwa [HistoryEntry.key_of, id, version] at absent
      | @deleted id existing _ found policies next written =>
          rw [written, List.append_assoc, List.singleton_append] at grown
          obtain ⟨member, own⟩ := ServiceDBStore.findPolicy_eq_some found
          intro policy stored repeated
          cases found.symm.trans stored
          obtain ⟨entry, listed, key⟩ := List.mem_map.mp repeated
          obtain ⟨earlier, first, old, present, same⟩ | gone := fresh.origin done entry listed
          · have within : earlier <+: edits := split ▸ first.trans (List.prefix_append _ _)
            obtain ⟨policyId, versionNo, given, carried, read⟩ :=
              faithful.byVersion earlier within old present
            have absent := @not_mem_of_read _ _ _ _ _ _ grown policyId versionNo
              (by rw [HistoryEntry.key_of, own, ← key, ← same, given, carried]) _ read
            rw [HistoryEntry.key_of, own] at absent
            exact absent repeated
          · exact gone existing member (own.trans (congrArg Prod.fst key).symm)

/-- **The history tells what the policies were** exactly if every edit that succeeds gives a
version its policy did not have before. -/
theorem faithful_iff (fresh : start.Fresh) (increasing : edits.Pairwise (·.time < ·.time)) :
    Faithful start edits ↔ ∀ done edit rest, edits = done ++ edit :: rest →
      (start.run done).GivesNewVersion edit := by
  constructor
  · intro faithful done edit rest split
    exact faithful.givesNewVersion fresh split
  · intro gives
    have told : ∀ done rest, edits = done ++ rest → (start.run done).Told :=
      Run.forall_prefix_of_allowed Told.step fresh.told gives
    refine ⟨?_, ?_, fun moment policy stored => fresh.byTime increasing stored⟩
    · intro done edit rest split policy called succeeds updated present own earlier first old
        stored sameId sameVersion
      cases performed : (start.run done).perform edit with
      | error failure =>
          rw [performed] at succeeds
          nomatch succeeds
      | ok after =>
          have new := gives done edit rest split succeeds
          have effect := effect_of_perform performed
          rw [called] at new effect
          rw [run_append_single, performed, Outcome.getState_ok] at present
          rw [effect.version_updated present own] at sameVersion
          obtain ⟨between, rfl⟩ := first
          obtain ⟨entry, listed, key, -⟩ :=
            (told earlier (between ++ edit :: rest) (by simpa using split)).tracked.written stored
          obtain ⟨-, later, grown, -⟩ := @Tracked.run _ _ _ (start.run earlier) between
            (told earlier (between ++ edit :: rest) (by simpa using split)).tracked
          refine new.2 (List.mem_map.mpr ⟨entry, ?_, ?_⟩)
          · rw [run_append, grown]
            exact List.mem_append_left _ listed
          · rw [key, sameId, sameVersion]
    · intro done ⟨rest, split⟩ policy stored
      have whole := told (done ++ rest) [] (by rw [List.append_nil, split])
      rw [run_append] at whole
      rw [← split, run_append]
      exact (told done rest split.symm).byVersion whole stored

end Runs

end Ranger.PolicyHistory

namespace Ranger.PolicyHistory

open Foundation ServiceDB

section Repetition

/-- A mapper whose documents are the policies. -/
@[reducible] def documentMapper : ObjectMapper RangerPolicy where
  writeValueAsString := id
  readValue := id
  readValue_writeValueAsString _ := rfl

attribute [local instance] Platform.ascii documentMapper

def emptyWarehouse : PolicyHistory RangerPolicy where
  store := { warehouseStore with policies := [], nextPolicyId := 1 }
  dataHist := .empty

def createsAlice : PolicyEdit := ⟨1, .createPolicy alicePolicy⟩

def updatesFirst (time : Int) (isEnabled : Bool) : PolicyEdit :=
  ⟨time, .updatePolicy { alicePolicy with
    id := some 1
    version := some 1
    isEnabled := isEnabled }⟩

/-- A policy is created, updated and deleted by callers who read it before. -/
theorem faithful_orderly :
    Faithful emptyWarehouse [createsAlice, updatesFirst 2 true, ⟨3, .deletePolicy 1⟩] := by
  refine (faithful_iff ⟨rfl, rfl⟩ (by decide)).mpr ?_
  exact Run.Throughout.at_split (by decide +kernel)

/-- Two callers who read the first version of a policy update it one after the other: both
updates give version 2, and nothing is found under it any more. -/
theorem unfaithful_stale :
    emptyWarehouse.Fresh ∧
      [createsAlice, updatesFirst 2 true, updatesFirst 3 false].Pairwise (·.time < ·.time) ∧
      ((emptyWarehouse.run [createsAlice, updatesFirst 2 true,
        updatesFirst 3 false]).getPolicyForVersionNumber 1 2).isOk = false ∧
      ¬Faithful emptyWarehouse [createsAlice, updatesFirst 2 true, updatesFirst 3 false] := by
  refine ⟨⟨rfl, rfl⟩, by decide, by decide +kernel, fun faithful => ?_⟩
  obtain ⟨old, stored, oldId, oldVersion⟩ : ∃ old ∈ (emptyWarehouse.run
      [createsAlice, updatesFirst 2 true]).store.policies,
      old.id = some 1 ∧ old.version = some 2 := by decide +kernel
  obtain ⟨updated, present, own, version⟩ : ∃ updated ∈ (emptyWarehouse.run
      ([createsAlice, updatesFirst 2 true] ++ [updatesFirst 3 false])).store.policies,
      updated.id = some 1 ∧ updated.version = some 2 := by decide +kernel
  refine faithful.newVersions [createsAlice, updatesFirst 2 true] (updatesFirst 3 false) [] rfl
    _ rfl (by decide +kernel) updated present own _ List.prefix_rfl old stored oldId ?_
  rw [oldVersion, version]

end Repetition

end Ranger.PolicyHistory
