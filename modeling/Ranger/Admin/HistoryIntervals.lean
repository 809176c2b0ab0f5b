import Mathlib.Data.List.Chain
import Ranger.Admin.DataHistory

/-! # The intervals of the history

Every create, update and delete of an object adds a row to the history, which is open
until the next one closes it. The row that is closed is the first of the object, whatever
came since.
-/

namespace Ranger

open Foundation

/-- The classes of objects with a history. -/
inductive HistoryClass where
  | serviceDef
  | service
  | policy
  deriving DecidableEq

def HistoryClass.classType : HistoryClass → Int
  | serviceDef => 1033
  | service => 1030
  | policy => AppConstants.CLASS_TYPE_RANGER_POLICY

/-- What the history takes of an object; the content is the object as a text. -/
structure RangerBaseModelObject (Json : Type) where
  id : Option Int
  guid : String
  version : Option Int
  objectClass : HistoryClass
  name : String
  content : Json

namespace RangerDataHistService

variable {Json : Type}

/-- The row that is created for an object. -/
def rowOf (currentDate : Int) (baseModelObj : RangerBaseModelObject Json)
    (action : DataHistAction) : XXDataHist Json where
  objectId := baseModelObj.id
  objectGuid := baseModelObj.guid
  createTime := currentDate
  action := action
  version := baseModelObj.version
  updateTime := currentDate
  fromTime := currentDate
  objectName := baseModelObj.name
  objectClassType := baseModelObj.objectClass.classType
  content := baseModelObj.content

def createObjectDataHistory (dataHist : Table (XXDataHist Json)) (currentDate : Int)
    (baseModelObj : RangerBaseModelObject Json) (action : DataHistAction) :
    Throws (Table (XXDataHist Json)) :=
  let created := dataHist.insert (rowOf currentDate baseModelObj action)
  match action with
  | .ACTION_CREATE => .ok created
  | .ACTION_UPDATE | .ACTION_DELETE =>
      match XXDataHistDao.findLatestByObjectClassTypeAndObjectId created
        baseModelObj.objectClass.classType baseModelObj.id with
      | none =>
          .error (some ("Error updating DataHistory Object. ObjectName: " ++ baseModelObj.name))
      | some (id, prevHist) =>
          .ok (created.replace id
            { prevHist with
              updateTime := currentDate
              toTime := some currentDate
              objectName := baseModelObj.name })

/-- A policy as an object with a history. -/
def ofPolicy [ObjectMapper Json] (policy : RangerPolicy) : RangerBaseModelObject Json where
  id := policy.id
  guid := policy.guid
  version := policy.version
  objectClass := .policy
  name := policy.name
  content := ObjectMapper.writeValueAsString policy

/-- The history of policies is a case of the history of objects. -/
theorem createObjectDataHistory_ofPolicy [ObjectMapper Json] (dataHist : Table (XXDataHist Json))
    (currentDate : Int) (policy : RangerPolicy) (action : DataHistAction) :
    Ranger.createObjectDataHistory dataHist currentDate policy action =
      createObjectDataHistory dataHist currentDate (ofPolicy policy) action := by
  cases action <;> rfl

/-- A call with the time it is made at. -/
structure HistoryCall (Json : Type) where
  currentDate : Int
  baseModelObj : RangerBaseModelObject Json
  action : DataHistAction

/-- A call that throws is rolled back. -/
def step (dataHist : Table (XXDataHist Json)) (call : HistoryCall Json) :
    Unit × Table (XXDataHist Json) :=
  ((), Outcome.getState dataHist
    (createObjectDataHistory dataHist call.currentDate call.baseModelObj call.action))

def run (calls : List (HistoryCall Json)) : Table (XXDataHist Json) :=
  Run.final step .empty calls

/-- Whether a row is one of an object. -/
def isOf (classType id : Int) (obj : XXDataHist Json) : Bool :=
  obj.objectId == some id && obj.objectClassType == classType

/-- The rows of each object, in the order of their ids, follow on one another without a gap. -/
def Tiles (dataHist : Table (XXDataHist Json)) : Prop :=
  ∀ classType id, (dataHist.rowsWhere (isOf classType id)).IsChain fun earlier later =>
    earlier.toTime = some later.fromTime

/-- What a call should do: the intervals tile, no closed row is changed, and every row keeps
the name it was created under. -/
structure Obeys (before : Table (XXDataHist Json)) (call : HistoryCall Json)
    (after : Table (XXDataHist Json)) : Prop where
  tiles : Tiles after
  closed : ∀ rowId row, before.get? rowId = some row → row.toTime.isSome = true →
    after.get? rowId = some row
  named : ∀ rowId row, before.get? rowId = some row →
    ∃ now, after.get? rowId = some now ∧ now.objectName = row.objectName
  created : ∀ rowId row, before.get? rowId = none → after.get? rowId = some row →
    row.objectName = call.baseModelObj.name

/-- The object has no rows yet, or one that is open and has its name, and is not created
again. -/
def Fits (before : Table (XXDataHist Json)) (call : HistoryCall Json) : Prop :=
  ∀ id, call.baseModelObj.id = some id →
    before.rowsWhere (isOf call.baseModelObj.objectClass.classType id) = [] ∨
      call.action ≠ .ACTION_CREATE ∧
        ∃ row, before.rowsWhere (isOf call.baseModelObj.objectClass.classType id) = [row] ∧
          row.toTime = none ∧ row.objectName = call.baseModelObj.name

section Step

variable {before : Table (XXDataHist Json)} {call : HistoryCall Json}

/-- The table with the row that the call creates. -/
def HistoryCall.create (call : HistoryCall Json) (before : Table (XXDataHist Json)) :
    Table (XXDataHist Json) :=
  before.insert (rowOf call.currentDate call.baseModelObj call.action)

/-- A row that the call closes. -/
def HistoryCall.close (call : HistoryCall Json) (prevHist : XXDataHist Json) : XXDataHist Json :=
  { prevHist with
    updateTime := call.currentDate
    toTime := some call.currentDate
    objectName := call.baseModelObj.name }

/-- The object of a call. -/
def HistoryCall.owns (call : HistoryCall Json) (id : Int) : XXDataHist Json → Bool :=
  isOf call.baseModelObj.objectClass.classType id

theorem HistoryCall.isOf_eq_owns (call : HistoryCall Json) (id : Int) :
    isOf call.baseModelObj.objectClass.classType id = call.owns id := rfl

variable (before) in
theorem step_of_create (creates : call.action = .ACTION_CREATE) :
    (step before call).2 = call.create before := by
  unfold step createObjectDataHistory HistoryCall.create
  rw [creates]
  rfl

variable (before) in
theorem rowsWhere_create {id : Int} (own : call.baseModelObj.id = some id) :
    (call.create before).rowsWhere (call.owns id) = before.rowsWhere (call.owns id) ++
      [rowOf call.currentDate call.baseModelObj call.action] := by
  unfold HistoryCall.create
  rw [Table.rowsWhere_insert, List.filter_cons_of_pos, List.filter_nil]
  simp only [HistoryCall.owns, isOf, rowOf, own, beq_self_eq_true, Bool.and_self]

variable (before) in
/-- A call that closes a row closes the first one of its object. -/
theorem step_of_close (closes : call.action ≠ .ACTION_CREATE) {id : Int}
    (own : call.baseModelObj.id = some id) :
    ∃ rowId prevHist rest, (call.create before).get? rowId = some prevHist ∧
      call.owns id prevHist = true ∧
      before.rowsWhere (call.owns id) ++
        [rowOf call.currentDate call.baseModelObj call.action] = prevHist :: rest ∧
      (step before call).2 = (call.create before).replace rowId (call.close prevHist) ∧
      (step before call).2.rowsWhere (call.owns id) = call.close prevHist :: rest := by
  have rows := rowsWhere_create before own
  cases found : (call.create before).find? (call.owns id) with
  | none =>
      exfalso
      have new : (call.create before).get? before.next =
          some (rowOf call.currentDate call.baseModelObj call.action) :=
        (Table.get?_insert _ _ _).trans (if_pos rfl)
      have missing := Table.find?_eq_none found new
      simp [HistoryCall.owns, isOf, rowOf, own] at missing
  | some entry =>
      obtain ⟨rowId, prevHist⟩ := entry
      obtain ⟨rest, first, replaced⟩ := Table.rowsWhere_of_find? found
      obtain ⟨located, passes⟩ := Table.find?_eq_some found
      have performed : (step before call).2 =
          (call.create before).replace rowId (call.close prevHist) := by
        have latest : XXDataHistDao.findLatestByObjectClassTypeAndObjectId
            (before.insert (rowOf call.currentDate call.baseModelObj call.action))
            call.baseModelObj.objectClass.classType call.baseModelObj.id =
              some (rowId, prevHist) := by
          rw [own]
          exact found
        unfold step createObjectDataHistory
        cases named : call.action with
        | ACTION_CREATE => exact absurd named closes
        | ACTION_UPDATE | ACTION_DELETE =>
            rw [named] at latest
            dsimp only
            rw [latest]
            unfold HistoryCall.create
            rw [named]
            rfl
      refine ⟨rowId, prevHist, rest, located, passes, rows ▸ first, performed, ?_⟩
      rw [performed]
      exact replaced _ passes

theorem step_of_nameless (closes : call.action ≠ .ACTION_CREATE)
    (own : call.baseModelObj.id = none) : (step before call).2 = before := by
  unfold step createObjectDataHistory
  rw [own]
  cases named : call.action with
  | ACTION_CREATE => exact absurd named closes
  | ACTION_UPDATE | ACTION_DELETE => rfl

/-- The rows of other objects stay as they are. -/
theorem rowsWhere_step_of_other {classType id : Int}
    (other : call.baseModelObj.id = some id →
      call.baseModelObj.objectClass.classType ≠ classType) :
    (step before call).2.rowsWhere (isOf classType id) = before.rowsWhere (isOf classType id) := by
  have outside : isOf classType id
      (rowOf call.currentDate call.baseModelObj call.action) = false := by
    simp only [isOf, rowOf, Bool.and_eq_false_imp, beq_iff_eq, beq_eq_false_iff_ne]
    exact other
  have created : (call.create before).rowsWhere (isOf classType id) =
      before.rowsWhere (isOf classType id) := by
    unfold HistoryCall.create
    rw [Table.rowsWhere_insert, List.filter_cons_of_neg (Bool.eq_false_iff.mp outside),
      List.filter_nil, List.append_nil]
  by_cases creates : call.action = .ACTION_CREATE
  · rw [step_of_create before creates, created]
  · cases own : call.baseModelObj.id with
    | none => rw [step_of_nameless creates own]
    | some ownId =>
        obtain ⟨rowId, prevHist, _, located, passes, _, performed, _⟩ :=
          step_of_close before creates own
        have apart : isOf classType id prevHist = false := by
          simp only [HistoryCall.owns, isOf, Bool.and_eq_true, beq_iff_eq] at passes
          simp only [isOf, Bool.and_eq_false_imp, beq_iff_eq, beq_eq_false_iff_ne, passes.1,
            passes.2]
          exact fun same => other (own.trans same)
        have still : isOf classType id (call.close prevHist) = false := apart
        rw [performed, Table.rowsWhere_replace located apart still, created]

end Step

section Fits

variable {before : Table (XXDataHist Json)} {call : HistoryCall Json}

theorem fits_iff : Fits before call ↔ ∀ id, call.baseModelObj.id = some id →
    before.rowsWhere (call.owns id) = [] ∨ call.action ≠ .ACTION_CREATE ∧
      ∃ row, before.rowsWhere (call.owns id) = [row] ∧ row.toTime = none ∧
        row.objectName = call.baseModelObj.name := Iff.rfl

/-- The row that a fitting call closes is its own, or an open one of the same name. -/
theorem Fits.closes (fits : Fits before call) {id rowId : Int}
    (own : call.baseModelObj.id = some id) {prevHist : XXDataHist Json}
    (passes : call.owns id prevHist = true) (old : before.get? rowId = some prevHist) :
    prevHist.toTime = none ∧ prevHist.objectName = call.baseModelObj.name := by
  have member := Table.mem_rowsWhere.mpr ⟨rowId, old, passes⟩
  obtain none | ⟨_, row, single, stays, named⟩ := fits_iff.mp fits id own
  · rw [none] at member
    exact absurd member List.not_mem_nil
  · rw [single, List.mem_singleton] at member
    rw [member]
    exact ⟨stays, named⟩

theorem Fits.tiles (fits : Fits before call) (tiles : Tiles before) :
    Tiles (step before call).2 := by
  intro classType id
  by_cases same : call.baseModelObj.id = some id ∧
      call.baseModelObj.objectClass.classType = classType
  · obtain ⟨own, rfl⟩ := same
    by_cases creates : call.action = .ACTION_CREATE
    · have none := (fits_iff.mp fits id own).resolve_right fun single => single.1 creates
      have rows := rowsWhere_create before own
      rw [none] at rows
      rw [step_of_create before creates, call.isOf_eq_owns, rows]
      exact .singleton _
    · obtain ⟨_, prevHist, rest, _, _, rows, _, after⟩ :=
        step_of_close before creates own
      rw [call.isOf_eq_owns, after]
      obtain none | ⟨_, row, single, _⟩ := fits_iff.mp fits id own
      · rw [none] at rows
        cases rows
        exact .singleton _
      · rw [single] at rows
        cases rows
        exact .cons_cons rfl (.singleton _)
  · rw [rowsWhere_step_of_other fun own kind => same ⟨own, kind⟩]
    exact tiles classType id

/-- A row that was not there is the one that is created. -/
theorem get?_create {rowId : Int} {row : XXDataHist Json}
    (found : (call.create before).get? rowId = some row) :
    before.get? rowId = some row ∨
      row = rowOf call.currentDate call.baseModelObj call.action := by
  unfold HistoryCall.create at found
  rw [Table.get?_insert] at found
  split at found
  · exact .inr (Option.some.inj found).symm
  · exact .inl found

theorem objectName_create {rowId : Int} {row : XXDataHist Json} (new : before.get? rowId = none)
    (found : (call.create before).get? rowId = some row) :
    row.objectName = call.baseModelObj.name := by
  obtain old | rfl := get?_create found
  · rw [new] at old
    cases old
  · rfl

/-- A call that only adds a row obeys, where the intervals tile. -/
theorem obeys_create (tiles : Tiles (call.create before)) :
    Obeys before call (call.create before) where
  tiles := tiles
  closed _ _ found _ := Table.get?_insert_of_some found _
  named _ row found := ⟨row, Table.get?_insert_of_some found _, rfl⟩
  created _ _ := objectName_create

/-- A call that adds a row and closes one obeys exactly when the intervals tile and the row
is its own, or was open and had its name. -/
theorem obeys_close_iff {rowId : Int} {prevHist : XXDataHist Json}
    (located : (call.create before).get? rowId = some prevHist)
    (later : prevHist.toTime ≠ some call.currentDate) :
    Obeys before call ((call.create before).replace rowId (call.close prevHist)) ↔
      Tiles ((call.create before).replace rowId (call.close prevHist)) ∧
        (before.get? rowId = some prevHist →
          prevHist.toTime = none ∧ prevHist.objectName = call.baseModelObj.name) := by
  have read := Table.get?_replace (Table.mem_ids_of_get? located) (call.close prevHist)
  constructor
  · intro obeys
    refine ⟨obeys.tiles, fun old => ⟨?_, ?_⟩⟩
    · by_contra closed
      have kept := obeys.closed rowId prevHist old (Option.isSome_iff_ne_none.mpr closed)
      rw [read, if_pos rfl, Option.some.injEq] at kept
      exact later (congrArg XXDataHist.toTime kept).symm
    · obtain ⟨now, found, named⟩ := obeys.named rowId prevHist old
      rw [read, if_pos rfl, Option.some.injEq] at found
      rw [← named, ← found]
      rfl
  · rintro ⟨tiles, closes⟩
    have old : ∀ row, before.get? rowId = some row → row = prevHist := by
      intro row found
      have same := Table.get?_insert_of_some found
        (rowOf call.currentDate call.baseModelObj call.action)
      exact Option.some.inj (same.symm.trans located)
    refine ⟨tiles, fun other row found closed => ?_, fun other row found => ?_,
      fun other row new found => ?_⟩
    · by_cases same : other = rowId
      · subst same
        obtain rfl := old row found
        rw [(closes found).1] at closed
        nomatch closed
      · rw [read, if_neg same]
        exact Table.get?_insert_of_some found _
    · by_cases same : other = rowId
      · subst same
        obtain rfl := old row found
        exact ⟨_, (read _).trans (if_pos rfl), (closes found).2.symm⟩
      · exact ⟨row, (read _).trans ((if_neg same).trans (Table.get?_insert_of_some found _)), rfl⟩
    · by_cases same : other = rowId
      · rw [read, if_pos same, Option.some.injEq] at found
        rw [← found]
        rfl
      · rw [read, if_neg same] at found
        exact objectName_create new found

/-- Where the intervals tile and all closed rows were closed before, the calls that obey are
those that fit. -/
theorem obeys_iff_fits (tiles : Tiles before)
    (later : ∀ rowId row, before.get? rowId = some row → row.toTime ≠ some call.currentDate) :
    Obeys before call (step before call).2 ↔ Fits before call := by
  by_cases creates : call.action = .ACTION_CREATE
  · rw [step_of_create before creates]
    constructor
    · intro obeys id own
      refine .inl ?_
      by_contra some
      obtain ⟨row, last⟩ := Option.isSome_iff_exists.mp (List.getLast?_isSome.mpr some)
      obtain ⟨rowId, old, _⟩ := Table.mem_rowsWhere.mp (List.mem_of_getLast? last)
      have chain := obeys.tiles call.baseModelObj.objectClass.classType id
      rw [call.isOf_eq_owns, rowsWhere_create before own, List.isChain_append] at chain
      exact later rowId row old (chain.2.2 row last _ rfl)
    · intro fits
      exact obeys_create (step_of_create before creates ▸ fits.tiles tiles)
  · cases own : call.baseModelObj.id with
    | none =>
        rw [step_of_nameless creates own]
        refine iff_of_true ⟨tiles, fun _ _ found _ => found, fun _ row found => ⟨row, found, rfl⟩,
          fun _ _ new found => ?_⟩ fun id named => ?_
        · rw [new] at found
          cases found
        · rw [own] at named
          cases named
    | some id =>
        obtain ⟨rowId, prevHist, rest, located, passes, rows, performed, after⟩ :=
          step_of_close before creates own
        have apart : prevHist.toTime ≠ some call.currentDate := by
          obtain old | rfl := get?_create located
          · exact later rowId prevHist old
          · exact nofun
        constructor
        · refine fun obeys => fits_iff.mpr fun _ same => ?_
          obtain rfl := Option.some.inj (own.symm.trans same)
          have chain := obeys.tiles call.baseModelObj.objectClass.classType id
          have chainBefore := tiles call.baseModelObj.objectClass.classType id
          rw [call.isOf_eq_owns] at chain chainBefore
          rw [after] at chain
          rw [performed, obeys_close_iff located apart] at obeys
          cases listed : before.rowsWhere (call.owns id) with
          | nil => exact .inl rfl
          | cons row others =>
              rw [listed] at rows chainBefore
              cases rows
              cases others with
              | nil =>
                  refine .inr ⟨creates, prevHist, rfl, ?_⟩
                  obtain old | new := get?_create located
                  · exact obeys.2 old
                  · rw [new]
                    exact ⟨rfl, rfl⟩
              | cons next more =>
                  have closed := (List.isChain_cons_cons.mp chainBefore).1
                  rw [← (List.isChain_cons_cons.mp chain).1] at closed
                  exact absurd closed apart
        · intro fits
          rw [performed]
          refine (obeys_close_iff located apart).mpr ⟨performed ▸ fits.tiles tiles, ?_⟩
          exact fits.closes own passes

/-- A row of the table after a call is closed by it or was closed before. -/
theorem toTime_step {rowId time : Int} {row : XXDataHist Json}
    (found : (step before call).2.get? rowId = some row) (closed : row.toTime = some time) :
    time = call.currentDate ∨
      ∃ oldId old, before.get? oldId = some old ∧ old.toTime = some time := by
  have added : ∀ {rowId row}, (call.create before).get? rowId = some row →
      row.toTime = some time → ∃ oldId old, before.get? oldId = some old ∧
        old.toTime = some time := by
    intro rowId row found closed
    obtain old | rfl := get?_create found
    · exact ⟨rowId, row, old, closed⟩
    · nomatch closed
  by_cases creates : call.action = .ACTION_CREATE
  · rw [step_of_create before creates] at found
    exact .inr (added found closed)
  · cases own : call.baseModelObj.id with
    | none =>
        rw [step_of_nameless creates own] at found
        exact .inr ⟨rowId, row, found, closed⟩
    | some id =>
        obtain ⟨closedId, prevHist, _, located, _, _, performed, _⟩ :=
          step_of_close before creates own
        rw [performed, Table.get?_replace (Table.mem_ids_of_get? located)] at found
        split at found
        · rw [← Option.some.inj found] at closed
          exact .inl (Option.some.inj closed).symm
        · exact .inr (added found closed)

end Fits

/-- From a table whose intervals tile, a run at later and later times obeys exactly when each
of its calls fits. -/
theorem throughout_iff (calls : List (HistoryCall Json)) :
    ∀ {before : Table (XXDataHist Json)}, Tiles before →
      (∀ rowId row, before.get? rowId = some row → ∀ time, row.toTime = some time →
        ∀ call ∈ calls, time < call.currentDate) →
      calls.Pairwise (fun earlier later => earlier.currentDate < later.currentDate) →
      (Run.Throughout step (fun before call => Obeys before call (step before call).2) before
        calls ↔ Run.Throughout step Fits before calls) := by
  induction calls with
  | nil => exact fun _ _ _ => Iff.rfl
  | cons call rest ih =>
      intro before tiles past increasing
      obtain ⟨later, increasing⟩ := List.pairwise_cons.mp increasing
      have here : Obeys before call (step before call).2 ↔ Fits before call := by
        refine obeys_iff_fits tiles fun rowId row found closed => ?_
        exact Int.lt_irrefl _ (past rowId row found _ closed call List.mem_cons_self)
      refine (and_congr_left' here).trans (and_congr_right fun fits => ih (fits.tiles tiles) ?_
        increasing)
      intro rowId row found time closed next member
      obtain rfl | ⟨oldId, old, located, earlier⟩ := toTime_step found closed
      · exact later next member
      · exact past oldId old located time earlier next (List.mem_cons_of_mem _ member)

/-- **The history of the objects.** The intervals tile, closed rows stay and all rows keep
their names in the runs whose calls each find no row of their object, or a single one that
is open and has its name. -/
theorem history_tiles_iff (calls : List (HistoryCall Json))
    (increasing : calls.Pairwise fun earlier later => earlier.currentDate < later.currentDate) :
    Run.Throughout step (fun before call => Obeys before call (step before call).2) .empty calls ↔
      Run.Throughout step Fits .empty calls :=
  throughout_iff calls (fun _ _ => .nil) (fun _ _ found => nomatch found) increasing

section Example

/-- A policy of a name. -/
def policyNamed (name : String) : RangerBaseModelObject Unit :=
  ⟨some 7, "guid", some 1, .policy, name, ()⟩

/-- A change of a policy closes the row of its creation. -/
theorem one_update_tiles :
    Run.Throughout step (fun before call => Obeys before call (step before call).2) .empty
      [⟨1, policyNamed "orders", .ACTION_CREATE⟩, ⟨2, policyNamed "orders", .ACTION_UPDATE⟩] := by
  refine (history_tiles_iff _ ?_).mpr ⟨fun id own => ?_, fun id own => ?_, trivial⟩
  · simp
  · exact .inl rfl
  · cases own
    exact .inr ⟨nofun, _, rfl, rfl, rfl⟩

/-- A second change of a policy closes the row of its creation again. -/
theorem second_update_closes_first :
    ¬ Run.Throughout step (fun before call => Obeys before call (step before call).2) .empty
      [⟨1, policyNamed "orders", .ACTION_CREATE⟩, ⟨2, policyNamed "orders", .ACTION_UPDATE⟩,
        ⟨3, policyNamed "orders", .ACTION_UPDATE⟩] := by
  intro obeys
  have kept := obeys.2.2.1.closed 1 _ rfl rfl
  have time := congrArg (Option.map XXDataHist.toTime) kept
  exact absurd time (by decide)

end Example

end RangerDataHistService

end Ranger
