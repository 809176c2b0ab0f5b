import Ranger.Agents.HbaseCoprocessor

/-! # Decisions about families, columns and cells

What an evaluation reports follows from the answers to the single questions, and the
filter made of it lets through the cells of what was requested and authorized.
-/

namespace Ranger

open Foundation

namespace RangerAuthorizationCoprocessor

variable [Malformed]

section Texts

theorem toString_toUTF8 (text : String) : Bytes.toString text.toUTF8 = text := by
  have decoded : String.fromUTF8? text.toUTF8 = some text := dif_pos text.isValidUTF8
  rw [Bytes.toString, decoded]
  rfl

omit [Malformed] in
theorem toUTF8_inj {first second : String} : first.toUTF8 = second.toUTF8 ↔ first = second :=
  String.toByteArray_inj

omit [Malformed] in
theorem isEmpty_toUTF8 (text : String) : text.toUTF8.isEmpty = text.isEmpty := rfl

/-- The families and columns are the encodings of texts, and no family is empty. -/
def Readable (familyMap : FamilyMap) : Prop :=
  ∀ entry ∈ familyMap.entries, (∃ family : String, family ≠ "" ∧ entry.1 = some family.toUTF8) ∧
    ∀ listed, entry.2 = some listed → ∀ column ∈ listed, ∃ text : String, column = some text.toUTF8

/-- A family is requested without columns, or a column of it is. -/
def Requested (familyMap : FamilyMap) (family : String) (column : Option String) : Prop :=
  ∃ columns, (some family.toUTF8, columns) ∈ familyMap.entries ∧
    match column with
    | none => columns = none ∨ columns = some []
    | some column => ∃ listed, columns = some listed ∧ some column.toUTF8 ∈ listed

theorem columnsOf_eq_nil_iff (columns : Option (List (Option ByteArray))) :
    columnsOf columns = [] ↔ columns = none ∨ columns = some [] := by
  cases columns with
  | none => simp [columnsOf]
  | some listed => simp [columnsOf, List.dedup_eq_nil]

theorem mem_columnsOf_iff {columns : Option (List (Option ByteArray))}
    (readable : ∀ listed, columns = some listed → ∀ column ∈ listed,
      ∃ text : String, column = some text.toUTF8) {column : String} :
    column ∈ columnsOf columns ↔ ∃ listed, columns = some listed ∧ some column.toUTF8 ∈ listed := by
  cases columns with
  | none =>
      refine iff_of_false List.not_mem_nil ?_
      rintro ⟨listed, impossible, _⟩
      cases impossible
  | some listed =>
      simp only [columnsOf, List.mem_dedup, List.mem_map, Option.some.injEq, exists_eq_left']
      constructor
      · rintro ⟨bytes, member, rfl⟩
        obtain ⟨text, rfl⟩ := readable listed rfl bytes member
        rw [Option.map_some, Option.getD_some, toString_toUTF8]
        exact member
      · intro member
        refine ⟨_, member, ?_⟩
        rw [Option.map_some, Option.getD_some, toString_toUTF8]

/-- **The families of a request.** A readable family map is read family by family. -/
theorem get?_foldl_addFamily {entries : List (Option ByteArray × Option (List (Option ByteArray)))}
    (once : (entries.map Prod.fst).Nodup)
    (named : ∀ entry ∈ entries, ∃ family : String, family ≠ "" ∧ entry.1 = some family.toUTF8)
    (result : AssocMap String (List String)) (family : String) (columns : List String) :
    (entries.foldl addFamily result).get? family = some columns ↔
      (∃ listed, (some family.toUTF8, listed) ∈ entries ∧ columnsOf listed = columns) ∨
        some family.toUTF8 ∉ entries.map Prod.fst ∧ result.get? family = some columns := by
  induction entries generalizing result with
  | nil => simp
  | cons entry rest ih =>
      obtain ⟨key, listed⟩ := entry
      obtain ⟨name, nonempty, same⟩ := named _ List.mem_cons_self
      dsimp only at same
      subst same
      rw [List.map_cons, List.nodup_cons] at once
      have added : addFamily result (some name.toUTF8, listed) =
          result.put name (columnsOf listed) := by
        have isEmpty : name.isEmpty = false := by simpa using nonempty
        simp only [addFamily, Option.map_some, toString_toUTF8, isEmpty, Bool.false_eq_true,
          ↓reduceIte]
      rw [List.foldl_cons, added,
        ih once.2 fun entry later => named entry (List.mem_cons_of_mem _ later), AssocMap.get?_put]
      by_cases own : family = name
      · subst own
        -- no entry behind this one is of the family
        have last : ∀ other, (some family.toUTF8, other) ∉ rest := fun other later =>
          once.1 (List.mem_map.mpr ⟨_, later, rfl⟩)
        rw [if_pos rfl, Option.some.injEq]
        constructor
        · rintro (⟨other, later, _⟩ | ⟨_, same⟩)
          · exact absurd later (last other)
          · exact .inl ⟨listed, List.mem_cons_self, same⟩
        · rintro (⟨other, member, same⟩ | ⟨outside, _⟩)
          · rcases List.mem_cons.mp member with first | later
            · cases first
              exact .inr ⟨once.1, same⟩
            · exact absurd later (last other)
          · exact absurd List.mem_cons_self outside
      · have other : (some family.toUTF8 : Option ByteArray) ≠ some name.toUTF8 := fun same =>
          own (toUTF8_inj.mp (Option.some.inj same))
        simp only [own, ↓reduceIte, List.map_cons, List.mem_cons, Prod.mk.injEq, other, false_and,
          false_or]

/-- Whether the families of a request name a family without columns, or a column of it. -/
def Names (families : AssocMap String (List String)) (family : String) (column : Option String) :
    Prop :=
  ∃ columns, families.get? family = some columns ∧
    match column with
    | none => columns = []
    | some column => column ∈ columns

theorem names_iff_requested {familyMap : FamilyMap} (readable : Readable familyMap)
    (family : String) (column : Option String) :
    Names (getColumnFamilies (some familyMap)) family column ↔
      Requested familyMap family column := by
  have read : ∀ columns, (getColumnFamilies (some familyMap)).get? family = some columns ↔
      ∃ listed, (some family.toUTF8, listed) ∈ familyMap.entries ∧ columnsOf listed = columns := by
    intro columns
    rw [getColumnFamilies, get?_foldl_addFamily familyMap.nodup
      fun entry listed => (readable entry listed).1]
    simp only [AssocMap.get?_empty, reduceCtorEq, and_false, or_false]
  have columns : ∀ listed, (some family.toUTF8, listed) ∈ familyMap.entries →
      ((match column with
        | none => columnsOf listed = []
        | some column => column ∈ columnsOf listed) ↔
        match column with
        | none => listed = none ∨ listed = some []
        | some column => ∃ columns, listed = some columns ∧ some column.toUTF8 ∈ columns) := by
    intro listed member
    cases column with
    | none => exact columnsOf_eq_nil_iff listed
    | some column => exact mem_columnsOf_iff (readable _ member).2
  unfold Names Requested
  simp only [read]
  constructor
  · rintro ⟨_, ⟨listed, member, rfl⟩, named⟩
    exact ⟨listed, member, (columns listed member).mp named⟩
  · rintro ⟨listed, member, requested⟩
    exact ⟨_, ⟨listed, member, rfl⟩, (columns listed member).mpr requested⟩

theorem names_nonempty {familyMap : FamilyMap} (readable : Readable familyMap) {family : String}
    {columns : List String}
    (found : (getColumnFamilies (some familyMap)).get? family = some columns) : family ≠ "" := by
  rw [getColumnFamilies, get?_foldl_addFamily familyMap.nodup
    fun entry listed => (readable entry listed).1] at found
  rcases found with ⟨listed, member, _⟩ | ⟨_, impossible⟩
  · obtain ⟨⟨name, nonempty, same⟩, _⟩ := readable _ member
    rw [toUTF8_inj.mp (Option.some.inj same)]
    exact nonempty
  · nomatch impossible

/-- A request that names nothing has no families. -/
theorem isEmpty_getColumnFamilies_iff {familyMap : FamilyMap} (readable : Readable familyMap) :
    (getColumnFamilies (some familyMap)).isEmpty = true ↔ familyMap.entries = [] := by
  constructor
  · intro empty
    apply List.eq_nil_iff_forall_not_mem.mpr
    intro entry member
    obtain ⟨⟨family, _, same⟩, _⟩ := readable entry member
    have found : (getColumnFamilies (some familyMap)).get? family = some (columnsOf entry.2) := by
      rw [getColumnFamilies, get?_foldl_addFamily familyMap.nodup
        fun entry listed => (readable entry listed).1]
      exact .inl ⟨entry.2, same ▸ member, rfl⟩
    have listed := AssocMap.get?_eq_some_iff.mp found
    rw [List.isEmpty_iff.mp empty] at listed
    nomatch listed
  · intro empty
    rw [getColumnFamilies, empty]
    rfl

end Texts

section Questions

variable {authorizer : Authorizer} {operation : String} {session : AuthorizationSession}

omit [Malformed] in
theorem verifyBuildable_of_table (access : session.access ≠ "")
    {table : String} (known : session.table = some table) (named : table ≠ "")
    (nested : AuthorizationSession.isProvided session.column = true →
      AuthorizationSession.isProvided session.columnFamily = true) :
    session.verifyBuildable = .ok () := by
  have isEmpty : table.isEmpty = false := by simpa using named
  have accessGiven : session.access.isEmpty = false := by simpa using access
  unfold AuthorizationSession.verifyBuildable
  rw [accessGiven, known]
  have tableGiven : AuthorizationSession.isProvided (some table) = true := by
    rw [AuthorizationSession.isProvided, isEmpty]
    rfl
  rw [tableGiven]
  cases column : AuthorizationSession.isProvided session.column with
  | false => simp
  | true => simp [nested column]

/-- A session that asks about a table. -/
structure Asks (session : AuthorizationSession) : Prop where
  access : session.access ≠ ""
  table : ∃ table : String, session.table = some table ∧ table ≠ ""

omit [Malformed] in
theorem Asks.authorize (asks : Asks session) {family : String} (named : family ≠ "")
    (column : Option String) :
    AuthorizationSession.authorize
        { session with columnFamily := some family, column := column } authorizer =
      .ok (session.isAuthorizedFor authorizer family column) := by
  obtain ⟨table, known, given⟩ := asks.table
  have isEmpty : family.isEmpty = false := by simpa using named
  have buildable := @verifyBuildable_of_table
    { session with columnFamily := some family, column := column } asks.access table known given
    fun _ => by rw [AuthorizationSession.isProvided, isEmpty]; rfl
  unfold AuthorizationSession.authorize
  rw [buildable]
  rfl

omit [Malformed] in
/-- **Columns.** The loop over the columns of a family collects those that are authorized. -/
theorem foldlM_visitColumn (asks : Asks session) {family : String} (named : family ≠ "")
    (columns : List String) (state : Evaluated) (accessibleColumns : List String) :
    ∃ denialReason,
      columns.foldlM (visitColumn authorizer operation session family) (state, accessibleColumns) =
        .ok
          ({ everythingIsAccessible := state.everythingIsAccessible &&
              columns.all fun column => session.isAuthorizedFor authorizer family (some column)
             somethingIsAccessible := state.somethingIsAccessible ||
              columns.any fun column => session.isAuthorizedFor authorizer family (some column)
             denialReason := denialReason
             accessResultsCache := state.accessResultsCache },
            accessibleColumns ++
              columns.filter fun column =>
                session.isAuthorizedFor authorizer family (some column)) := by
  induction columns generalizing state accessibleColumns with
  | nil =>
      refine ⟨state.denialReason, ?_⟩
      simp only [List.foldlM_nil, List.all_nil, Bool.and_true, List.any_nil, Bool.or_false,
        List.filter_nil, List.append_nil]
      rfl
  | cons column rest ih =>
      rw [List.foldlM_cons, visitColumn, asks.authorize named]
      cases authorized : session.isAuthorizedFor authorizer family (some column) with
      | true =>
          obtain ⟨denialReason, visited⟩ :=
            ih { state with somethingIsAccessible := true } (accessibleColumns ++ [column])
          refine ⟨denialReason, visited.trans ?_⟩
          simp [authorized]
      | false =>
          obtain ⟨denialReason, visited⟩ := ih { state with
            everythingIsAccessible := false
            denialReason := some (insufficient operation session ++ ", family:" ++ family ++
              ", column: " ++ column) } accessibleColumns
          refine ⟨denialReason, visited.trans ?_⟩
          simp [authorized]

variable (authorizer session) in
/-- What is remembered of a family: all columns, those authorized, or nothing. -/
def remembered (family : String) (columns : List String) : Option (Option (List String)) :=
  if columns.isEmpty then
    if session.isAuthorizedFor authorizer family none then some none else none
  else
    let accessible := columns.filter fun column =>
      session.isAuthorizedFor authorizer family (some column)
    if accessible.isEmpty then none else some (some accessible)

variable (authorizer session) in
/-- What was asked about a family, with the answers. -/
def answers (family : String) (columns : List String) : List Bool :=
  if columns.isEmpty then [session.isAuthorizedFor authorizer family none]
  else columns.map fun column => session.isAuthorizedFor authorizer family (some column)

/-- What the variables are after a family, up to the reason of a denial. -/
structure Visited (authorizer : Authorizer) (session : AuthorizationSession) (family : String)
    (columns : List String) (state after : Evaluated) : Prop where
  everything : after.everythingIsAccessible =
    (state.everythingIsAccessible && (answers authorizer session family columns).all id)
  something : after.somethingIsAccessible =
    (state.somethingIsAccessible || (answers authorizer session family columns).any id)
  cache : after.accessResultsCache =
    match remembered authorizer session family columns with
    | none => state.accessResultsCache
    | some columns => state.accessResultsCache.put family columns

omit [Malformed] in
theorem visitFamily_eq_ok (asks : Asks session) {family : String} (named : family ≠ "")
    (columns : List String) (state : Evaluated) :
    ∃ after, visitFamily authorizer operation session state (family, columns) = .ok after ∧
      Visited authorizer session family columns state after := by
  unfold visitFamily
  dsimp only
  cases empty : columns.isEmpty with
  | true =>
      rw [if_pos rfl, asks.authorize named]
      cases authorized : session.isAuthorizedFor authorizer family none with
      | true =>
          refine ⟨_, rfl, ⟨?_, ?_, ?_⟩⟩ <;> simp [answers, remembered, empty, authorized]
      | false =>
          refine ⟨_, rfl, ⟨?_, ?_, ?_⟩⟩ <;> simp [answers, remembered, empty, authorized]
  | false =>
      rw [if_neg Bool.false_ne_true]
      obtain ⟨denialReason, visited⟩ :=
        @foldlM_visitColumn authorizer operation session asks family named columns state []
      rw [visited, List.nil_append]
      cases none : (columns.filter fun column =>
          session.isAuthorizedFor authorizer family (some column)).isEmpty with
      | true =>
          refine ⟨_, if_pos none, ⟨?_, ?_, ?_⟩⟩ <;>
            simp [answers, remembered, empty, none, Function.comp_def]
      | false =>
          refine ⟨_, if_neg (Bool.eq_false_iff.mp none), ⟨?_, ?_, ?_⟩⟩ <;>
            simp [answers, remembered, empty, none, Function.comp_def]

end Questions

section Families

variable {authorizer : Authorizer} {operation : String} {session : AuthorizationSession}

omit [Malformed] in
theorem Visited.get? {family : String} {columns : List String} {state after : Evaluated}
    (visited : Visited authorizer session family columns state after)
    (fresh : state.accessResultsCache.get? family = none) (other : String)
    (allowed : Option (List String)) :
    after.accessResultsCache.get? other = some allowed ↔
      other = family ∧ remembered authorizer session family columns = some allowed ∨
        state.accessResultsCache.get? other = some allowed := by
  rw [visited.cache]
  cases kept : remembered authorizer session family columns with
  | none => simp
  | some columns =>
      dsimp only
      rw [AssocMap.get?_put]
      by_cases same : other = family
      · subst same
        simp [fresh]
      · simp [same]

omit [Malformed] in
/-- **Families.** The loop over the families joins the answers of all, and remembers what was
allowed of each. -/
theorem foldlM_visitFamily (asks : Asks session) {entries : List (String × List String)}
    (once : (entries.map Prod.fst).Nodup) (named : ∀ entry ∈ entries, entry.1 ≠ "")
    (state : Evaluated)
    (fresh : ∀ entry ∈ entries, state.accessResultsCache.get? entry.1 = none) :
    ∃ after, entries.foldlM (visitFamily authorizer operation session) state = .ok after ∧
      after.everythingIsAccessible = (state.everythingIsAccessible &&
        entries.all fun entry => (answers authorizer session entry.1 entry.2).all id) ∧
      after.somethingIsAccessible = (state.somethingIsAccessible ||
        entries.any fun entry => (answers authorizer session entry.1 entry.2).any id) ∧
      ∀ family allowed, after.accessResultsCache.get? family = some allowed ↔
        (∃ columns, (family, columns) ∈ entries ∧
          remembered authorizer session family columns = some allowed) ∨
          state.accessResultsCache.get? family = some allowed := by
  induction entries generalizing state with
  | nil => exact ⟨state, rfl, by simp, by simp, by simp⟩
  | cons entry rest ih =>
      obtain ⟨first, columns⟩ := entry
      rw [List.map_cons, List.nodup_cons] at once
      obtain ⟨next, turned, visited⟩ := @visitFamily_eq_ok authorizer operation session asks first
        (named _ List.mem_cons_self) columns state
      have lookup := visited.get? (fresh _ List.mem_cons_self)
      have later : ∀ entry ∈ rest, next.accessResultsCache.get? entry.1 = none := by
        intro entry member
        have other : entry.1 ≠ first := fun same =>
          once.1 (List.mem_map.mpr ⟨entry, member, same⟩)
        have before := fresh entry (List.mem_cons_of_mem _ member)
        apply Option.eq_none_iff_forall_not_mem.mpr
        intro allowed found
        rcases (lookup entry.1 allowed).mp found with ⟨same, _⟩ | kept
        · exact other same
        · rw [before] at kept
          cases kept
      obtain ⟨after, looped, everything, something, cache⟩ :=
        ih once.2 (fun entry member => named entry (List.mem_cons_of_mem _ member)) next later
      refine ⟨after, ?_, ?_, ?_, ?_⟩
      · rw [List.foldlM_cons, turned]
        exact looped
      · rw [everything, visited.everything, List.all_cons, Bool.and_assoc]
      · rw [something, visited.something, List.any_cons, Bool.or_assoc]
      · intro family allowed
        rw [cache, lookup]
        simp only [List.mem_cons, Prod.mk.injEq]
        constructor
        · rintro (⟨columns, member, kept⟩ | ⟨rfl, kept⟩ | before)
          · exact .inl ⟨columns, .inr member, kept⟩
          · exact .inl ⟨columns, .inl ⟨rfl, rfl⟩, kept⟩
          · exact .inr before
        · rintro (⟨columns, ⟨rfl, rfl⟩ | member, kept⟩ | before)
          · exact .inr (.inl ⟨rfl, kept⟩)
          · exact .inl ⟨columns, member, kept⟩
          · exact .inr (.inr before)

variable {families : AssocMap String (List String)}

omit [Malformed] in
theorem all_answers_iff (family : String) (columns : List String) :
    (answers authorizer session family columns).all id = true ↔
      ∀ column : Option String, (match column with
        | none => columns = []
        | some column => column ∈ columns) →
          session.isAuthorizedFor authorizer family column = true := by
  unfold answers
  cases columns with
  | nil =>
      constructor
      · intro authorized column requested
        cases column with
        | none => simpa using authorized
        | some column => nomatch requested
      · intro authorized
        simpa using authorized none rfl
  | cons first rest =>
      rw [if_neg (by simp), List.all_map, List.all_eq_true]
      constructor
      · intro authorized column requested
        cases column with
        | none => nomatch requested
        | some column => exact authorized column requested
      · exact fun authorized column member => authorized (some column) member

omit [Malformed] in
theorem any_answers_iff (family : String) (columns : List String) :
    (answers authorizer session family columns).any id = true ↔
      ∃ column : Option String, (match column with
        | none => columns = []
        | some column => column ∈ columns) ∧
          session.isAuthorizedFor authorizer family column = true := by
  unfold answers
  cases columns with
  | nil =>
      constructor
      · exact fun authorized => ⟨none, rfl, by simpa using authorized⟩
      · rintro ⟨column, requested, authorized⟩
        cases column with
        | none => simpa using authorized
        | some column => nomatch requested
  | cons first rest =>
      rw [if_neg (by simp), List.any_map, List.any_eq_true]
      constructor
      · rintro ⟨column, member, authorized⟩
        exact ⟨some column, member, authorized⟩
      · rintro ⟨column, requested, authorized⟩
        cases column with
        | none => nomatch requested
        | some column => exact ⟨column, requested, authorized⟩

omit [Malformed] in
theorem all_families_iff : (families.entries.all fun entry =>
      (answers authorizer session entry.1 entry.2).all id) = true ↔
    ∀ family column, Names families family column →
      session.isAuthorizedFor authorizer family column = true := by
  rw [List.all_eq_true]
  constructor
  · rintro authorized family column ⟨columns, found, requested⟩
    have family := authorized _ (AssocMap.get?_eq_some_iff.mp found)
    exact (all_answers_iff _ _).mp family column requested
  · intro authorized entry member
    apply (all_answers_iff _ _).mpr
    exact fun column requested => authorized entry.1 column
      ⟨entry.2, AssocMap.get?_eq_some_iff.mpr member, requested⟩

omit [Malformed] in
theorem any_families_iff : (families.entries.any fun entry =>
      (answers authorizer session entry.1 entry.2).any id) = true ↔
    ∃ family column, Names families family column ∧
      session.isAuthorizedFor authorizer family column = true := by
  rw [List.any_eq_true]
  constructor
  · rintro ⟨entry, member, authorized⟩
    obtain ⟨column, requested, authorized⟩ := (any_answers_iff _ _).mp authorized
    exact ⟨entry.1, column, ⟨entry.2, AssocMap.get?_eq_some_iff.mpr member, requested⟩, authorized⟩
  · rintro ⟨family, column, ⟨columns, found, requested⟩, authorized⟩
    exact ⟨_, AssocMap.get?_eq_some_iff.mp found,
      (any_answers_iff _ _).mpr ⟨column, requested, authorized⟩⟩

/-- **Cells.** The filter lets a cell through when its column or its whole family was allowed. -/
theorem filterKeyValue_eq_include_iff {cache : AssocMap String (Option (List String))}
    {family qualifier : String} (namedFamily : family ≠ "") (namedQualifier : qualifier ≠ "") :
    RangerAuthorizationFilter.filterKeyValue (some cache) (some family.toUTF8)
        (some qualifier.toUTF8) = .include ↔
      ∃ columns, cache.get? family = some columns ∧
        (columns.getD [] = [] ∨ qualifier ∈ columns.getD []) := by
  have familyGiven : family.toUTF8.isEmpty = false := by
    rw [isEmpty_toUTF8]
    simpa using namedFamily
  have qualifierGiven : qualifier.toUTF8.isEmpty = false := by
    rw [isEmpty_toUTF8]
    simpa using namedQualifier
  unfold RangerAuthorizationFilter.filterKeyValue
  simp only [familyGiven, qualifierGiven, toString_toUTF8, Bool.false_eq_true, ↓reduceIte]
  cases found : cache.get? family with
  | none => simp
  | some columns =>
      have notEmpty : cache.isEmpty = false := by
        have member := AssocMap.get?_eq_some_iff.mp found
        cases empty : cache.isEmpty with
        | false => rfl
        | true =>
            rw [List.isEmpty_iff.mp empty] at member
            cases member
      simp only [notEmpty, Bool.false_eq_true, ↓reduceIte, Option.some.injEq, exists_eq_left',
        List.isEmpty_iff, List.contains_eq_mem, decide_eq_true_eq]
      by_cases all : columns.getD [] = []
      · simp [all]
      · by_cases listed : qualifier ∈ columns.getD []
        · simp [all, listed]
        · simp [all, listed]

omit [Malformed] in
theorem remembered_lets_through_iff (family qualifier : String) (columns : List String) :
    (∃ allowed, remembered authorizer session family columns = some allowed ∧
      (allowed.getD [] = [] ∨ qualifier ∈ allowed.getD [])) ↔
      columns = [] ∧ session.isAuthorizedFor authorizer family none = true ∨
        qualifier ∈ columns ∧
          session.isAuthorizedFor authorizer family (some qualifier) = true := by
  unfold remembered
  cases columns with
  | nil => cases session.isAuthorizedFor authorizer family none <;> simp
  | cons first rest =>
      generalize listed : first :: rest = columns
      have notEmpty : columns ≠ [] := listed ▸ List.cons_ne_nil first rest
      rw [if_neg (by simpa using notEmpty)]
      dsimp only
      cases kept : columns.filter fun column =>
          session.isAuthorizedFor authorizer family (some column) with
      | nil =>
          have denied := List.filter_eq_nil_iff.mp kept
          simp only [List.isEmpty_nil, ↓reduceIte, reduceCtorEq, false_and, exists_false, notEmpty,
            false_or, false_iff]
          exact fun requested => denied qualifier requested.1 requested.2
      | cons first rest =>
          rw [if_neg (by simp), ← kept]
          simp only [Option.some.injEq, exists_eq_left', Option.getD_some, List.mem_filter, notEmpty,
            false_and, false_or]
          rw [kept]
          simp

/-- The decisions about the single families and columns of a request. -/
structure Follows (authorizer : Authorizer) (session : AuthorizationSession)
    (requested : String → Option String → Prop) (result : ColumnFamilyAccessResult) : Prop where
  everything : result.everythingIsAccessible = true ↔
    ∀ family column, requested family column →
      session.isAuthorizedFor authorizer family column = true
  something : result.somethingIsAccessible = true ↔
    ∃ family column, requested family column ∧
      session.isAuthorizedFor authorizer family column = true
  cells : ∃ cache, result.allowedColumns = some cache ∧
    ∀ family qualifier, family ≠ "" → qualifier ≠ "" →
      (RangerAuthorizationFilter.filterKeyValue (some cache) (some family.toUTF8)
          (some qualifier.toUTF8) = .include ↔
        requested family none ∧ session.isAuthorizedFor authorizer family none = true ∨
          requested family (some qualifier) ∧
            session.isAuthorizedFor authorizer family (some qualifier) = true)

/-- **Families and columns.** What is reported about them is made of the single decisions. -/
theorem evaluateFamilies_follows (asks : Asks session)
    (named : ∀ family columns, families.get? family = some columns → family ≠ "")
    (given : families.isEmpty = false) :
    ∃ result, evaluateFamilies authorizer operation session families = .ok result ∧
      Follows authorizer session (Names families) result := by
  obtain ⟨after, looped, everything, something, cache⟩ :=
    @foldlM_visitFamily authorizer operation session asks families.entries families.nodup
      (fun entry member => named _ _ (AssocMap.get?_eq_some_iff.mpr member)) {}
      (fun _ _ => AssocMap.get?_empty _)
  unfold evaluateFamilies
  rw [given, if_neg Bool.false_ne_true, looped]
  refine ⟨_, rfl, ⟨?_, ?_, _, rfl, ?_⟩⟩
  · rw [everything, Bool.true_and]
    exact all_families_iff
  · rw [something, Bool.false_or]
    exact any_families_iff
  · intro family qualifier namedFamily namedQualifier
    rw [filterKeyValue_eq_include_iff namedFamily namedQualifier]
    simp only [cache, AssocMap.get?_empty, reduceCtorEq, or_false, Names]
    constructor
    · rintro ⟨allowed, ⟨columns, member, kept⟩, through⟩
      have found := AssocMap.get?_eq_some_iff.mpr member
      rcases (remembered_lets_through_iff family qualifier columns).mp ⟨allowed, kept, through⟩ with
        ⟨none, authorized⟩ | ⟨listed, authorized⟩
      · exact .inl ⟨⟨columns, found, none⟩, authorized⟩
      · exact .inr ⟨⟨columns, found, listed⟩, authorized⟩
    · intro requested
      obtain ⟨columns, found, decided⟩ : ∃ columns, families.get? family = some columns ∧
          (columns = [] ∧ session.isAuthorizedFor authorizer family none = true ∨
            qualifier ∈ columns ∧
              session.isAuthorizedFor authorizer family (some qualifier) = true) := by
        rcases requested with
          ⟨⟨columns, found, none⟩, authorized⟩ | ⟨⟨columns, found, listed⟩, authorized⟩
        · exact ⟨columns, found, .inl ⟨none, authorized⟩⟩
        · exact ⟨columns, found, .inr ⟨listed, authorized⟩⟩
      obtain ⟨allowed, kept, through⟩ :=
        (remembered_lets_through_iff family qualifier columns).mpr decided
      exact ⟨allowed, ⟨columns, AssocMap.get?_eq_some_iff.mp found, kept⟩, through⟩

end Families

section Requests

variable {authorizer : Authorizer} {operation : String} {action : Permission.Action}
  {env : RegionCoprocessorEnvironment} {user : User}

omit [Malformed] in
theorem getAccess_ne_empty (action : Permission.Action) :
    HbaseAuthUtils.getAccess action ≠ "" := by
  cases action <;> decide

omit [Malformed] in
theorem sessionFor_asks {table : String} (named : table ≠ "") :
    Asks (sessionFor action env user table) :=
  ⟨getAccess_ne_empty action, table, rfl, named⟩

omit [Malformed] in
theorem Asks.authorize_table (asks : Asks session) (plain : session.column = none) :
    session.authorize authorizer = .ok (session.isAuthorized authorizer) := by
  obtain ⟨table, known, given⟩ := asks.table
  have buildable := verifyBuildable_of_table asks.access known given fun column => by
    rw [plain] at column
    nomatch column
  unfold AuthorizationSession.authorize
  rw [buildable]
  rfl

omit [Malformed] in
/-- Whether the check is skipped is always decided. -/
theorem canSkipAccessCheck_eq_ok (access table : String) :
    ∃ skipped, canSkipAccessCheck authorizer env user access table = .ok skipped := by
  unfold canSkipAccessCheck
  split
  · exact ⟨true, rfl⟩
  · split
    · exact ⟨true, rfl⟩
    · split
      · exact ⟨_, rfl⟩
      · exact ⟨false, rfl⟩

end Requests

section Instances

/-- Malformed bytes are read as the replacement character. -/
@[reducible] def replaced : Malformed := ⟨fun _ => "\uFFFD"⟩

/-- A region of a table, used by somebody who is not a super user. -/
def region : RegionCoprocessorEnvironment where
  tableName := some "t".toUTF8
  activeUser := some { name := "u", shortName := "u" }

/-- A request for one column of a family. -/
def oneColumn : FamilyMap :=
  ⟨[(some "f".toUTF8, some [some "q".toUTF8])], List.nodup_singleton _⟩

end Instances

end RangerAuthorizationCoprocessor

end Ranger
