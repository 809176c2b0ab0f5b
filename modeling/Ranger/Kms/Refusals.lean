import Ranger.Kms.Mediation

/-! # Requests that are refused

A request stops at the first refusal, and only a refusal is answered with the status that
says so; but what is refused while keys are generated is answered like a failure of the
server.
-/

namespace Ranger

open Foundation

/-- A question about a key, or to the provider. -/
def KMSQuestion.NoAssertion (question : KMSQuestion) : Prop :=
  ∀ type ugi operation key, question ≠ .assertAccess type ugi operation key

/-- A list refuses the user: an assertion fails, a key has no list, or the list of a key has
the user neither for the operation nor for all of them. -/
def KMSEvent.Refuses : KMSEvent → Prop
  | ⟨.assertAccess .., .error _⟩ => True
  | ⟨.isACLPresent .., answer⟩ => answer = false
  | ⟨.hasAccessToKey _ _ .all, answer⟩ => answer = false
  | _ => False

/-- The refusal is by the lists of a key. -/
def KMSEvent.RefusesKey (event : KMSEvent) : Prop :=
  event.Refuses ∧ event.1.NoAssertion

namespace KMSHistory

/-- The last that a request was told is of some kind. -/
def Ends (kind : KMSEvent → Prop) (past : KMSHistory) : Prop :=
  ∃ before event, past = before ++ [event] ∧ kind event

theorem ends_snoc (kind : KMSEvent → Prop) (past : KMSHistory) (event : KMSEvent) :
    Ends kind (past ++ [event]) ↔ kind event := by
  constructor
  · intro ends
    obtain ⟨before, other, same, holds⟩ := ends
    obtain ⟨_, last⟩ := List.append_inj' same rfl
    cases last
    exact holds
  · exact fun holds => ⟨past, event, rfl, holds⟩

end KMSHistory

open KMSHistory

/-- A request that generates no keys. -/
def KMSRequest.GeneratesNone : KMSRequest → Prop
  | .generateEncryptedKeys .. => False
  | _ => True

namespace KMSFailure

/-- A user was refused. -/
def IsRefusal : KMSFailure → Prop
  | .authorization _ => True
  | _ => False

end KMSFailure

namespace KMS

open KMSWork KeyAuthorizationKeyProvider

/-- What a part of a request asks: anything, or no assertions. -/
structure Asks where
  may : KMSQuestion → Prop
  others : ∀ question, question.NoAssertion → may question

def Asks.anything : Asks := ⟨fun _ => True, fun _ _ => trivial⟩

def Asks.noAssertions : Asks := ⟨KMSQuestion.NoAssertion, fun _ other => other⟩

/-- A part of a request throws for a refusal just when it was refused, and returns else. -/
def Stops (asks : Asks) {α : Type} (work : KMSWork α) : Prop :=
  ∀ past : KMSHistory, ¬Ends KMSEvent.Refuses past →
    Asking.Ensures (fun _ => asks.may) past work (fun now _ => ¬Ends KMSEvent.Refuses now)
      fun now failure => failure.IsRefusal ↔ Ends KMSEvent.Refuses now

section Parts

variable {α β : Type} {asks : Asks}

theorem stops_pure (value : α) : Stops asks (pure value) := fun _ unrefused => unrefused

theorem stops_throw {failure : KMSFailure} (other : ¬failure.IsRefusal) :
    Stops asks (throw failure : KMSWork α) :=
  fun _ unrefused => iff_of_false other unrefused

theorem Stops.bind {first : KMSWork α} {next : α → KMSWork β} (one : Stops asks first)
    (two : ∀ value, Stops asks (next value)) : Stops asks (first >>= next) :=
  fun past unrefused => Asking.ensures_bind (one past unrefused) fun now value _ still =>
    two value now still

theorem stops_hasAccess (type : KMSACLsType) (ugi : UserGroupInformation) :
    Stops asks (hasAccess type ugi) := by
  intro past _
  exact Asking.ensures_request (asks.others _ fun _ _ _ _ same => by cases same) fun answer =>
    (ends_snoc _ past _).not.mpr id

theorem stops_provider (call : ProviderCall) : Stops asks (provider call) := by
  intro past _
  refine Asking.ensures_request_bind (asks.others _ fun _ _ _ _ same => by cases same)
    fun answer => ?_
  have unrefused : ¬Ends KMSEvent.Refuses (past ++ [⟨.provider call, answer⟩]) :=
    (ends_snoc _ past _).not.mpr id
  rcases answer with exception | result
  · exact stops_throw id _ unrefused
  · exact unrefused

theorem stops_assertAccess (type : KMSACLsType) (ugi : UserGroupInformation) (operation : KMSOp)
    (key : Option String) : Stops .anything (assertAccess type ugi operation key) := by
  intro past _
  refine Asking.ensures_request_bind trivial fun answer => ?_
  rcases answer with message | granted
  · exact iff_of_true trivial ((ends_snoc _ past _).mpr trivial)
  · exact (ends_snoc _ past _).not.mpr id

/-- The lists of a key, asked for an operation. -/
theorem stops_lists (aclName : String) (ugi : UserGroupInformation) {opType : KeyOpType}
    (other : opType ≠ .all) {granted : KMSWork α} (passes : Stops asks granted)
    (message : String) :
    Stops asks (do
      if ← hasAccessToKeyOrAll aclName ugi opType then granted
      else throw (.authorization message)) := by
  intro past _
  have asked : Asking.Ensures (fun _ => asks.may) past (hasAccessToKeyOrAll aclName ugi opType)
      (fun now answer => answer = false ↔ Ends KMSEvent.Refuses now)
      fun now failure => failure.IsRefusal ↔ Ends KMSEvent.Refuses now := by
    refine Asking.ensures_request_bind (asks.others _ fun _ _ _ _ same => by cases same)
      fun answer => ?_
    cases answer with
    | true =>
        refine iff_of_false Bool.false_ne_true.symm ?_
        refine (ends_snoc _ past _).not.mpr ?_
        cases opType <;> simp_all [KMSEvent.Refuses]
    | false =>
        refine Asking.ensures_request (asks.others _ fun _ _ _ _ same => by cases same)
          fun answer => ?_
        exact (ends_snoc KMSEvent.Refuses (past ++ [⟨.hasAccessToKey aclName ugi opType, false⟩])
          ⟨.hasAccessToKey aclName ugi .all, answer⟩).symm
  refine Asking.ensures_bind asked fun now answer _ told => ?_
  cases answer with
  | true => exact passes now (told.not.mp Bool.false_ne_true.symm)
  | false => exact iff_of_true trivial (told.mp rfl)

/-- A key whose list is there, or the refusal because it is not. -/
theorem stops_isACLPresent (aclName : String) (opType : KeyOpType) {there : KMSWork α}
    (passes : Stops asks there) (message : String) :
    Stops asks (do
      if ← isACLPresent aclName opType then there
      else throw (.authorization message)) := by
  intro past _
  refine Asking.ensures_request_bind (asks.others _ fun _ _ _ _ same => by cases same)
    fun answer => ?_
  cases answer with
  | true => exact passes _ ((ends_snoc _ past _).not.mpr Bool.false_ne_true.symm)
  | false => exact iff_of_true trivial ((ends_snoc _ past _).mpr rfl)

theorem stops_doAccessCheck (ugi : UserGroupInformation) (keyName : String) {opType : KeyOpType}
    (other : opType ≠ .all) : Stops asks (doAccessCheck ugi keyName opType) := by
  refine (stops_provider (.getMetadata keyName)).bind fun metadata => ?_
  cases metadata with
  | none => exact stops_pure ()
  | some metadata =>
      exact stops_isACLPresent _ _ (stops_lists _ ugi other (stops_pure ()) _) _

theorem stops_authorizeCreateKey (keyName : String) (options : Options)
    (ugi : UserGroupInformation) : Stops asks (authorizeCreateKey keyName options ugi) := by
  have other : KeyOpType.management ≠ .all := fun same => by cases same
  unfold authorizeCreateKey
  dsimp only
  split
  · cases options.attributes.lookup KEY_ACL_NAME with
    | none => exact stops_isACLPresent _ _ (stops_lists _ ugi other (stops_pure _) _) _
    | some aclName => exact stops_isACLPresent _ _ (stops_throw id) _
  · exact stops_isACLPresent _ _ (stops_lists _ ugi other (stops_pure _) _) _

theorem stops_forM {γ : Type} (items : List γ) {body : γ → KMSWork PUnit}
    (turns : ∀ item, Stops asks (body item)) : Stops asks (items.forM body) :=
  fun _ unrefused => Asking.ensures_forM unrefused fun now _ still item _ => turns item now still

/-- What the provider does for a user, with or without lists of keys. -/
theorem stops_perform (settings : KMSSettings) (user : UserGroupInformation)
    (call : ProviderCall) : Stops asks (perform settings user call) := by
  have checked : ∀ (call : ProviderCall) (name : String) {opType : KeyOpType}, opType ≠ .all →
      Stops asks (do doAccessCheck user name opType; provider call) :=
    fun call name _ other => (stops_doAccessCheck user name other).bind fun _ => stops_provider call
  have read : KeyOpType.read ≠ .all := fun same => by cases same
  have management : KeyOpType.management ≠ .all := fun same => by cases same
  have generateEek : KeyOpType.generateEek ≠ .all := fun same => by cases same
  have decryptEek : KeyOpType.decryptEek ≠ .all := fun same => by cases same
  unfold KMS.perform
  split
  · cases call with
    | createKey name material options =>
        exact (stops_authorizeCreateKey name options user).bind fun options =>
          stops_provider (.createKey name material options)
    | rollNewVersion name => exact checked _ name management
    | deleteKey name => exact checked _ name management
    | flush => exact stops_provider _
    | getKeyVersion versionName =>
        refine (stops_provider (.getKeyVersion versionName)).bind fun keyVersion => ?_
        cases keyVersion with
        | none => exact stops_pure _
        | some keyVersion =>
            exact (stops_doAccessCheck user keyVersion.name read).bind fun _ => stops_pure _
    | getKeys => exact stops_provider _
    | getKeyVersions name => exact checked _ name read
    | getMetadata name => exact checked _ name read
    | getKeysMetadata names =>
        exact (stops_forM names fun name => stops_doAccessCheck user name read).bind fun _ =>
          stops_provider (.getKeysMetadata names)
    | getCurrentKey name => exact checked _ name read
    | generateEncryptedKey name => exact checked _ name generateEek
    | decryptEncryptedKey ekv =>
        have verified : Stops asks (verifyKeyVersionBelongsToKey ekv) := by
          refine (stops_provider (.getKeyVersion ekv.encryptionKeyVersionName)).bind fun kv => ?_
          cases kv with
          | none => exact stops_throw id
          | some kv =>
              dsimp only
              split
              · exact stops_pure ()
              · exact stops_throw id
        exact verified.bind fun _ => checked (.decryptEncryptedKey ekv) _ decryptEek
    | warmUpEncryptedKeys names =>
        exact (stops_forM names fun name => stops_doAccessCheck user name generateEek).bind fun _ =>
          stops_provider (.warmUpEncryptedKeys names)
  · exact stops_provider call

end Parts

section Requests

variable {settings : KMSSettings} {user : UserGroupInformation} {asks : Asks}

theorem stops_checkNotNull {α : Type} (value : Option α) (field : String) :
    Stops asks (checkNotNull value field) := by
  cases value with
  | none => exact stops_throw id
  | some value => exact stops_pure value

theorem stops_checkNotEmpty (text : Option String) (field : String) :
    Stops asks (checkNotEmpty text field) := by
  refine (stops_checkNotNull text field).bind fun text => ?_
  split
  · exact stops_throw id
  · exact stops_pure text

theorem stops_answerMade (keyVersion : KeyVersion) : Stops asks (answerMade user keyVersion) := by
  refine (stops_hasAccess .get user).bind fun shown => ?_
  cases shown with
  | true => exact stops_pure _
  | false => exact stops_pure _

theorem stops_assertMaterial (operation : KMSOp) (name : String) (material : Option String) :
    Stops .anything (assertMaterial user operation name material) := by
  cases material with
  | none => exact stops_pure ()
  | some text => exact stops_assertAccess _ user operation _

theorem stops_metadataToJSON (names : List String) (metas : List (Option Metadata)) :
    Stops asks (metadataToJSON names metas) := by
  induction names generalizing metas with
  | nil => exact stops_pure []
  | cons name names ih =>
      cases metas with
      | nil => exact stops_throw id
      | cons metadata rest => exact (ih rest).bind fun json => stops_pure _

theorem stops_generate (name : String) (numKeys : Nat) :
    Stops asks (generate settings user name numKeys) := by
  induction numKeys with
  | zero => exact stops_pure []
  | succ numKeys ih =>
      exact (stops_perform settings user (.generateEncryptedKey name)).bind fun edek =>
        ih.bind fun rest => stops_pure _

theorem stops_serve {request : KMSRequest} (other : request.GeneratesNone) :
    Stops .anything (serve settings user request) := by
  have read : ∀ (type : KMSACLsType) (operation : KMSOp) (key : Option String)
      (call : ProviderCall) (answer : call.Result → KMSResponse), Stops .anything (do
        assertAccess type user operation key
        let result ← perform settings user call
        pure (answer result)) :=
    fun type operation key call answer => (stops_assertAccess type user operation key).bind
      fun _ => (stops_perform settings user call).bind fun result => stops_pure _
  cases request with
  | createKey jsonKey =>
      refine (stops_checkNotEmpty _ _).bind fun name => (stops_assertAccess _ _ _ _).bind fun _ =>
        (stops_assertMaterial _ _ _).bind fun _ => ?_
      refine (stops_perform settings user (.createKey name _ _)).bind fun keyVersion =>
        (stops_perform settings user .flush).bind fun _ => ?_
      refine (stops_answerMade keyVersion).bind fun json => ?_
      split
      · exact stops_pure _
      · exact stops_throw id
  | deleteKey name =>
      refine (stops_assertAccess _ _ _ _).bind fun _ =>
        (stops_checkNotEmpty _ _).bind fun name => ?_
      exact (stops_perform settings user (.deleteKey name)).bind fun _ =>
        (stops_perform settings user .flush).bind fun _ => stops_pure _
  | rolloverKey name material =>
      refine (stops_assertAccess _ _ _ _).bind fun _ => (stops_checkNotEmpty _ _).bind fun name =>
        (stops_assertMaterial _ _ _).bind fun _ => ?_
      refine (stops_perform settings user (.rollNewVersion name _)).bind fun keyVersion =>
        (stops_perform settings user .flush).bind fun _ => ?_
      exact (stops_answerMade keyVersion).bind fun json => stops_pure _
  | getKeysMetadata keyNames =>
      refine (stops_assertAccess _ _ _ _).bind fun _ => ?_
      exact (stops_perform settings user (.getKeysMetadata keyNames)).bind fun keysMeta =>
        (stops_metadataToJSON keyNames keysMeta).bind fun json => stops_pure _
  | getKeyNames => exact read _ _ _ .getKeys _
  | getMetadata name =>
      exact (stops_checkNotEmpty _ _).bind fun name => read _ _ _ (.getMetadata name) _
  | getCurrentVersion name =>
      exact (stops_checkNotEmpty _ _).bind fun name => read _ _ _ (.getCurrentKey name) _
  | getKeyVersion versionName =>
      exact (stops_checkNotEmpty _ _).bind fun name => read _ _ _ (.getKeyVersion name) _
  | generateEncryptedKeys => exact other.elim
  | decryptEncryptedKey versionName eekOp json =>
      refine (stops_checkNotEmpty _ _).bind fun versionName =>
        (stops_checkNotNull eekOp _).bind fun op => ?_
      split
      · refine (stops_assertAccess _ _ _ _).bind fun _ => (stops_checkNotNull _ _).bind fun iv =>
          (stops_checkNotNull _ _).bind fun material => ?_
        exact (stops_perform settings user (.decryptEncryptedKey _)).bind fun _ => stops_pure _
      · exact stops_throw id
  | getKeyVersions name =>
      exact (stops_checkNotEmpty _ _).bind fun name => read _ _ _ (.getKeyVersions name) _

/-- How a request ends: a refusal is forbidden, unless it is by the lists of a key while keys
are generated, which is a failure of the server. -/
def Ending (request : KMSRequest) (now : KMSHistory) : Except KMSFailure KMSResponse → Prop
  | .ok _ => ¬Ends KMSEvent.Refuses now
  | .error failure =>
      ((KMSExceptionsProvider.toResponse failure).1 = .forbidden ↔
        Ends (fun event => event.Refuses ∧ (event.RefusesKey → request.GeneratesNone)) now) ∧
      (Ends (fun event => event.RefusesKey ∧ ¬request.GeneratesNone) now →
        KMSExceptionsProvider.toResponse failure = (.internalServerError, true))

theorem forbidden_iff (failure : KMSFailure) :
    (KMSExceptionsProvider.toResponse failure).1 = .forbidden ↔ failure.IsRefusal := by
  cases failure with
  | authorization => exact iff_of_true rfl trivial
  | provider exception => cases exception <;> exact iff_of_false (fun same => by cases same) id
  | illegalArgument | nullPointer | arrayIndexOutOfBounds | uriSyntax | io =>
      exact iff_of_false (fun same => by cases same) id

theorem Ends.mono {now : KMSHistory} {kind weaker : KMSEvent → Prop} (ends : Ends kind now)
    (weaken : ∀ event, kind event → weaker event) : Ends weaker now := by
  obtain ⟨before, event, same, holds⟩ := ends
  exact ⟨before, event, same, weaken event holds⟩

theorem ending_of_stops {request : KMSRequest} (other : request.GeneratesNone)
    {now : KMSHistory} {failure : KMSFailure}
    (stops : failure.IsRefusal ↔ Ends KMSEvent.Refuses now) :
    Ending request now (.error failure) := by
  constructor
  · rw [forbidden_iff, stops]
    exact ⟨fun ends => Ends.mono ends fun event refuses => ⟨refuses, fun _ => other⟩,
      fun ends => Ends.mono ends fun event refuses => refuses.1⟩
  · intro ends
    obtain ⟨_, _, _, _, generates⟩ := ends
    exact absurd other generates

/-- What is thrown while keys are generated is no assertion that failed. -/
theorem generate_ends (name : String) (numKeys : Nat) {past : KMSHistory}
    (unrefused : ¬Ends KMSEvent.Refuses past) :
    Asking.Ensures (fun _ _ => True) past (generate settings user name numKeys)
      (fun now _ => ¬Ends KMSEvent.Refuses now)
      fun now _ => ∀ event, Ends (fun last => last = event ∧ last.Refuses) now →
        event.RefusesKey := by
  have stops : Stops .noAssertions (generate settings user name numKeys) :=
    stops_generate name numKeys
  refine ((Program.Meets.added (stops past unrefused)).allow fun _ _ _ => trivial).mono ?_
  intro now result _ done
  obtain ⟨stopped, added, same, asked⟩ := done
  cases result with
  | ok json => exact stopped
  | error failure =>
      intro event ends
      obtain ⟨before, last, split, rfl, refuses⟩ := ends
      refine ⟨refuses, asked last ?_⟩
      rcases List.eq_nil_or_concat added with rfl | ⟨more, other, rfl⟩
      · rw [List.append_nil] at same
        exact absurd ⟨before, last, same.symm.trans split, refuses⟩ unrefused
      · rw [split, List.concat_eq_append, ← List.append_assoc] at same
        obtain ⟨_, behind⟩ := List.append_inj' same rfl
        cases behind
        rw [List.concat_eq_append]
        exact List.mem_concat_self

theorem ending_of_unrefused (request : KMSRequest) {now : KMSHistory} {failure : KMSFailure}
    (other : ¬failure.IsRefusal) (unrefused : ¬Ends KMSEvent.Refuses now) :
    Ending request now (.error failure) := by
  constructor
  · refine iff_of_false ((forbidden_iff failure).not.mpr other) fun ends => unrefused ?_
    exact Ends.mono ends fun event refuses => refuses.1
  · exact fun ends => absurd (Ends.mono ends fun event refuses => refuses.1.1) unrefused

/-- A part of a request that ends as the whole does when it throws. -/
def EndsWell (request : KMSRequest) (past : KMSHistory) {α : Type} (work : KMSWork α) : Prop :=
  Asking.Ensures (fun _ _ => True) past work (fun now _ => ¬Ends KMSEvent.Refuses now)
    fun now failure => Ending request now (.error failure)

theorem endsWell_checkNotNull {request : KMSRequest} {past : KMSHistory}
    (unrefused : ¬Ends KMSEvent.Refuses past) {α : Type} (value : Option α) (field : String) :
    EndsWell request past (checkNotNull value field) := by
  cases value with
  | none => exact ending_of_unrefused request id unrefused
  | some value => exact unrefused

theorem endsWell_checkNotEmpty {request : KMSRequest} {past : KMSHistory}
    (unrefused : ¬Ends KMSEvent.Refuses past) (text : Option String) (field : String) :
    EndsWell request past (checkNotEmpty text field) := by
  refine Asking.ensures_bind (endsWell_checkNotNull unrefused text field) fun now text _ still => ?_
  split
  · exact ending_of_unrefused request id still
  · exact still

theorem endsWell_assertAccess {request : KMSRequest} {past : KMSHistory} (type : KMSACLsType)
    (operation : KMSOp) (key : Option String) :
    EndsWell request past (assertAccess type user operation key) := by
  refine Asking.ensures_request_bind trivial fun answer => ?_
  rcases answer with message | granted
  · refine ⟨iff_of_true rfl ((ends_snoc _ past _).mpr ⟨trivial, fun byKey => ?_⟩), fun ends => ?_⟩
    · exact absurd rfl (byKey.2 type user operation key)
    · exact absurd rfl (((ends_snoc _ past _).mp ends).1.2 type user operation key)
  · exact (ends_snoc _ past _).not.mpr id

/-- What was thrown while keys were generated is thrown as the cause of a failure. -/
theorem endsWell_generate {request : KMSRequest} (generates : ¬request.GeneratesNone)
    {past : KMSHistory} (unrefused : ¬Ends KMSEvent.Refuses past) (name : String)
    (numKeys : Nat) :
    EndsWell request past
      (tryCatch (generate settings user name numKeys) fun failure => throw (.io failure)) := by
  refine Asking.ensures_tryCatch (generate_ends name numKeys unrefused) ?_
  intro now failure _ byKey
  refine ⟨iff_of_false (fun same => by cases same) fun ends => ?_, fun _ => rfl⟩
  obtain ⟨before, event, same, refuses, none⟩ := ends
  exact generates (none (byKey event ⟨before, event, same, rfl, refuses⟩))

theorem generateEncryptedKeys_ends (name : String) (edekOp : Option String) (numKeys : Int)
    {past : KMSHistory} (unrefused : ¬Ends KMSEvent.Refuses past) :
    (generateEncryptedKeys settings user name edekOp numKeys).Meets (fun _ _ => True)
      (Ending (.generateEncryptedKeys name edekOp numKeys)) past := by
  have whole : EndsWell (.generateEncryptedKeys name edekOp numKeys) past
      (generateEncryptedKeys settings user name edekOp numKeys) := by
    refine Asking.ensures_bind (endsWell_checkNotEmpty unrefused _ _) fun now found _ first => ?_
    refine Asking.ensures_bind (endsWell_checkNotNull first edekOp _) fun now op _ second => ?_
    split
    · refine Asking.ensures_bind (endsWell_assertAccess _ _ _) fun now _ _ third => ?_
      exact Asking.ensures_bind (endsWell_generate id third found _) fun now json _ last => last
    · exact ending_of_unrefused _ id second
  refine Program.Meets.mono whole fun now result _ done => ?_
  cases result with
  | ok response => exact done
  | error failure => exact done

theorem serve_ends (settings : KMSSettings) (owner : UserGroupInformation × KMSRequest) :
    (serve settings owner.1 owner.2).Meets (fun _ _ => True) (Ending owner.2) [] := by
  have start : ¬Ends KMSEvent.Refuses [] := by
    intro ends
    obtain ⟨before, event, same, _⟩ := ends
    exact absurd same (List.concat_ne_nil event before).symm
  obtain ⟨user, request⟩ := owner
  by_cases other : request.GeneratesNone
  · have stops : Stops .anything (serve settings user request) := stops_serve other
    refine Program.Meets.mono (stops [] start) fun now result _ stops => ?_
    cases result with
    | ok response => exact stops
    | error failure => exact ending_of_stops other stops
  · cases request with
    | generateEncryptedKeys name edekOp numKeys =>
        exact generateEncryptedKeys_ends name edekOp numKeys start
    | createKey | deleteKey | rolloverKey | getKeysMetadata | getKeyNames | getMetadata
    | getCurrentVersion | getKeyVersion | decryptEncryptedKey | getKeyVersions =>
        exact absurd trivial other

end Requests

section Example

/-- Nobody is granted anything. -/
private def refusing (_ : UserGroupInformation × KMSRequest) :
    (question : KMSQuestion) → Unit → question.Answer × Unit
  | .hasAccess .., _ => (false, ())
  | .assertAccess .., _ => (.error "not allowed", ())
  | .hasAccessToKey .., _ => (false, ())
  | .isACLPresent .., _ => (false, ())
  | .provider _, _ => (.error (.io "not supported"), ())

private def outsider : UserGroupInformation := ⟨"outsider", []⟩

end Example

end KMS

end Ranger
