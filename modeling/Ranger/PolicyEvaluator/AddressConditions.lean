import Ranger.ConditionEvaluator

/-! # Conditions on the address of a client

The values of an address condition are sorted into addresses that are compared and beginnings
that are looked for. A value that is changed when it is prepared counts as a beginning.
-/

namespace Ranger.RangerIpMatcher

section Notation

/-- The letters of a text in lower case. -/
def small (text : List Char) : List Char := text.map Char.toLower

/-- The characters of addresses: hex digits and the two separators. -/
def isAddressChar (char : Char) : Bool :=
  char.isDigit || (decide ('a' ≤ char) && decide (char ≤ 'f')) ||
    (decide ('A' ≤ char) && decide (char ≤ 'F')) || char == '.' || char == ':'

/-- An IPv4 or IPv6 address, by its text; the groups may be missing at the end. -/
structure Address where
  chars : List Char
  ne_nil : chars ≠ []
  isAddress : chars.all isAddressChar = true

def Address.text (address : Address) : String := String.ofList address.chars

/-- Groups of a separator and an asterisk. -/
def wildcardGroups (separator : Char) : Nat → List Char
  | 0 => []
  | more + 1 => separator :: '*' :: wildcardGroups separator more

/-- A configured value. -/
inductive ConfiguredIp where
  /-- Asterisks only. -/
  | wildcards (separator : Char) (known : separator = '.' ∨ separator = ':') (more : Nat)
  /-- An address without an asterisk. -/
  | exact (address : Address)
  /-- The groups at the end are in the notation of the address. -/
  | leading (address : Address) (separator : Char)
      (known : separator = '.' ∨ separator = ':' ∧ '.' ∉ address.chars) (more : Nat)

namespace ConfiguredIp

def text : ConfiguredIp → String
  | wildcards separator _ more => String.ofList ('*' :: wildcardGroups separator more)
  | exact address => address.text
  | leading address separator _ more =>
      String.ofList (address.chars ++ wildcardGroups separator (more + 1))

/-- What the value stands for: everything, one address, or what begins with its groups. -/
def Admits (client : Address) : ConfiguredIp → Prop
  | wildcards .. => True
  | exact address => small address.chars = small client.chars
  | leading address separator .. => small (address.chars ++ [separator]) <+: small client.chars

/-- An address with capitals is kept in lower case, and taken for a beginning. -/
def TakenForBeginning (client : Address) : ConfiguredIp → Prop
  | exact address =>
      '.' ∉ address.chars ∧ small address.chars ≠ address.chars ∧
        small address.chars <+: small client.chars ∧ small address.chars ≠ small client.chars
  | _ => False

/-- An address with a dotted part is kept and compared as it is written. -/
def MissedByCase (client : Address) : ConfiguredIp → Prop
  | wildcards .. => False
  | exact address =>
      '.' ∈ address.chars ∧ small address.chars = small client.chars ∧
        address.chars ≠ client.chars
  | leading address separator .. =>
      separator = '.' ∧ small (address.chars ++ ['.']) <+: small client.chars ∧
        ¬address.chars ++ ['.'] <+: client.chars ∧
        ¬address.chars ++ ['.'] <+: small client.chars

end ConfiguredIp

end Notation

section Init

variable [Platform]

/-- Whether one value alone lets a client in, by the list it is put into. -/
def admitsIp (ip requestIp : String) : Bool :=
  (digestPolicyIp ip).isEmpty ||
    if digestPolicyIp ip = ip then isExactlyMatched [ip] requestIp
    else isWildcardMatched [digestPolicyIp ip] requestIp

theorem isExactlyMatched_append (ips others : List String) (requestIp : String) :
    isExactlyMatched (ips ++ others) requestIp =
      (isExactlyMatched ips requestIp || isExactlyMatched others requestIp) := by
  unfold isExactlyMatched
  split
  · exact List.contains_append
  · exact List.contains_append

theorem isWildcardMatched_append (ips others : List String) (requestIp : String) :
    isWildcardMatched (ips ++ others) requestIp =
      (isWildcardMatched ips requestIp || isWildcardMatched others requestIp) :=
  List.any_append

/-- The verdict of a matcher on an address. -/
def verdict (matcher : RangerIpMatcher) (requestIp : String) : Bool :=
  matcher.allowAny || (isWildcardMatched matcher.wildCardIps requestIp ||
    isExactlyMatched matcher.exactIps requestIp)

theorem verdict_empty (requestIp : String) : ({} : RangerIpMatcher).verdict requestIp = false := by
  unfold verdict isExactlyMatched
  split
  · rfl
  · rfl

theorem verdict_addIp (matcher : RangerIpMatcher) (ip requestIp : String) :
    (matcher.addIp ip).verdict requestIp =
      (matcher.verdict requestIp || admitsIp ip requestIp) := by
  unfold addIp admitsIp verdict
  cases empty : (digestPolicyIp ip).isEmpty with
  | true => simp [empty]
  | false =>
      by_cases same : digestPolicyIp ip = ip
      · rw [same] at empty
        simp only [same, empty, Bool.false_eq_true, ↓reduceIte, isExactlyMatched_append,
          Bool.false_or, Bool.or_assoc]
      · simp only [empty, same, Bool.false_eq_true, ↓reduceIte, isWildcardMatched_append,
          Bool.false_or]
        ac_rfl

theorem verdict_foldl (ips : List String) (matcher : RangerIpMatcher) (requestIp : String) :
    (ips.foldl addIp matcher).verdict requestIp =
      (matcher.verdict requestIp || ips.any (admitsIp · requestIp)) := by
  induction ips generalizing matcher with
  | nil => rw [List.foldl_nil, List.any_nil, Bool.or_false]
  | cons ip rest ih => rw [List.foldl_cons, ih, verdict_addIp, List.any_cons, Bool.or_assoc]

theorem isMatched_eq_verdict (matcher : RangerIpMatcher) {request : RangerAccessRequest}
    {requestIp : String} (sent : request.clientIPAddress = some requestIp) :
    matcher.isMatched request = matcher.verdict requestIp := by
  unfold isMatched verdict
  rw [sent]
  cases matcher.allowAny with
  | true => rfl
  | false => rfl

/-- The values of a condition are tried one by one. -/
theorem isMatched_init {condition : RangerPolicyItemCondition} (given : condition.values ≠ [])
    {request : RangerAccessRequest} {requestIp : String}
    (sent : request.clientIPAddress = some requestIp) :
    (init condition).isMatched request = condition.values.any (admitsIp · requestIp) := by
  rw [isMatched_eq_verdict _ sent]
  have some : condition.values.isEmpty = false := by simpa using given
  unfold init
  rw [some, if_neg Bool.false_ne_true]
  by_cases anything : condition.values.contains "*" = true
  · rw [if_pos anything]
    refine Eq.symm (List.any_eq_true.mpr ⟨"*", List.contains_iff_mem.mp anything, ?_⟩)
    rfl
  · rw [if_neg anything, verdict_foldl, verdict_empty, Bool.false_or]

end Init

section Digest

theorem afterGroups_wildcardGroups (separator : Char) (more : Nat) :
    afterGroups separator (wildcardGroups separator more) = [] := by
  induction more with
  | zero => rfl
  | succ more ih => simp [wildcardGroups, afterGroups, ih]

theorem beginsWithGroup_eq_false {separator first : Char} {base : List Char} {more : Nat}
    (plain : '*' ∉ first :: base) (known : separator ≠ '*') :
    beginsWithGroup separator (first :: (base ++ wildcardGroups separator more)) = false := by
  cases base with
  | nil =>
      cases more with
      | zero => rfl
      | succ more => simp [wildcardGroups, beginsWithGroup, known]
  | cons second base =>
      have other : second ≠ '*' := by
        rintro rfl
        exact plain (List.mem_cons_of_mem _ List.mem_cons_self)
      simp [beginsWithGroup, other]

/-- Groups at the end are replaced by their separator. -/
theorem replaceTrailingWildcards_groups {separator : Char} {base : List Char}
    (plain : '*' ∉ base) (known : separator ≠ '*') (more : Nat) :
    replaceTrailingWildcards separator (base ++ wildcardGroups separator (more + 1)) =
      base ++ [separator] := by
  induction base with
  | nil =>
      have after := afterGroups_wildcardGroups separator (more + 1)
      have begins : beginsWithGroup separator (wildcardGroups separator (more + 1)) = true :=
        decide_eq_true ⟨rfl, rfl⟩
      simp only [wildcardGroups] at after begins
      rw [List.nil_append, wildcardGroups, replaceTrailingWildcards, begins, after]
      rfl
  | cons first base ih =>
      rw [List.cons_append, replaceTrailingWildcards, beginsWithGroup_eq_false plain known,
        Bool.false_and, if_neg Bool.false_ne_true,
        ih fun listed => plain (List.mem_cons_of_mem _ listed), List.cons_append]

/-- A text without an asterisk stays. -/
theorem replaceTrailingWildcards_eq_self {separator : Char} {base : List Char}
    (plain : '*' ∉ base) (known : separator ≠ '*') :
    replaceTrailingWildcards separator base = base := by
  induction base with
  | nil => rfl
  | cons first base ih =>
      have begins := @beginsWithGroup_eq_false separator first base 0 plain known
      rw [wildcardGroups, List.append_nil] at begins
      rw [replaceTrailingWildcards, begins, Bool.false_and, if_neg Bool.false_ne_true,
        ih fun listed => plain (List.mem_cons_of_mem _ listed)]

theorem isAddressChar_asterisk : isAddressChar '*' = false := by decide

theorem Address.plain (address : Address) : '*' ∉ address.chars := fun listed =>
  Bool.false_ne_true
    (isAddressChar_asterisk.symm.trans (List.all_eq_true.mp address.isAddress _ listed))

theorem allWildcards_eq_false {address : Address} {rest : List Char} :
    allWildcards (address.chars ++ rest) = false := by
  obtain ⟨first, others, split⟩ := List.exists_cons_of_ne_nil address.ne_nil
  have other : first ≠ '*' := by
    rintro rfl
    exact address.plain (split ▸ List.mem_cons_self)
  rw [split, List.cons_append]
  simp [allWildcards, other]

theorem isLatin_of_isAddressChar {char : Char} (isAddress : isAddressChar char = true) :
    char.toNat < 128 := by
  have bound : ∀ last : Char, char ≤ last → last.toNat < 128 → char.toNat < 128 :=
    fun last below small => Nat.lt_of_le_of_lt (UInt32.le_iff_toNat_le.mp below) small
  simp only [isAddressChar, Char.isDigit, Bool.or_eq_true, Bool.and_eq_true, decide_eq_true_eq,
    beq_iff_eq] at isAddress
  rcases isAddress with (((⟨_, below⟩ | ⟨_, below⟩) | ⟨_, below⟩) | rfl) | rfl
  · exact bound '9' below (by decide)
  · exact bound 'f' below (by decide)
  · exact bound 'F' below (by decide)
  · decide
  · decide

theorem dot_not_mem_wildcardGroups (more : Nat) : '.' ∉ wildcardGroups ':' more := by
  induction more with
  | zero => exact List.not_mem_nil
  | succ more ih => simp [wildcardGroups, ih]

variable [Platform] (latin : Platform.Latin)

theorem digestPolicyIp_wildcards {separator : Char} (known : separator = '.' ∨ separator = ':')
    (more : Nat) : digestPolicyIp (String.ofList ('*' :: wildcardGroups separator more)) = "" := by
  have all : allWildcards ('*' :: wildcardGroups separator more) = true := by
    have groups := afterGroups_wildcardGroups separator more
    rcases known with rfl | rfl <;> simp [allWildcards, groups]
  unfold digestPolicyIp
  rw [String.toList_ofList, if_pos all]

theorem digestPolicyIp_exact_dotted {address : Address} (dotted : '.' ∈ address.chars) :
    digestPolicyIp (String.ofList address.chars) = String.ofList address.chars := by
  have single := @allWildcards_eq_false address []
  rw [List.append_nil] at single
  unfold digestPolicyIp
  rw [String.toList_ofList, single, if_neg Bool.false_ne_true,
    if_pos (List.contains_iff_mem.mpr dotted),
    replaceTrailingWildcards_eq_self address.plain (by decide)]

theorem digestPolicyIp_leading_dot {address : Address} (more : Nat) :
    digestPolicyIp (String.ofList (address.chars ++ wildcardGroups '.' (more + 1))) =
      String.ofList (address.chars ++ ['.']) := by
  have dotted : '.' ∈ address.chars ++ wildcardGroups '.' (more + 1) :=
    List.mem_append_right _ List.mem_cons_self
  unfold digestPolicyIp
  rw [String.toList_ofList, allWildcards_eq_false, if_neg Bool.false_ne_true,
    if_pos (List.contains_iff_mem.mpr dotted),
    replaceTrailingWildcards_groups address.plain (by decide)]

include latin

theorem lowerCase_ofList {text : List Char} (isAddress : text.all isAddressChar = true) :
    Platform.lowerCase (String.ofList text) = String.ofList (small text) := by
  have ascii : isLatin (String.ofList text) = true := by
    unfold isLatin
    rw [String.toList_ofList, List.all_eq_true]
    exact fun char member =>
      decide_eq_true (isLatin_of_isAddressChar (List.all_eq_true.mp isAddress char member))
  rw [latin.lowerCase _ ascii, String.toList_ofList]
  rfl

theorem digestPolicyIp_exact_colons {address : Address} (undotted : '.' ∉ address.chars) :
    digestPolicyIp (String.ofList address.chars) = String.ofList (small address.chars) := by
  have single := @allWildcards_eq_false address []
  rw [List.append_nil] at single
  unfold digestPolicyIp
  rw [String.toList_ofList, single, if_neg Bool.false_ne_true,
    if_neg fun dotted => undotted (List.contains_iff_mem.mp dotted),
    replaceTrailingWildcards_eq_self address.plain (by decide),
    lowerCase_ofList latin address.isAddress]

theorem digestPolicyIp_leading_colon {address : Address} (undotted : '.' ∉ address.chars)
    (more : Nat) :
    digestPolicyIp (String.ofList (address.chars ++ wildcardGroups ':' (more + 1))) =
      String.ofList (small (address.chars ++ [':'])) := by
  have plain : '.' ∉ address.chars ++ wildcardGroups ':' (more + 1) := fun listed =>
    (List.mem_append.mp listed).elim undotted (dot_not_mem_wildcardGroups (more + 1))
  have isAddress : (address.chars ++ [':']).all isAddressChar = true := by
    rw [List.all_append, address.isAddress]
    decide
  unfold digestPolicyIp
  rw [String.toList_ofList, allWildcards_eq_false, if_neg Bool.false_ne_true,
    if_neg fun dotted => plain (List.contains_iff_mem.mp dotted),
    replaceTrailingWildcards_groups address.plain (by decide), lowerCase_ofList latin isAddress]

end Digest

section Match

theorem small_small (text : List Char) : small (small text) = small text := by
  unfold small
  rw [List.map_map]
  exact List.map_congr_left fun char _ => toLower_toLower char

theorem dot_mem_small_iff {text : List Char} : '.' ∈ small text ↔ '.' ∈ text := by
  constructor
  · intro listed
    obtain ⟨char, member, same⟩ := List.mem_map.mp listed
    exact eq_of_toLower (by decide) same ▸ member
  · exact fun member => List.mem_map.mpr ⟨'.', member, rfl⟩

theorem small_begins {start text : List Char} (begins : start <+: text) :
    small start <+: small text := begins.map _

variable [Platform] (latin : Platform.Latin) (client : Address)

include latin

theorem isExactlyMatched_iff {ip : List Char} :
    isExactlyMatched [String.ofList ip] client.text = true ↔
      if '.' ∈ client.chars then ip = client.chars else ip = small client.chars := by
  unfold isExactlyMatched Address.text
  rw [String.toList_ofList, lowerCase_ofList latin client.isAddress]
  by_cases dotted : '.' ∈ client.chars
  · rw [if_pos dotted, if_pos (List.contains_iff_mem.mpr dotted), List.contains_iff_mem,
      List.mem_singleton, String.ofList_inj, eq_comm]
  · rw [if_neg dotted, if_neg fun listed => dotted (List.contains_iff_mem.mp listed),
      List.contains_iff_mem, List.mem_singleton, String.ofList_inj, eq_comm]

theorem isWildcardMatched_iff {ip : List Char} :
    isWildcardMatched [String.ofList ip] client.text = true ↔
      ('.' ∈ client.chars ∧ ip <+: client.chars) ∨ ip <+: small client.chars := by
  unfold isWildcardMatched Address.text startsWith
  rw [lowerCase_ofList latin client.isAddress]
  simp only [String.toList_ofList, List.any_cons, List.any_nil, Bool.or_false, Bool.or_eq_true,
    Bool.and_eq_true, List.contains_iff_mem, List.isPrefixOf_iff_prefix]

end Match

namespace ConfiguredIp

section Values

theorem isEmpty_ofList {ip : List Char} (given : ip ≠ []) :
    (String.ofList ip).isEmpty = false := by
  cases empty : (String.ofList ip).isEmpty with
  | false => rfl
  | true =>
      have none : String.ofList ip = String.ofList [] := String.isEmpty_iff.mp empty
      exact absurd (String.ofList_inj.mp none) given

variable [Platform] (latin : Platform.Latin) (client : Address)

include latin

/-- A value that is put into the list of addresses. -/
theorem admitsIp_of_same {ip : List Char} (given : ip ≠ [])
    (same : digestPolicyIp (String.ofList ip) = String.ofList ip) :
    admitsIp (String.ofList ip) client.text = true ↔
      if '.' ∈ client.chars then ip = client.chars else ip = small client.chars := by
  unfold admitsIp
  rw [same, isEmpty_ofList given, Bool.false_or, if_pos rfl, isExactlyMatched_iff latin]

/-- A value that is put into the list of beginnings. -/
theorem admitsIp_of_changed {ip digested : List Char} (given : digested ≠ [])
    (changed : digestPolicyIp (String.ofList ip) = String.ofList digested) (other : digested ≠ ip) :
    admitsIp (String.ofList ip) client.text = true ↔
      ('.' ∈ client.chars ∧ digested <+: client.chars) ∨ digested <+: small client.chars := by
  have different : ¬String.ofList digested = String.ofList ip := fun same =>
    other (String.ofList_inj.mp same)
  unfold admitsIp
  rw [changed, isEmpty_ofList given, Bool.false_or, if_neg different, isWildcardMatched_iff latin]

/-- A beginning in small letters. -/
theorem admitsIp_of_small {ip digested : List Char} (given : digested ≠ [])
    (changed : digestPolicyIp (String.ofList ip) = String.ofList (small digested))
    (other : small digested ≠ ip) :
    admitsIp (String.ofList ip) client.text = true ↔ small digested <+: small client.chars := by
  have kept : small digested ≠ [] := fun none => given (List.map_eq_nil_iff.mp none)
  rw [admitsIp_of_changed latin client kept changed other]
  constructor
  · rintro (⟨_, begins⟩ | begins)
    · exact small_small digested ▸ small_begins begins
    · exact begins
  · exact .inr

theorem admitsIp_of_exact {address : Address} :
    admitsIp (exact address).text client.text = true ↔
      ((exact address).Admits client ∧ ¬(exact address).MissedByCase client) ∨
        (exact address).TakenForBeginning client := by
  simp only [Admits, MissedByCase, TakenForBeginning, text]
  by_cases dotted : '.' ∈ address.chars
  · refine (admitsIp_of_same latin client address.ne_nil
      (digestPolicyIp_exact_dotted dotted)).trans ?_
    by_cases clientDotted : '.' ∈ client.chars
    · rw [if_pos clientDotted]
      constructor
      · exact fun same => .inl ⟨congrArg small same, fun missed => missed.2.2 same⟩
      · rintro (⟨same, unmissed⟩ | ⟨undotted, _⟩)
        · exact by_contra fun other => unmissed ⟨dotted, same, other⟩
        · exact absurd dotted undotted
    · rw [if_neg clientDotted]
      have absent : '.' ∉ small client.chars := fun listed =>
        clientDotted (dot_mem_small_iff.mp listed)
      constructor
      · exact fun same => absurd (same ▸ dotted) absent
      · rintro (⟨same, _⟩ | ⟨undotted, _⟩)
        · exact absurd (same ▸ dot_mem_small_iff.mpr dotted) absent
        · exact absurd dotted undotted
  · have digested := digestPolicyIp_exact_colons latin dotted
    by_cases lower : small address.chars = address.chars
    · rw [lower] at digested
      refine (admitsIp_of_same latin client address.ne_nil digested).trans ?_
      simp only [lower, dotted, false_and, not_false_eq_true, and_true, ne_eq, not_true_eq_false,
        and_false, or_false]
      by_cases clientDotted : '.' ∈ client.chars
      · rw [if_pos clientDotted]
        constructor
        · exact fun same => absurd (same ▸ clientDotted) dotted
        · exact fun same => absurd (same ▸ dot_mem_small_iff.mpr clientDotted) dotted
      · rw [if_neg clientDotted]
    · refine (admitsIp_of_small latin client address.ne_nil digested lower).trans ?_
      simp only [dotted, lower, false_and, not_false_eq_true, and_true, ne_eq, true_and]
      constructor
      · exact fun begins => or_iff_not_imp_left.mpr fun other => ⟨begins, other⟩
      · rintro (same | ⟨begins, _⟩)
        · exact same ▸ List.prefix_rfl
        · exact begins

theorem admitsIp_of_leading {address : Address} {separator : Char}
    {known : separator = '.' ∨ separator = ':' ∧ '.' ∉ address.chars} {more : Nat} :
    admitsIp (leading address separator known more).text client.text = true ↔
      (leading address separator known more).Admits client ∧
        ¬(leading address separator known more).MissedByCase client := by
  simp only [Admits, MissedByCase, text]
  have shorter : ∀ digested : List Char, digested.length = address.chars.length + 1 →
      digested ≠ address.chars ++ wildcardGroups separator (more + 1) := by
    rintro digested length rfl
    simp [wildcardGroups] at length
  have given : ∀ last, address.chars ++ [last] ≠ [] := fun last =>
    List.append_ne_nil_of_right_ne_nil _ (List.cons_ne_nil _ _)
  rcases known with rfl | ⟨rfl, undotted⟩
  · refine (admitsIp_of_changed latin client (given '.') (digestPolicyIp_leading_dot more)
      (shorter _ List.length_append)).trans ?_
    have clientDotted : address.chars ++ ['.'] <+: client.chars → '.' ∈ client.chars :=
      fun begins => begins.subset (List.mem_append_right _ List.mem_cons_self)
    constructor
    · rintro (⟨_, begins⟩ | begins)
      · exact ⟨small_begins begins, fun missed => missed.2.2.1 begins⟩
      · exact ⟨small_small client.chars ▸ small_begins begins, fun missed => missed.2.2.2 begins⟩
    · rintro ⟨begins, unmissed⟩
      by_cases exactly : address.chars ++ ['.'] <+: client.chars
      · exact .inl ⟨clientDotted exactly, exactly⟩
      · exact .inr (by_contra fun other => unmissed ⟨rfl, begins, exactly, other⟩)
  · refine (admitsIp_of_small latin client (given ':')
      (digestPolicyIp_leading_colon latin undotted more) (shorter _ ?_)).trans ?_
    · simp only [small, List.length_map, List.length_append, List.length_cons, List.length_nil]
    · have colon : ¬(':' : Char) = '.' := by decide
      simp only [colon, false_and, not_false_eq_true, and_true]

omit [Platform] latin in
theorem admits_of_missedByCase {client : Address} {value : ConfiguredIp}
    (missed : value.MissedByCase client) : value.Admits client := by
  cases value with
  | wildcards => exact trivial
  | exact address => exact missed.2.1
  | leading address separator known more =>
      obtain ⟨rfl, begins, _⟩ := missed
      exact begins

/-- What a value lets in, for each kind of value. -/
theorem admitsIp_iff (value : ConfiguredIp) :
    admitsIp value.text client.text = true ↔
      (value.Admits client ∧ ¬value.MissedByCase client) ∨ value.TakenForBeginning client := by
  cases value with
  | wildcards separator known more =>
      have empty : digestPolicyIp (wildcards separator known more).text = "" :=
        digestPolicyIp_wildcards known more
      unfold admitsIp
      rw [empty]
      exact ⟨fun _ => .inl ⟨trivial, id⟩, fun _ => rfl⟩
  | exact address => exact admitsIp_of_exact latin client
  | leading address separator known more =>
      exact (admitsIp_of_leading latin client).trans (or_iff_left id).symm

end Values

end ConfiguredIp

section Exact

open ConfiguredIp

variable [Platform] (latin : Platform.Latin)

/-- The condition a policy item has for its values. -/
def conditionOf (type : String) (values : List ConfiguredIp) : RangerPolicyItemCondition :=
  ⟨type, values.map (·.text)⟩

include latin

theorem isMatched_iff {type : String} {values : List ConfiguredIp} (given : values ≠ [])
    {client : Address} {request : RangerAccessRequest}
    (sent : request.clientIPAddress = some client.text) :
    (init (conditionOf type values)).isMatched request = true ↔
      ∃ value ∈ values, (value.Admits client ∧ ¬value.MissedByCase client) ∨
        value.TakenForBeginning client := by
  have nonempty : (conditionOf type values).values ≠ [] := by simpa [conditionOf] using given
  rw [isMatched_init nonempty sent, List.any_eq_true]
  simp only [conditionOf, List.mem_map, exists_exists_and_eq_and, admitsIp_iff latin]

/-- Matching is exact, and no address without an asterisk is taken for a beginning, if no
address with capitals is one of the client's and no dotted one is missed. -/
theorem isMatched_exact_iff {type : String} {values : List ConfiguredIp} (given : values ≠ [])
    {client : Address} {request : RangerAccessRequest}
    (sent : request.clientIPAddress = some client.text) :
    (((init (conditionOf type values)).isMatched request = true ↔
        ∃ value ∈ values, value.Admits client) ∧
      ∀ address, exact address ∈ values →
        (init (conditionOf type [exact address])).isMatched request = true →
          small address.chars = small client.chars) ↔
    (∀ value ∈ values, ¬value.TakenForBeginning client) ∧
      ((∃ value ∈ values, value.Admits client ∧ ¬value.MissedByCase client) ∨
        ∀ value ∈ values, ¬value.MissedByCase client) := by
  rw [isMatched_iff latin given sent]
  simp only [isMatched_iff latin (List.cons_ne_nil _ _) sent, List.mem_singleton, exists_eq_left]
  constructor
  · intro ⟨exactly, complete⟩
    have untaken : ∀ value ∈ values, ¬value.TakenForBeginning client := by
      intro value member taken
      cases value with
      | wildcards => exact taken
      | exact address => exact taken.2.2.2 (complete address member (.inr taken))
      | leading => exact taken
    refine ⟨untaken, or_iff_not_imp_left.mpr fun unsound value member missed => ?_⟩
    obtain ⟨other, listed, sound | taken⟩ :=
      exactly.mpr ⟨value, member, admits_of_missedByCase missed⟩
    · exact unsound ⟨other, listed, sound⟩
    · exact untaken other listed taken
  · intro ⟨untaken, unmissed⟩
    refine ⟨⟨?_, ?_⟩, ?_⟩
    · rintro ⟨value, member, ⟨admits, _⟩ | taken⟩
      · exact ⟨value, member, admits⟩
      · exact absurd taken (untaken value member)
    · intro ⟨value, member, admits⟩
      rcases unmissed with ⟨other, listed, sound⟩ | unmissed
      · exact ⟨other, listed, .inl sound⟩
      · exact ⟨value, member, .inl ⟨admits, unmissed value member⟩⟩
    · rintro address member (⟨admits, _⟩ | taken)
      · exact admits
      · exact absurd taken (untaken _ member)

end Exact

section Letters

attribute [local instance] Platform.ascii

/-- An IPv6 address with a capital. -/
def capitalAddress : Address := ⟨"FE80::1".toList, by decide, by decide⟩

def longerAddress : Address := ⟨"fe80::12".toList, by decide, by decide⟩

def requestFrom (client : Address) : RangerAccessRequest where
  resource := {}
  accessType := "read"
  user := none
  clientIPAddress := some client.text

theorem not_missedByCase_self (address : Address) :
    ¬(ConfiguredIp.exact address).MissedByCase address := fun missed => missed.2.2 rfl

theorem capital_admits_itself :
    ((init (conditionOf "ip-range" [.exact capitalAddress])).isMatched
        (requestFrom capitalAddress) = true ↔
      ∃ value ∈ [ConfiguredIp.exact capitalAddress], value.Admits capitalAddress) :=
  ((isMatched_exact_iff Platform.ascii_latin (List.cons_ne_nil _ _) rfl).mpr
    ⟨by simp [ConfiguredIp.TakenForBeginning],
      .inr (List.forall_mem_singleton.mpr (not_missedByCase_self capitalAddress))⟩).1

/-- An address with a capital lets in the addresses that are longer. -/
theorem capital_admits_longer :
    ¬∀ (values : List ConfiguredIp) (client : Address) (request : RangerAccessRequest),
      values ≠ [] → request.clientIPAddress = some client.text →
        ((init (conditionOf "ip-range" values)).isMatched request = true ↔
          ∃ value ∈ values, value.Admits client) := by
  intro exactly
  have matched : (init (conditionOf "ip-range" [.exact capitalAddress])).isMatched
      (requestFrom longerAddress) = true := by decide
  obtain ⟨value, member, admits⟩ :=
    (exactly _ longerAddress _ (List.cons_ne_nil _ _) rfl).mp matched
  rw [List.mem_singleton.mp member] at admits
  have other : small capitalAddress.chars ≠ small longerAddress.chars := by decide
  exact other admits

end Letters

end Ranger.RangerIpMatcher
