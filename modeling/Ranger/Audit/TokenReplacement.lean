import Ranger.Foundation.Template

/-! # Replacement of tokens in configured texts

File names and other settings of the audit destinations contain tokens such as `%hostname%`
and `%time:yyyyMMdd%`. The replacement searches a text for a token, puts the value in its
place and goes on behind it. It ends for every text, and makes of it what the text says when
it is read once: the text of a value is not searched again.
-/

namespace Ranger

open Foundation

namespace MiscUtil

/-- A Java string. -/
abbrev JavaText := List Char

/-- What the runtime answers while tokens are replaced; nothing where it has no value or
throws. -/
structure Environment where
  hostName : Option JavaText
  sApplicationType : Option JavaText
  /-- The hash code of the text of the virtual machine's identifier. -/
  jvmIDHash : Int
  systemProperty : JavaText → Option JavaText
  systemEnv : JavaText → Option JavaText
  /-- A time written in a format. -/
  format : Int → JavaText → Option JavaText
  currentTimeMillis : Int

def TOKEN_START : JavaText := ['%']

def TOKEN_END : JavaText := ['%']

def TOKEN_HOSTNAME : JavaText := "hostname".toList

def TOKEN_APP_TYPE : JavaText := "app-type".toList

def TOKEN_JVM_INSTANCE : JavaText := "jvm-instance".toList

def TOKEN_TIME : JavaText := "time:".toList

def TOKEN_PROPERTY : JavaText := "property:".toList

def TOKEN_ENV : JavaText := "env:".toList

section Strings

/-- `String.indexOf`, from a place on. -/
def indexOf (str pattern : JavaText) (fromIndex : Nat) : Option Nat :=
  ((str.drop fromIndex).tails.findIdx? fun rest => pattern.isPrefixOf rest).map (fromIndex + ·)

/-- `String.lastIndexOf`. -/
def lastIndexOf (str pattern : JavaText) : Option Nat :=
  (List.range (str.length + 1)).reverse.find? fun index => pattern.isPrefixOf (str.drop index)

/-- `String.substring`, which throws when the places are not in the text. -/
def substring (str : JavaText) (beginIndex endIndex : Nat) : Option JavaText :=
  if beginIndex ≤ endIndex ∧ endIndex ≤ str.length then
    some ((str.take endIndex).drop beginIndex)
  else none

theorem le_of_indexOf {str pattern : JavaText} {fromIndex index : Nat}
    (found : indexOf str pattern fromIndex = some index) : fromIndex ≤ index := by
  obtain ⟨offset, -, rfl⟩ := Option.map_eq_some_iff.mp found
  exact Nat.le_add_right fromIndex offset

theorem eq_of_substring {str piece : JavaText} {beginIndex endIndex : Nat}
    (cut : substring str beginIndex endIndex = some piece) :
    piece = (str.take endIndex).drop beginIndex ∧ beginIndex ≤ endIndex ∧
      endIndex ≤ str.length := by
  unfold substring at cut
  split at cut
  case isTrue inside => exact ⟨(Option.some.inj cut).symm, inside⟩
  case isFalse => cases cut

/-- Cutting a piece out of a text put together from three. -/
theorem substring_append (before piece behind : JavaText) :
    substring (before ++ (piece ++ behind)) before.length (before.length + piece.length) =
      some piece := by
  have inside : before.length + piece.length ≤ (before ++ (piece ++ behind)).length := by
    simp only [List.length_append]
    omega
  rw [substring, if_pos ⟨Nat.le_add_right _ _, inside⟩, ← List.append_assoc,
    ← List.length_append, List.take_left, List.drop_left]

/-- The search for a single character. -/
theorem findIdx?_tails (char : Char) (text : JavaText) :
    text.tails.findIdx? (fun rest => [char].isPrefixOf rest) = text.findIdx? (char == ·) := by
  induction text with
  | nil => rfl
  | cons head rest ih =>
      rw [List.tails_cons, List.findIdx?_cons, List.findIdx?_cons, ih, List.isPrefixOf_cons_cons,
        List.isPrefixOf_nil_left, Bool.and_true]

theorem indexOf_append {char : Char} (before text rest : JavaText) (free : char ∉ text) :
    indexOf (before ++ (text ++ char :: rest)) [char] before.length =
      some (before.length + text.length) := by
  have absent : text.findIdx? (char == ·) = none := by
    rw [List.findIdx?_eq_none_iff]
    intro other member
    exact beq_false_of_ne fun same => free (same ▸ member)
  rw [indexOf, List.drop_left, findIdx?_tails, List.findIdx?_append, absent,
    List.findIdx?_cons, beq_self_eq_true, if_pos rfl, Option.none_or, Option.map_some,
    Option.map_some, Nat.zero_add]

theorem indexOf_eq_none {char : Char} (before text : JavaText) (free : char ∉ text) :
    indexOf (before ++ text) [char] before.length = none := by
  rw [indexOf, List.drop_left, findIdx?_tails, Option.map_eq_none_iff,
    List.findIdx?_eq_none_iff]
  intro other member
  exact beq_false_of_ne fun same => free (same ▸ member)

/-- The last mark of a text that ends with it. -/
theorem lastIndexOf_append (text : JavaText) (char : Char) :
    lastIndexOf (text ++ [char]) [char] = some text.length := by
  rw [lastIndexOf, List.length_append, List.length_singleton, List.range_succ,
    List.range_succ, List.reverse_append, List.reverse_append, List.reverse_singleton,
    List.reverse_singleton, List.singleton_append, List.singleton_append,
    List.find?_cons_of_neg, List.find?_cons_of_pos]
  · rw [List.drop_left, List.isPrefixOf_cons_cons, List.isPrefixOf_nil_left, beq_self_eq_true,
      Bool.and_true]
  · rw [List.drop_eq_nil_of_le (by simp)]
    exact Bool.false_ne_true

end Strings

section Values

variable (environment : Environment) (time : Int)

/-- The absolute value of an `int`; the smallest one has none. -/
def absInt (value : Int) : Int := if value = -2147483648 then value else value.natAbs

def getJvmInstanceId : JavaText := (toString (absInt environment.jvmIDHash)).toList

/-- The value of a token, if it has one. -/
def tokenValue (token : JavaText) : Option JavaText :=
  if token = TOKEN_HOSTNAME then environment.hostName
  else if token = TOKEN_APP_TYPE then environment.sApplicationType
  else if token = TOKEN_JVM_INSTANCE then some (getJvmInstanceId environment)
  else if TOKEN_PROPERTY.isPrefixOf token then
    environment.systemProperty (token.drop TOKEN_PROPERTY.length)
  else if TOKEN_ENV.isPrefixOf token then environment.systemEnv (token.drop TOKEN_ENV.length)
  else if TOKEN_TIME.isPrefixOf token then
    environment.format time (token.drop TOKEN_TIME.length)
  else some []

/-- What stands in the place of a token. -/
def replacement (token : JavaText) : JavaText := (tokenValue environment time token).getD []

end Values

section Loop

variable (environment : Environment) (time : Int)

/-- How a turn of the loop ends. -/
inductive Turn where
  | done
  | next (str : JavaText) (startPos : Nat)

/-- The text with the value of the token between two places in it; it throws where a place is
not in the text. -/
def replaceAt (str : JavaText) (tagStartPos tagEndPos : Nat) : Option (JavaText × Nat) := do
  let tag ← substring str tagStartPos (tagEndPos + TOKEN_END.length)
  let token ← substring tag TOKEN_START.length (← lastIndexOf tag TOKEN_END)
  let val := replacement environment time token
  let before ← substring str 0 tagStartPos
  let behind ← substring str (tagEndPos + TOKEN_END.length) str.length
  return (before ++ val ++ behind, tagStartPos + val.length)

/-- One turn of the loop of `replaceTokens`. -/
def replaceNext (str : JavaText) (startPos : Nat) : Option Turn :=
  if startPos < str.length then
    match indexOf str TOKEN_START startPos with
    | none => some .done
    | some tagStartPos =>
        match indexOf str TOKEN_END (tagStartPos + TOKEN_START.length) with
        | none => some .done
        | some tagEndPos =>
            (replaceAt environment time str tagStartPos tagEndPos).map fun next =>
              .next next.1 next.2
  else some .done

/-- Behind a value stands what stood behind the token. -/
theorem replaceAt_length {str str' : JavaText} {tagStartPos tagEndPos startPos' : Nat}
    (put : replaceAt environment time str tagStartPos tagEndPos = some (str', startPos')) :
    tagEndPos < str.length ∧ str'.length - startPos' = str.length - (tagEndPos + 1) := by
  simp only [replaceAt, bind, Option.bind_eq_some_iff, pure, Option.some.injEq,
    Prod.mk.injEq] at put
  obtain ⟨tag, cut, _, -, _, -, front, before, rest, behind, rfl, rfl⟩ := put
  obtain ⟨-, ordered, inside⟩ := eq_of_substring cut
  obtain ⟨rfl, -, -⟩ := eq_of_substring before
  obtain ⟨rfl, -, -⟩ := eq_of_substring behind
  have marks : TOKEN_END.length = 1 := rfl
  simp only [List.length_append, List.length_drop, List.length_take]
  omega

/-- A turn that replaces a token leaves less text behind the place where it goes on. -/
theorem replaceNext_shrinks {str str' : JavaText} {startPos startPos' : Nat}
    (replaced : replaceNext environment time str startPos = some (.next str' startPos')) :
    str'.length - startPos' < str.length - startPos := by
  unfold replaceNext at replaced
  split at replaced
  case isFalse => cases replaced
  case isTrue inside =>
    split at replaced
    case h_1 => cases replaced
    case h_2 tagStartPos opened =>
      split at replaced
      case h_1 => cases replaced
      case h_2 tagEndPos closed =>
        obtain ⟨⟨result, place⟩, put, same⟩ := Option.map_eq_some_iff.mp replaced
        obtain ⟨rfl, rfl⟩ := Turn.next.inj same
        have start := le_of_indexOf opened
        have stop := le_of_indexOf closed
        obtain ⟨present, left⟩ := replaceAt_length environment time put
        change result.length - place < str.length - startPos
        omega

/-- The loop of `replaceTokens`. -/
def replaceFrom (str : JavaText) (startPos : Nat) : Option JavaText :=
  match _ : replaceNext environment time str startPos with
  | none => none
  | some .done => some str
  | some (.next str' startPos') => replaceFrom str' startPos'
termination_by str.length - startPos
decreasing_by exact replaceNext_shrinks environment time ‹_›

/-- `replaceTokens`, which throws when it reads behind the end of a text. -/
def replaceTokens (str : Option JavaText) (time : Int) : Option (Option JavaText) :=
  match str with
  | none => some none
  | some str =>
      let time := if time ≤ 0 then environment.currentTimeMillis else time
      (replaceFrom environment time str 0).map some

theorem replaceAt_token (before token behind : JavaText) :
    replaceAt environment time (before ++ '%' :: (token ++ '%' :: behind)) before.length
        (before.length + 1 + token.length) =
      some (before ++ replacement environment time token ++ behind,
        before.length + (replacement environment time token).length) := by
  have tagged : before ++ '%' :: (token ++ '%' :: behind) =
      before ++ ('%' :: (token ++ ['%']) ++ behind) := by
    simp only [List.cons_append, List.append_assoc, List.nil_append]
  have size : before.length + 1 + token.length + TOKEN_END.length =
      before.length + ('%' :: (token ++ ['%'])).length := by
    simp only [TOKEN_END, List.length_cons, List.length_append, List.length_nil]
    omega
  have tag : substring (before ++ '%' :: (token ++ '%' :: behind)) before.length
      (before.length + 1 + token.length + TOKEN_END.length) = some ('%' :: (token ++ ['%'])) := by
    rw [tagged, size]
    exact substring_append before _ behind
  have last : lastIndexOf ('%' :: (token ++ ['%'])) TOKEN_END = some (1 + token.length) := by
    rw [Nat.add_comm]
    exact lastIndexOf_append ('%' :: token) '%'
  have front : substring (before ++ '%' :: (token ++ '%' :: behind)) 0 before.length =
      some before := by
    have := substring_append [] before ('%' :: (token ++ '%' :: behind))
    rwa [List.length_nil, Nat.zero_add, List.nil_append] at this
  have rest : substring (before ++ '%' :: (token ++ '%' :: behind))
      (before.length + 1 + token.length + TOKEN_END.length)
      (before ++ '%' :: (token ++ '%' :: behind)).length = some behind := by
    have := substring_append (before ++ '%' :: (token ++ ['%'])) behind []
    rw [List.append_nil, List.append_assoc, ← tagged, List.length_append, ← size] at this
    have whole : (before ++ '%' :: (token ++ '%' :: behind)).length =
        before.length + 1 + token.length + TOKEN_END.length + behind.length := by
      simp only [TOKEN_END, List.length_cons, List.length_append, List.length_nil]
      omega
    rwa [whole]
  have name : substring ('%' :: (token ++ ['%'])) TOKEN_START.length (1 + token.length) =
      some token := substring_append ['%'] token ['%']
  simp only [replaceAt, tag, last, name, front, rest, Option.bind_eq_bind, Option.bind_some,
    Option.pure_def]

/-- A turn replaces the first token behind the place where it starts. -/
theorem replaceNext_token (front text token behind : JavaText) (text_free : '%' ∉ text)
    (token_free : '%' ∉ token) :
    replaceNext environment time (front ++ (text ++ '%' :: (token ++ '%' :: behind)))
        front.length =
      some (.next (front ++ text ++ replacement environment time token ++ behind)
        (front ++ text ++ replacement environment time token).length) := by
  have more : front.length < (front ++ (text ++ '%' :: (token ++ '%' :: behind))).length := by
    simp only [List.length_append, List.length_cons]
    omega
  have opened : indexOf (front ++ (text ++ '%' :: (token ++ '%' :: behind))) TOKEN_START
      front.length = some (front ++ text).length := by
    rw [List.length_append]
    exact indexOf_append front text _ text_free
  have closed : indexOf (front ++ (text ++ '%' :: (token ++ '%' :: behind))) TOKEN_END
      ((front ++ text).length + TOKEN_START.length) =
        some ((front ++ text).length + 1 + token.length) := by
    have := indexOf_append (front ++ text ++ ['%']) token behind token_free
    rwa [List.append_assoc, List.append_assoc, List.singleton_append, List.length_append]
      at this
  rw [replaceNext, if_pos more, opened]
  change (match indexOf _ TOKEN_END ((front ++ text).length + TOKEN_START.length) with
    | none => some Turn.done
    | some tagEndPos => _) = _
  rw [closed, ← List.append_assoc]
  change Option.map _ (replaceAt environment time _ _ _) = _
  rw [replaceAt_token, Option.map_some, ← List.length_append]

/-- Without a token behind the place where it starts, a turn is the last one. -/
theorem replaceNext_tail (front tail : JavaText)
    (tail_open : ∀ text rest, tail = text ++ '%' :: rest → '%' ∉ rest) :
    replaceNext environment time (front ++ tail) front.length = some .done := by
  unfold replaceNext
  split
  case isFalse => rfl
  case isTrue =>
    by_cases opened : '%' ∈ tail
    · obtain ⟨text, rest, rfl, text_free⟩ := List.eq_append_cons_of_mem opened
      have start : indexOf (front ++ (text ++ '%' :: rest)) TOKEN_START front.length =
          some (front.length + text.length) := indexOf_append front text rest text_free
      have stop : indexOf (front ++ (text ++ '%' :: rest)) TOKEN_END
          (front.length + text.length + TOKEN_START.length) = none := by
        have := indexOf_eq_none (front ++ text ++ ['%']) rest (tail_open text rest rfl)
        rwa [List.append_assoc, List.append_assoc, List.singleton_append, List.length_append,
          List.length_append] at this
      rw [start]
      change (match indexOf _ TOKEN_END (front.length + text.length + TOKEN_START.length) with
        | none => some Turn.done
        | some tagEndPos => _) = _
      rw [stop]
    · have absent : indexOf (front ++ tail) TOKEN_START front.length = none :=
        indexOf_eq_none front tail opened
      rw [absent]

/-- From a place in a text on, the loop puts a value in the place of each token. -/
theorem replaceFrom_eq_expand (template : Template '%') (front : JavaText) :
    replaceFrom environment time (front ++ template.source) front.length =
      some (front ++ template.expand (replacement environment time)) := by
  induction template using Template.induction generalizing front with
  | ofTail tail tail_open =>
      change replaceFrom environment time (front ++ tail) front.length = some (front ++ tail)
      rw [replaceFrom]
      split
      case h_1 failed =>
        rw [replaceNext_tail environment time front tail tail_open] at failed
        cases failed
      case h_2 => rfl
      case h_3 str' startPos' turn =>
        rw [replaceNext_tail environment time front tail tail_open] at turn
        cases turn
  | cons segment template ih =>
      have turn := replaceNext_token environment time front segment.text segment.token
        template.source segment.text_free segment.token_free
      rw [Template.source_cons, Template.expand_cons, replaceFrom]
      split
      case h_1 failed => cases turn.symm.trans failed
      case h_2 done => cases turn.symm.trans done
      case h_3 str' startPos' next =>
        cases turn.symm.trans next
        rw [ih, List.append_assoc, List.append_assoc]

/-- The replacement returns for every text. A text is read in one way as text and tokens, and
the result is what is read with each token replaced by its value. -/
theorem replaceTokens_eq_expand (str : JavaText) :
    ∃ template : Template '%', template.source = str ∧
      (∀ other : Template '%', other.source = str → other = template) ∧
      replaceTokens environment (some str) time =
        some (some (template.expand (replacement environment
          (if time ≤ 0 then environment.currentTimeMillis else time)))) := by
  have read : ∃ template : Template '%', template.source = str := Template.exists_source str
  obtain ⟨template, rfl⟩ := read
  refine ⟨template, rfl, fun other same => Template.source_injective same, ?_⟩
  exact congrArg (Option.map some) (replaceFrom_eq_expand environment _ template [])

end Loop

end MiscUtil

end Ranger
