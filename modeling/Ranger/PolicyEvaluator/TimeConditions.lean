import Ranger.ConditionEvaluator

/-! # Conditions on the time of day

The values of a time condition are intervals such as `9am-5:30pm`. What an interval stands for
on the clock, and what the matcher makes of it, differ where an end has the hour 12.
-/

namespace Ranger

/-- The hour of the day and the minute, as the calendar reads them from a date. -/
structure TimeOfDay where
  hour : Fin 24
  minute : Fin 60

namespace TimeOfDay

def minuteOfDay (time : TimeOfDay) : Nat := time.hour * 60 + time.minute

end TimeOfDay

/-- One end of an interval, as it is written; the minute is 0 when there is none. -/
structure ClockTime where
  hour : Nat
  minute : Nat
  isAfternoon : Bool
  deriving DecidableEq

structure ClockDuration where
  first : ClockTime
  last : ClockTime
  deriving DecidableEq

/-- `RangerTimeOfDayMatcher`; an interval is kept by its first and last minute. -/
structure RangerTimeOfDayMatcher where
  allowAny : Bool := false
  durations : List (Nat × Nat) := []

namespace RangerTimeOfDayMatcher

section Pattern

/-- ` *` -/
def skipSpaces (text : List Char) : List Char := text.dropWhile (· == ' ')

def digitValue (char : Char) : Nat := char.toNat - '0'.toNat

/-- `(\d{1,2})`, and the number. -/
def oneOrTwoDigits : List Char → Option (Nat × List Char)
  | first :: second :: rest =>
      if first.isDigit then
        if second.isDigit then some (digitValue first * 10 + digitValue second, rest)
        else some (digitValue first, second :: rest)
      else none
  | [first] => if first.isDigit then some (digitValue first, []) else none
  | [] => none

/-- `(:(\d{1,2}))?`, and the number or 0. -/
def optionalMinute : List Char → Option (Nat × List Char)
  | ':' :: rest => oneOrTwoDigits rest
  | text => some (0, text)

/-- `\.?` -/
def skipDot : List Char → List Char
  | '.' :: rest => rest
  | text => text

/-- `([aApP])\.?[mM]\.?`, and whether the letter is a `P`. -/
def half : List Char → Option (Bool × List Char)
  | letter :: rest =>
      if letter = 'a' ∨ letter = 'A' ∨ letter = 'p' ∨ letter = 'P' then
        match skipDot rest with
        | meridiem :: after =>
            if meridiem = 'm' ∨ meridiem = 'M' then
              some (decide (letter = 'p' ∨ letter = 'P'), skipDot after)
            else none
        | [] => none
      else none
  | [] => none

/-- One end of an interval, with the spaces before it and inside. -/
def clockTime (text : List Char) : Option (ClockTime × List Char) := do
  let (hour, afterHour) ← oneOrTwoDigits (skipSpaces text)
  let (minute, afterMinute) ← optionalMinute afterHour
  let (isAfternoon, rest) ← half (skipSpaces afterMinute)
  pure (⟨hour, minute, isAfternoon⟩, rest)

/-- The groups of `_Pattern`, if the whole value matches it. -/
def matchPattern (value : String) : Option ClockDuration := do
  let (first, afterFirst) ← clockTime value.toList
  match skipSpaces afterFirst with
  | '-' :: rest =>
      let (last, afterLast) ← clockTime rest
      if skipSpaces afterLast = [] then pure ⟨first, last⟩ else none
  | _ => none

end Pattern

section Matcher

/-- Twelve hours are added in the afternoon. -/
def minuteOf (time : ClockTime) : Nat :=
  (time.hour + if time.isAfternoon then 12 else 0) * 60 + time.minute

def extractDuration (value : String) : Option (Nat × Nat) :=
  match matchPattern value with
  | none => none
  | some duration =>
      if duration.first.isAfternoon && !duration.last.isAfternoon then none
      else some (minuteOf duration.first, minuteOf duration.last)

def init (condition : RangerPolicyItemCondition) : RangerTimeOfDayMatcher :=
  let durations := (condition.values.filter (!·.isEmpty)).filterMap extractDuration
  { allowAny := durations.isEmpty, durations }

def durationMatched (durations : List (Nat × Nat)) (hourOfDay minutes : Nat) : Bool :=
  durations.any fun aDuration =>
    let minutesOfDay := hourOfDay * 60 + minutes
    decide (aDuration.1 ≤ minutesOfDay) && decide (minutesOfDay ≤ aDuration.2)

/-- The verdict on the time of a request, which may be missing. -/
def isMatched {Date : Type} (calendar : Date → TimeOfDay) (matcher : RangerTimeOfDayMatcher)
    (accessTime : Option Date) : Bool :=
  if matcher.allowAny then true
  else
    match accessTime with
    | none => true
    | some date =>
        durationMatched matcher.durations (calendar date).hour (calendar date).minute

end Matcher

end RangerTimeOfDayMatcher

/-- A time of the 12-hour clock. -/
structure ClockTime.IsValid (time : ClockTime) : Prop where
  one_le_hour : 1 ≤ time.hour
  hour_le : time.hour ≤ 12
  minute_lt : time.minute < 60

/-- The minute of the day: the hour 12 comes before the hour 1. -/
def ClockTime.minuteOfDay (time : ClockTime) : Nat :=
  time.hour % 12 * 60 + time.minute + if time.isAfternoon then 720 else 0

namespace ClockDuration

/-- Both ends are times of the clock, and they are in order. -/
structure IsValid (duration : ClockDuration) : Prop where
  first : duration.first.IsValid
  last : duration.last.IsValid
  ordered : duration.first.minuteOfDay ≤ duration.last.minuteOfDay

/-- The closed interval on the clock. -/
def Contains (duration : ClockDuration) (minute : Nat) : Prop :=
  duration.first.minuteOfDay ≤ minute ∧ minute ≤ duration.last.minuteOfDay

/-- An interval that begins with the hour 12 is taken to begin half a day later. -/
def IsDelayed (duration : ClockDuration) (minute : Nat) : Prop :=
  duration.first.hour = 12 ∧ duration.Contains minute ∧
    minute < duration.first.minuteOfDay + 720

/-- An interval that ends with the hour 12 is taken to end half a day later. -/
def IsProlonged (duration : ClockDuration) (minute : Nat) : Prop :=
  duration.last.hour = 12 ∧ duration.last.minuteOfDay < minute ∧
    minute ≤ duration.last.minuteOfDay + 720 ∧
    (duration.first.hour = 12 → duration.first.minuteOfDay + 720 ≤ minute)

end ClockDuration

namespace RangerTimeOfDayMatcher

theorem minuteOf_eq {time : ClockTime} (valid : time.IsValid) :
    minuteOf time = time.minuteOfDay + if time.hour = 12 then 720 else 0 := by
  obtain ⟨positive, bound, _⟩ := valid
  unfold minuteOf ClockTime.minuteOfDay
  by_cases noon : time.hour = 12
  · cases time.isAfternoon with
    | true => simp only [noon, ↓reduceIte]; omega
    | false => simp only [noon, Bool.false_eq_true, ↓reduceIte]; omega
  · cases time.isAfternoon with
    | true => simp only [noon, ↓reduceIte]; omega
    | false => simp only [noon, Bool.false_eq_true, ↓reduceIte]; omega

/-- An interval that is in order does not go from the afternoon to the morning. -/
theorem isAfternoon_of_ordered {duration : ClockDuration} (valid : duration.IsValid)
    (first : duration.first.isAfternoon = true) : duration.last.isAfternoon = true := by
  cases last : duration.last.isAfternoon with
  | true => rfl
  | false =>
      have ordered := valid.ordered
      have minute := valid.last.minute_lt
      simp only [ClockTime.minuteOfDay, first, last, ↓reduceIte, Bool.false_eq_true] at ordered
      omega

theorem extractDuration_eq {value : String} {duration : ClockDuration}
    (matched : matchPattern value = some duration) (valid : duration.IsValid) :
    extractDuration value = some (minuteOf duration.first, minuteOf duration.last) := by
  have kept : (duration.first.isAfternoon && !duration.last.isAfternoon) = false := by
    cases first : duration.first.isAfternoon with
    | false => rfl
    | true => rw [isAfternoon_of_ordered valid first]; rfl
  unfold extractDuration
  rw [matched]
  simp only [kept, Bool.false_eq_true, ↓reduceIte]

/-- The minutes the matcher keeps, against the interval on the clock. -/
theorem between_minuteOf_iff {duration : ClockDuration} (valid : duration.IsValid) (minute : Nat) :
    minuteOf duration.first ≤ minute ∧ minute ≤ minuteOf duration.last ↔
      (duration.Contains minute ∧ ¬duration.IsDelayed minute) ∨ duration.IsProlonged minute := by
  rw [minuteOf_eq valid.first, minuteOf_eq valid.last]
  have ordered := valid.ordered
  unfold ClockDuration.IsDelayed ClockDuration.IsProlonged ClockDuration.Contains
  by_cases first : duration.first.hour = 12
  · by_cases last : duration.last.hour = 12
    · simp only [first, last, ↓reduceIte, true_and, true_implies]
      omega
    · simp only [first, last, ↓reduceIte, true_and, false_and, or_false]
      omega
  · by_cases last : duration.last.hour = 12
    · simp only [first, last, ↓reduceIte, true_and, false_and, not_false_eq_true, and_true,
        false_implies]
      omega
    · simp only [first, last, ↓reduceIte, false_and, not_false_eq_true, and_true, or_false,
        Nat.add_zero]

section Clock

variable {values : List String}
  (written : ∀ value ∈ values, ∃ duration, matchPattern value = some duration ∧ duration.IsValid)

include written

/-- The intervals the matcher keeps are those of all values. -/
theorem mem_durations_iff {type : String} {minutes : Nat × Nat} :
    minutes ∈ (init ⟨type, values⟩).durations ↔
      ∃ duration ∈ values.filterMap matchPattern,
        (minuteOf duration.first, minuteOf duration.last) = minutes := by
  simp only [init, List.mem_filterMap, List.mem_filter]
  constructor
  · intro ⟨value, ⟨member, _⟩, extracted⟩
    obtain ⟨duration, matched, valid⟩ := written value member
    rw [extractDuration_eq matched valid, Option.some.injEq] at extracted
    exact ⟨duration, ⟨value, member, matched⟩, extracted⟩
  · intro ⟨duration, ⟨value, member, matched⟩, same⟩
    obtain ⟨other, otherMatched, valid⟩ := written value member
    obtain rfl : other = duration := Option.some.inj (otherMatched.symm.trans matched)
    refine ⟨value, ⟨member, ?_⟩, (extractDuration_eq matched valid).trans (congrArg some same)⟩
    cases empty : value.isEmpty with
    | false => rfl
    | true =>
        rw [String.isEmpty_iff.mp empty] at matched
        cases matched

theorem isValid_of_mem {duration : ClockDuration}
    (member : duration ∈ values.filterMap matchPattern) : duration.IsValid := by
  obtain ⟨value, listed, matched⟩ := List.mem_filterMap.mp member
  obtain ⟨other, otherMatched, valid⟩ := written value listed
  exact Option.some.inj (otherMatched.symm.trans matched) ▸ valid

/-- A time is matched if one of the intervals lets it in. -/
theorem isMatched_iff {Date : Type} (calendar : Date → TimeOfDay) (given : values ≠ [])
    {type : String} {date : Date} :
    (init ⟨type, values⟩).isMatched calendar (some date) = true ↔
      ∃ duration ∈ values.filterMap matchPattern,
        (duration.Contains (calendar date).minuteOfDay ∧
          ¬duration.IsDelayed (calendar date).minuteOfDay) ∨
        duration.IsProlonged (calendar date).minuteOfDay := by
  have kept : (init ⟨type, values⟩).allowAny = false := by
    obtain ⟨value, others, rfl⟩ := List.exists_cons_of_ne_nil given
    obtain ⟨duration, matched, _⟩ := written value List.mem_cons_self
    have member : (minuteOf duration.first, minuteOf duration.last) ∈
        (init ⟨type, value :: others⟩).durations :=
      (mem_durations_iff written).mpr
        ⟨duration, List.mem_filterMap.mpr ⟨value, List.mem_cons_self, matched⟩, rfl⟩
    exact List.isEmpty_eq_false_iff.mpr (List.ne_nil_of_mem member)
  unfold isMatched durationMatched
  rw [kept, if_neg Bool.false_ne_true, List.any_eq_true]
  simp only [mem_durations_iff written, Bool.and_eq_true, decide_eq_true_eq]
  constructor
  · rintro ⟨_, ⟨duration, member, rfl⟩, inside⟩
    exact ⟨duration, member,
      (between_minuteOf_iff (isValid_of_mem written member) _).mp inside⟩
  · intro ⟨duration, member, inside⟩
    exact ⟨_, ⟨duration, member, rfl⟩,
      (between_minuteOf_iff (isValid_of_mem written member) _).mpr inside⟩

/-- Matching follows the clock unless the verdict hangs on an end with the hour 12. -/
theorem isMatched_clock_iff {Date : Type} (calendar : Date → TimeOfDay) (given : values ≠ [])
    {type : String} {date : Date} :
    ((init ⟨type, values⟩).isMatched calendar (some date) = true ↔
      ∃ duration ∈ values.filterMap matchPattern,
        duration.Contains (calendar date).minuteOfDay) ↔
    (∃ duration ∈ values.filterMap matchPattern,
      duration.Contains (calendar date).minuteOfDay ∧
        ¬duration.IsDelayed (calendar date).minuteOfDay) ∨
    ((∃ duration ∈ values.filterMap matchPattern,
        duration.IsProlonged (calendar date).minuteOfDay) ↔
      ∃ duration ∈ values.filterMap matchPattern,
        duration.IsDelayed (calendar date).minuteOfDay) := by
  rw [isMatched_iff written calendar given]
  constructor
  · intro exactly
    refine or_iff_not_imp_left.mpr fun unsound => ⟨?_, ?_⟩
    · intro ⟨duration, member, prolonged⟩
      obtain ⟨other, listed, contains⟩ := exactly.mp ⟨duration, member, .inr prolonged⟩
      exact ⟨other, listed, by_contra fun timely => unsound ⟨other, listed, contains, timely⟩⟩
    · intro ⟨duration, member, delayed⟩
      obtain ⟨other, listed, sound | prolonged⟩ := exactly.mpr ⟨duration, member, delayed.2.1⟩
      · exact absurd ⟨other, listed, sound⟩ unsound
      · exact ⟨other, listed, prolonged⟩
  · rintro (⟨sound, listed, contains, timely⟩ | balanced)
    · exact ⟨fun _ => ⟨sound, listed, contains⟩,
        fun _ => ⟨sound, listed, .inl ⟨contains, timely⟩⟩⟩
    · constructor
      · rintro ⟨duration, member, ⟨contains, _⟩ | prolonged⟩
        · exact ⟨duration, member, contains⟩
        · obtain ⟨other, listed, delayed⟩ := balanced.mp ⟨duration, member, prolonged⟩
          exact ⟨other, listed, delayed.2.1⟩
      · intro ⟨duration, member, contains⟩
        by_cases delayed : duration.IsDelayed (calendar date).minuteOfDay
        · obtain ⟨other, listed, prolonged⟩ := balanced.mpr ⟨duration, member, delayed⟩
          exact ⟨other, listed, .inr prolonged⟩
        · exact ⟨duration, member, .inl ⟨contains, delayed⟩⟩

end Clock

section Noon

/-- Half past nine in the morning to half past five in the afternoon. -/
theorem officeHours_matched :
    (init ⟨"time-of-day", [" 9:30AM - 5:30 p.m."]⟩).isMatched id (some ⟨17, 30⟩) = true ↔
      ∃ duration ∈ [" 9:30AM - 5:30 p.m."].filterMap matchPattern,
        duration.Contains (17 * 60 + 30) := by
  refine (isMatched_clock_iff ?_ id (List.cons_ne_nil _ _)).mpr (.inl ?_)
  · intro value member
    rw [List.mem_singleton.mp member]
    exact ⟨⟨⟨9, 30, false⟩, ⟨5, 30, true⟩⟩, by decide, ⟨⟨by decide, by decide, by decide⟩,
      ⟨by decide, by decide, by decide⟩, by decide⟩⟩
  · exact ⟨⟨⟨9, 30, false⟩, ⟨5, 30, true⟩⟩, by decide, ⟨by decide, by decide⟩,
      fun delayed => absurd delayed.1 (by decide)⟩

/-- An interval that ends at noon lets the afternoon in. -/
theorem morning_admits_afternoon :
    ¬∀ (values : List String) (time : TimeOfDay), values ≠ [] →
      (∀ value ∈ values, ∃ duration, matchPattern value = some duration ∧ duration.IsValid) →
        ((init ⟨"time-of-day", values⟩).isMatched id (some time) = true ↔
          ∃ duration ∈ values.filterMap matchPattern, duration.Contains time.minuteOfDay) := by
  intro exactly
  have morning : matchPattern "9am-12pm" = some ⟨⟨9, 0, false⟩, ⟨12, 0, true⟩⟩ := by decide
  have valid : (⟨⟨9, 0, false⟩, ⟨12, 0, true⟩⟩ : ClockDuration).IsValid :=
    ⟨⟨by decide, by decide, by decide⟩, ⟨by decide, by decide, by decide⟩, by decide⟩
  obtain ⟨duration, member, _, contains⟩ :=
    (exactly ["9am-12pm"] ⟨17, 0⟩ (List.cons_ne_nil _ _) fun value member =>
      ⟨_, List.mem_singleton.mp member ▸ morning, valid⟩).mp (by decide)
  rw [List.filterMap_cons_some morning, List.filterMap_nil, List.mem_singleton] at member
  subst member
  revert contains
  decide

end Noon

end RangerTimeOfDayMatcher

end Ranger
