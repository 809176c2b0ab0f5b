import Ranger.Foundation.Lines
import Ranger.Foundation.Run

/-! # Audits in a local file

A log is written as a line to a buffer file; a line break in it is escaped. The dispatcher
reads the file back line by line and joins the lines that end with the escape.
-/

namespace Ranger

open Foundation

/-- The `line.separator` of the system. -/
inductive LineSeparator where
  | unix
  | windows

namespace MiscUtil

def ESCAPE_STR : List Char := ['\\']

def LINE_SEPARATOR : LineSeparator → List Char
  | .unix => ['\n']
  | .windows => ['\r', '\n']

end MiscUtil

open MiscUtil

/-- The buffer file that is written. -/
structure LocalFileLogBuffer where
  content : List Char := []

namespace LocalFileLogBuffer

variable (system : LineSeparator)

def add (buffer : LocalFileLogBuffer) (log : List Char) : LocalFileLogBuffer :=
  let msg := replace (LINE_SEPARATOR system) (ESCAPE_STR ++ LINE_SEPARATOR system) log
  { content := buffer.content ++ (msg ++ LINE_SEPARATOR system) }

/-- The buffer after a sequence of logs. -/
def addAll (logs : List (List Char)) : LocalFileLogBuffer := logs.foldl (add system) {}

end LocalFileLogBuffer

/-- The reader of a file, with the lines that are left. -/
structure BufferedReader where
  lines : List (List Char)

def BufferedReader.of (buffer : LocalFileLogBuffer) : BufferedReader := ⟨readLines buffer.content⟩

namespace DestinationDispatcherThread

variable (system : LineSeparator)

/-- The loop that reads a log: lines that end with the escape are continued. -/
def readLog : Option (List Char) → List (List Char) → Option (List Char) × BufferedReader
  | log, [] => (log, ⟨[]⟩)
  | log, line :: lines =>
      if ESCAPE_STR.isSuffixOf line then
        let line := line.take (line.length - ESCAPE_STR.length)
        match log with
        | none => readLog (some line) lines
        | some log => readLog (some (log ++ LINE_SEPARATOR system ++ line)) lines
      else
        match log with
        | none => (some line, ⟨lines⟩)
        | some log => (some (log ++ line), ⟨lines⟩)

def getNextStringifiedLog (mReader : BufferedReader) : Option (List Char) × BufferedReader :=
  readLog system none mReader.lines

/-- What a number of calls answers. -/
def getStringifiedLogs (mReader : BufferedReader) (calls : Nat) : List (Option (List Char)) :=
  Run.outputs (fun reader (_ : Unit) => getNextStringifiedLog system reader) mReader
    (List.replicate calls ())

end DestinationDispatcherThread

open DestinationDispatcherThread

namespace LocalFileLogBuffer

variable (system : LineSeparator)

/-- The logs are read back in order, and then there is nothing. -/
def RoundTrips (logs : List (List Char)) : Prop :=
  getStringifiedLogs system (.of (addAll system logs)) (logs.length + 1) =
    logs.map some ++ [none]

/-- A log on one line, that does not end with the escape. -/
def Plain (log : List Char) : Prop := OneLine log ∧ ¬ESCAPE_STR <:+ log

section Lines

variable {system}

/-- What is written of logs. -/
def written (system : LineSeparator) : List (List Char) → List Char
  | [] => []
  | log :: logs =>
      replace (LINE_SEPARATOR system) (ESCAPE_STR ++ LINE_SEPARATOR system) log ++
        (LINE_SEPARATOR system ++ written system logs)

theorem content_addAll (system : LineSeparator) (logs : List (List Char)) :
    (addAll system logs).content = written system logs := by
  have behind : ∀ buffer : LocalFileLogBuffer,
      (logs.foldl (add system) buffer).content = buffer.content ++ written system logs := by
    induction logs with
    | nil => exact fun buffer => (List.append_nil _).symm
    | cons log logs ih =>
        intro buffer
        rw [List.foldl_cons, ih, add, written, List.append_assoc, List.append_assoc]
  exact behind {}

theorem endsLine (system : LineSeparator) : EndsLine (LINE_SEPARATOR system) := by
  cases system with
  | unix => exact fun _ => rfl
  | windows => exact fun _ => rfl

/-- A text on one line cannot touch a separator. -/
theorem exists_separator (system : LineSeparator) :
    ∃ char rest, LINE_SEPARATOR system = char :: rest ∧
      ∀ text, OneLine text → char ∉ text := by
  cases system with
  | unix => exact ⟨_, _, rfl, fun _ plain => plain.1⟩
  | windows => exact ⟨_, _, rfl, fun _ plain => plain.2⟩

/-- What is added to a log that is continued. -/
def continuation (system : LineSeparator) : List (List Char) → List Char
  | [] => []
  | line :: lines =>
      if ESCAPE_STR.isSuffixOf line then
        LINE_SEPARATOR system ++
          (line.take (line.length - ESCAPE_STR.length) ++ continuation system lines)
      else line

theorem readLog_some (log : List Char) (lines : List (List Char)) :
    (readLog system (some log) lines).1 = some (log ++ continuation system lines) := by
  induction lines generalizing log with
  | nil => rw [readLog, continuation, List.append_nil]
  | cons line lines ih =>
      rw [readLog, continuation]
      split
      · rw [ih, List.append_assoc, List.append_assoc]
      · rfl

theorem isSuffixOf_escaped (line : List Char) :
    ESCAPE_STR.isSuffixOf (line ++ ESCAPE_STR) = true :=
  List.isSuffixOf_iff_suffix.mpr (List.suffix_append line ESCAPE_STR)

theorem take_escaped (line : List Char) :
    (line ++ ESCAPE_STR).take ((line ++ ESCAPE_STR).length - ESCAPE_STR.length) = line := by
  rw [List.length_append, Nat.add_sub_cancel, List.take_left]

/-- A line that ends with the escape is continued. -/
theorem readLog_escaped (line : List Char) (lines : List (List Char)) :
    (readLog system none ((line ++ ESCAPE_STR) :: lines)).1 =
      some (line ++ continuation system lines) := by
  rw [readLog, if_pos (isSuffixOf_escaped line)]
  dsimp only
  rw [take_escaped, readLog_some]

theorem continuation_escaped (line : List Char) (lines : List (List Char)) :
    continuation system ((line ++ ESCAPE_STR) :: lines) =
      LINE_SEPARATOR system ++ (line ++ continuation system lines) := by
  rw [continuation, if_pos (isSuffixOf_escaped line), take_escaped]

theorem continuation_of_plain {line : List Char} (plain : ¬ESCAPE_STR <:+ line)
    (lines : List (List Char)) : continuation system (line :: lines) = line :=
  if_neg (mt List.isSuffixOf_iff_suffix.mp plain)

theorem readLog_of_plain {line : List Char} (plain : ¬ESCAPE_STR <:+ line)
    (lines : List (List Char)) : readLog system none (line :: lines) = (some line, ⟨lines⟩) := by
  rw [readLog, if_neg (mt List.isSuffixOf_iff_suffix.mp plain)]

/-- No continuation is the escape alone. -/
theorem continuation_ne_escape (lines : List (List Char)) :
    continuation system lines ≠ ESCAPE_STR := by
  cases lines with
  | nil => exact nofun
  | cons line lines =>
      by_cases escaped : ESCAPE_STR <:+ line
      · obtain ⟨line, rfl⟩ := escaped
        rw [continuation_escaped]
        cases system with
        | unix => exact fun same => absurd (List.cons.inj same).1 (by decide)
        | windows => exact fun same => absurd (List.cons.inj same).1 (by decide)
      · rw [continuation_of_plain escaped]
        exact fun same => escaped (same ▸ List.suffix_rfl)

/-- What is continued from texts on one line are such texts with separators between them. -/
theorem exists_continuation {lines : List (List Char)} (plain : ∀ line ∈ lines, OneLine line) :
    ∃ piece pieces, (∀ text ∈ piece :: pieces, OneLine text) ∧
      continuation system lines =
        piece ++ Delimited.behindFirst (LINE_SEPARATOR system) pieces := by
  induction lines with
  | nil => exact ⟨[], [], List.forall_mem_singleton.mpr oneLine_nil, rfl⟩
  | cons line lines ih =>
      obtain ⟨first, behind⟩ := List.forall_mem_cons.mp plain
      by_cases escaped : ESCAPE_STR <:+ line
      · obtain ⟨line, rfl⟩ := escaped
        obtain ⟨piece, pieces, others, continued⟩ := ih behind
        obtain ⟨next, others⟩ := List.forall_mem_cons.mp others
        refine ⟨[], (line ++ piece) :: pieces, ?_, ?_⟩
        · have joined := oneLine_append.mpr ⟨(oneLine_append.mp first).1, next⟩
          exact List.forall_mem_cons.mpr ⟨oneLine_nil, List.forall_mem_cons.mpr ⟨joined, others⟩⟩
        · rw [continuation_escaped, continued, Delimited.behindFirst_cons, List.nil_append,
            List.append_assoc]
      · refine ⟨line, [], List.forall_mem_singleton.mpr first, ?_⟩
        rw [continuation_of_plain escaped, Delimited.behindFirst, List.append_nil]

/-- What is read from texts on one line is such texts with separators between them. -/
theorem exists_readLog {lines : List (List Char)} (plain : ∀ line ∈ lines, OneLine line)
    {log : List Char} (read : (readLog system none lines).1 = some log) :
    ∃ piece pieces, (∀ text ∈ piece :: pieces, OneLine text) ∧
      log = piece ++ Delimited.behindFirst (LINE_SEPARATOR system) pieces := by
  cases lines with
  | nil => nomatch read
  | cons line lines =>
      obtain ⟨first, behind⟩ := List.forall_mem_cons.mp plain
      by_cases escaped : ESCAPE_STR <:+ line
      · obtain ⟨line, rfl⟩ := escaped
        rw [readLog_escaped, Option.some.injEq] at read
        obtain ⟨piece, pieces, others, continued⟩ := @exists_continuation system _ behind
        obtain ⟨next, others⟩ := List.forall_mem_cons.mp others
        have joined := oneLine_append.mpr ⟨(oneLine_append.mp first).1, next⟩
        refine ⟨line ++ piece, pieces, List.forall_mem_cons.mpr ⟨joined, others⟩, ?_⟩
        rw [← read, continued, List.append_assoc]
      · rw [readLog_of_plain escaped] at read
        cases read
        refine ⟨log, [], List.forall_mem_singleton.mpr first, ?_⟩
        rw [Delimited.behindFirst, List.append_nil]

/-- The first line of what is written of a log with separators. -/
theorem readLines_behindFirst {piece next : List Char} {pieces : List (List Char)}
    (plain : OneLine piece) (rest : List Char) :
    readLines (piece ++ Delimited.behindFirst (ESCAPE_STR ++ LINE_SEPARATOR system)
        (next :: pieces) ++ rest) =
      (piece ++ ESCAPE_STR) :: readLines (next ++
        Delimited.behindFirst (ESCAPE_STR ++ LINE_SEPARATOR system) pieces ++ rest) := by
  have escaped : OneLine (piece ++ ESCAPE_STR) :=
    oneLine_append.mpr ⟨plain, by unfold OneLine ESCAPE_STR; decide⟩
  rw [← readLines_append (endsLine system) escaped, Delimited.behindFirst_cons]
  simp only [List.append_assoc]

/-- The separator in front of the last line is lost. -/
theorem continuation_written_ne {next : List Char} {pieces : List (List Char)}
    (plain : ∀ text ∈ next :: pieces, OneLine text) (rest : List Char) :
    continuation system (readLines (next ++
        Delimited.behindFirst (ESCAPE_STR ++ LINE_SEPARATOR system) pieces ++
          (LINE_SEPARATOR system ++ rest))) ≠
      LINE_SEPARATOR system ++
        (next ++ Delimited.behindFirst (LINE_SEPARATOR system) pieces) := by
  induction pieces generalizing next with
  | nil =>
      rw [Delimited.behindFirst, Delimited.behindFirst, List.append_nil,
        readLines_append (endsLine system) (plain next List.mem_cons_self)]
      by_cases escaped : ESCAPE_STR <:+ next
      · obtain ⟨line, rfl⟩ := escaped
        rw [continuation_escaped]
        intro same
        exact continuation_ne_escape _ (List.append_cancel_left (List.append_cancel_left same))
      · rw [continuation_of_plain escaped]
        intro same
        rw [List.self_eq_append_left] at same
        cases system with
        | unix => exact absurd same (List.cons_ne_nil _ _)
        | windows => exact absurd same (List.cons_ne_nil _ _)
  | cons other pieces ih =>
      obtain ⟨first, others⟩ := List.forall_mem_cons.mp plain
      rw [readLines_behindFirst first, continuation_escaped, Delimited.behindFirst_cons]
      intro same
      exact ih others (List.append_cancel_left (List.append_cancel_left same))

/-- A log that is read back first is plain. -/
theorem plain_of_readLog {log : List Char} {logs : List (List Char)}
    (read : (readLog system none (readLines (written system (log :: logs)))).1 = some log) :
    Plain log := by
  obtain ⟨piece, pieces, plain, rfl⟩ := exists_readLog (oneLine_of_mem_readLines _) read
  obtain ⟨char, separator, named, free⟩ := exists_separator system
  have escaped : replace (LINE_SEPARATOR system) (ESCAPE_STR ++ LINE_SEPARATOR system)
      (piece ++ Delimited.behindFirst (LINE_SEPARATOR system) pieces) =
        piece ++ Delimited.behindFirst (ESCAPE_STR ++ LINE_SEPARATOR system) pieces := by
    rw [named]
    exact replace_behindFirst (fun text member => free text (plain text member)) _
  rw [written, escaped] at read
  cases pieces with
  | nil =>
      have line := plain piece List.mem_cons_self
      rw [Delimited.behindFirst, List.append_nil] at read ⊢
      refine ⟨line, fun ends => ?_⟩
      obtain ⟨piece, rfl⟩ := ends
      rw [Delimited.behindFirst, List.append_nil, readLines_append (endsLine system) line,
        readLog_escaped, Option.some.injEq] at read
      exact continuation_ne_escape _ (List.append_cancel_left read)
  | cons next pieces =>
      obtain ⟨first, others⟩ := List.forall_mem_cons.mp plain
      rw [readLines_behindFirst first, readLog_escaped, Delimited.behindFirst_cons,
        Option.some.injEq] at read
      exact absurd (List.append_cancel_left read) (continuation_written_ne others _)

/-- A plain log is written as a line. -/
theorem readLines_written {log : List Char} (plain : OneLine log) (logs : List (List Char)) :
    readLines (written system (log :: logs)) = log :: readLines (written system logs) := by
  obtain ⟨char, separator, named, free⟩ := exists_separator system
  have same : replace (LINE_SEPARATOR system) (ESCAPE_STR ++ LINE_SEPARATOR system) log = log := by
    rw [named]
    exact replace_of_not_mem (free log plain) _ _
  rw [written, same, readLines_append (endsLine system) plain]

end Lines

end LocalFileLogBuffer

end Ranger
