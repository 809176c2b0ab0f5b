import Ranger.Foundation.AssocMap
import Ranger.Foundation.Run

/-! # The audit file spool

Audits a destination cannot take are stashed line by line in spool files. A
destination thread reads the closed files back and hands the lines to the
consumer in batches. How far it got is kept in an index of the files, in memory
and on disk; a restart continues from the index on disk.
-/

namespace Ranger

open Foundation

inductive SPOOL_FILE_STATUS where
  | pending
  | write_inprogress
  | read_inprogress
  | done
  deriving DecidableEq

/-- A record of the index, which is kept under its id. -/
structure AuditIndexRecord where
  filePath : String
  linePosition : Nat := 0
  status : SPOOL_FILE_STATUS := .write_inprogress
  failedAttemptCount : Nat := 0
  lastAttempt : Bool := false
  deriving DecidableEq

/-- A spool file, in the log folder until it is moved to the archive. -/
structure SpoolFile where
  lines : List String := []
  archived : Bool := false
  deriving DecidableEq

/-- What a call of `logJSON` comes to. -/
inductive LogResult where
  | accepted
  | refused
  | threw
  deriving DecidableEq

/-- A call of `logJSON` for lines of a file that end at the current line. -/
structure LogCall where
  filePath : String
  currLine : Nat
  lines : List String
  result : LogResult
  deriving DecidableEq

/-- The variables of the loop over the lines of a file: the lines read into the
batch, and those that are still to be read. -/
structure Reader where
  startLine : Nat
  currLine : Nat
  lines : List String
  unread : List String
  deriving DecidableEq

/-- Where the destination thread stands. -/
inductive DestinationThread where
  /-- At the top of its loop. -/
  | looping
  /-- Before a call of `logJSON`. -/
  | sending (reader : Reader)
  /-- Behind an accepted call, with the index still to be saved. -/
  | saving (reader : Reader)
  /-- Before `removeIndexRecord`. -/
  | removing
  /-- Inside `removeIndexRecord`, with the index still to be saved. -/
  | removed
  deriving DecidableEq

/-- A spool with the files it left on disk and the calls its consumer has seen. -/
structure AuditFileSpool where
  indexFile : AssocMap String AuditIndexRecord := ∅
  indexDoneFile : List (String × AuditIndexRecord) := []
  files : AssocMap String SpoolFile := ∅
  indexRecords : AssocMap String AuditIndexRecord := ∅
  indexQueue : List String := []
  currentWriterIndexRecord : Option String := none
  currentConsumerIndexRecord : Option String := none
  destinationThread : DestinationThread := .looping
  calls : List LogCall := []

/-- Read lines behind the start line until a batch is full or the file ends. -/
def Reader.fill (maxBatchSize startLine : Nat) :
    Nat → List String → List String → Reader
  | currLine, lines, [] => ⟨startLine, currLine, lines, []⟩
  | currLine, lines, line :: rest =>
      if currLine + 1 < startLine then fill maxBatchSize startLine (currLine + 1) lines rest
      else if (lines ++ [line]).length = maxBatchSize then
        ⟨startLine, currLine + 1, lines ++ [line], rest⟩
      else fill maxBatchSize startLine (currLine + 1) (lines ++ [line]) rest

namespace AuditFileSpool

section Index

variable (spool : AuditFileSpool)

def saveIndexFile : AuditFileSpool := { spool with indexFile := spool.indexRecords }

/-- Assign to the fields of a record of the index. -/
def changeRecord (id : String) (change : AuditIndexRecord → AuditIndexRecord) : AuditFileSpool :=
  match spool.indexRecords.get? id with
  | none => spool
  | some record => { spool with indexRecords := spool.indexRecords.put id (change record) }

/-- `new File(filePath).exists()` in the log folder. -/
def fileExists (filePath : String) : Bool :=
  match spool.files.get? filePath with
  | none => false
  | some file => !file.archived

/-- The files after one was renamed to a file of the archive. -/
def renameToArchive (filePath : String) : AssocMap String SpoolFile :=
  match spool.files.get? filePath with
  | none => spool.files
  | some file => spool.files.put filePath { file with archived := true }

end Index

section Writing

/-- Roll the file that is written over when it is the only one, or when its time
has expired. -/
def closeFileIfNeeded (expired : Bool) (spool : AuditFileSpool) : AuditFileSpool :=
  match spool.currentWriterIndexRecord with
  | none => spool
  | some id =>
      if spool.indexRecords.size = 1 || expired then
        let closed :=
          (spool.changeRecord id fun record => { record with status := .pending }).saveIndexFile
        { closed with
          indexQueue := closed.indexQueue ++ [id]
          currentWriterIndexRecord := none }
      else spool

/-- A new file and its record, under an id and a name that are not in use. -/
def openFile (id fileName : String) (spool : AuditFileSpool) : AuditFileSpool :=
  saveIndexFile
    { spool with
      files := spool.files.put fileName {}
      indexRecords := spool.indexRecords.put id { filePath := fileName, lastAttempt := true }
      currentWriterIndexRecord := some id }

def getLogFileStream (expired : Bool) (id fileName : String) (spool : AuditFileSpool) :
    AuditFileSpool :=
  let spool := spool.closeFileIfNeeded expired
  match spool.currentWriterIndexRecord with
  | none => spool.openFile id fileName
  | some _ => spool

/-- Append lines to a file of the log folder. -/
def append (filePath : String) (lines : List String) (spool : AuditFileSpool) : AuditFileSpool :=
  let file := (spool.files.get? filePath).getD {}
  { spool with files := spool.files.put filePath { file with lines := file.lines ++ lines } }

/-- `stashLogs`, as far as the lines reach the file. -/
def stashLogs (lines : List String) (expired : Bool) (id fileName : String)
    (spool : AuditFileSpool) : AuditFileSpool :=
  let spool := spool.getLogFileStream expired id fileName
  match spool.currentWriterIndexRecord.bind spool.indexRecords.get? with
  | none => spool
  | some record => spool.append record.filePath lines

/-- No file has the name, and no record the id. -/
def isUnused (id fileName : String) (spool : AuditFileSpool) : Bool :=
  !spool.files.containsKey fileName && !spool.indexRecords.containsKey id &&
    !spool.indexFile.containsKey id && !spool.indexQueue.contains id &&
    spool.currentConsumerIndexRecord != some id

end Writing

section Reading

variable (maxBatchSize : Nat)

/-- Read on with an empty batch. The file is done when nothing is left to send. -/
def readOn (startLine currLine : Nat) (unread : List String) (spool : AuditFileSpool) :
    AuditFileSpool :=
  let reader := Reader.fill maxBatchSize startLine currLine [] unread
  if reader.lines = [] then
    let finished :=
      match spool.currentConsumerIndexRecord with
      | none => spool
      | some id => spool.changeRecord id fun record =>
          { record with status := .done, lastAttempt := true }
    { finished with destinationThread := .removing }
  else { spool with destinationThread := .sending reader }

/-- Take a record from the queue unless there is one already. -/
def poll (spool : AuditFileSpool) : AuditFileSpool :=
  match spool.currentConsumerIndexRecord, spool.indexQueue with
  | none, id :: rest =>
      { spool with currentConsumerIndexRecord := some id, indexQueue := rest }
  | _, _ => spool

/-- The record the destination thread is at. -/
def consumerRecord (spool : AuditFileSpool) : Option AuditIndexRecord :=
  spool.currentConsumerIndexRecord.bind spool.indexRecords.get?

/-- A turn of the loop of `run`, up to the first call or the end of the file. A
record whose file is missing is removed from the index. -/
def turn (expired : Bool) (spool : AuditFileSpool) : AuditFileSpool :=
  let spool := spool.poll
  match spool.consumerRecord with
  | none => spool.closeFileIfNeeded expired
  | some record =>
      if spool.fileExists record.filePath then
        spool.readOn maxBatchSize record.linePosition 0
          (((spool.files.get? record.filePath).map (·.lines)).getD [])
      else { spool with destinationThread := .removing }

/-- `sendEvent` and what follows it. An exception leaves the returned value at
true. -/
def sendEvent (reader : Reader) (result : LogResult) (spool : AuditFileSpool) : AuditFileSpool :=
  match spool.currentConsumerIndexRecord, spool.consumerRecord with
  | some id, some record =>
      let call : LogCall := ⟨record.filePath, reader.currLine, reader.lines, result⟩
      let called := { spool with calls := spool.calls ++ [call] }
      match result with
      | .accepted =>
          { called.changeRecord id fun record =>
              { record with
                linePosition := reader.currLine
                status := .read_inprogress
                lastAttempt := true } with
            destinationThread := .saving reader }
      | .refused =>
          { (called.changeRecord id fun record =>
              { record with
                failedAttemptCount := record.failedAttemptCount + 1
                lastAttempt := false }).saveIndexFile with
            destinationThread := .looping }
      | .threw => called.readOn maxBatchSize reader.startLine reader.currLine reader.unread
  | _, _ => spool

/-- Save the index behind an accepted batch, and read on. -/
def saveBatch (reader : Reader) (spool : AuditFileSpool) : AuditFileSpool :=
  spool.saveIndexFile.readOn maxBatchSize reader.startLine reader.currLine reader.unread

/-- Take the record out of the index and move its file to the archive. -/
def appendToDoneFile (spool : AuditFileSpool) : AuditFileSpool :=
  match spool.currentConsumerIndexRecord, spool.consumerRecord with
  | some id, some record =>
      { spool with
        indexRecords := spool.indexRecords.filterKeys (· != id)
        indexDoneFile := spool.indexDoneFile ++ [(id, record)]
        files := spool.renameToArchive record.filePath
        destinationThread := .removed }
  | _, _ => spool

/-- Save the index behind a removal, and go back to the top of the loop. -/
def finishRemoval (expired : Bool) (spool : AuditFileSpool) : AuditFileSpool :=
  closeFileIfNeeded expired
    { spool.saveIndexFile with
      currentConsumerIndexRecord := none
      destinationThread := .looping }

end Reading

/-- `init` in a new process, from what is on disk. -/
def restart (spool : AuditFileSpool) : AuditFileSpool :=
  let entries := spool.indexFile.entries
  { spool with
    indexRecords := spool.indexFile
    indexQueue :=
      (entries.filter fun entry => entry.2.status == .read_inprogress).map Prod.fst ++
        (entries.filter fun entry =>
          entry.2.status == .pending && spool.fileExists entry.2.filePath).map Prod.fst
    currentWriterIndexRecord :=
      (entries.reverse.find? fun entry => entry.2.status == .write_inprogress).map Prod.fst
    currentConsumerIndexRecord := none
    destinationThread := .looping }

/-- What can happen to a spool. -/
inductive Event where
  | stashLogs (lines : List String) (expired : Bool) (id fileName : String)
  | turn (expired : Bool)
  | logJSON (result : LogResult)
  | saveIndexFile
  | appendToDoneFile
  | finishRemoval (expired : Bool)
  | restart
  deriving DecidableEq

/-- One step. An event that cannot happen where the destination thread stands
changes nothing. -/
def step (maxBatchSize : Nat) (spool : AuditFileSpool) (event : Event) : AuditFileSpool :=
  match event, spool.destinationThread with
  | .restart, _ => spool.restart
  -- the lock is held while a record is removed
  | .stashLogs .., .removed => spool
  | .stashLogs lines expired id fileName, _ =>
      if spool.isUnused id fileName then spool.stashLogs lines expired id fileName else spool
  | .turn expired, .looping => spool.turn maxBatchSize expired
  | .logJSON result, .sending reader => spool.sendEvent maxBatchSize reader result
  | .saveIndexFile, .saving reader => spool.saveBatch maxBatchSize reader
  | .appendToDoneFile, .removing => spool.appendToDoneFile
  | .finishRemoval expired, .removed => spool.finishRemoval expired
  | _, _ => spool

/-- The spool after a run of events. -/
def run (maxBatchSize : Nat) (events : List Event) : AuditFileSpool :=
  Run.final (fun spool event => ((), step maxBatchSize spool event)) {} events

end AuditFileSpool

end Ranger
