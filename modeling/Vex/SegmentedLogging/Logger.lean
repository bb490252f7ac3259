import Vex.SegmentedLogging.Queue
import Vex.SegmentedLogging.FileName

/-
  `SegmentedLogger` (`segmented_logger.hpp`): producers `record`
  strings into the sharded queue, and a worker writes them in
  batches into a file under `create_path`, which it closes and
  renames into `close_path` once it holds `records_threshold`
  records, once `time_threshold` has passed, or at the end of a
  day.

  The model runs one call at a time: a `record` by a producer
  whose cached shard is `home`, an iteration of `worker_loop`, a
  call of `flush`, `set_header` or `set_footer`, an update of
  the config node an observer forwards, and the `shutdown` the
  destructor runs, after which nothing else may happen.  The
  clock (`system_clock::now()`, in nanoseconds since the epoch,
  the clock's period on the host) and what the file system does
  (whether each `file_.open` succeeds, whether `fs::rename`
  throws) are inputs; `decompose` is the host's `localtime_r`.
  A file is the list of what each `<<` into it wrote.  Opening a
  path truncates the file there, and renaming onto a path
  replaces the file there: either way that file is gone.

  Key definitions include:
    * `LoggerConfig`, `LoggerStats`, `SegmentedLogger`
    * `SegmentedLogger.record`, `writeBatch`, `shouldRotateFile`,
      `closeCurrentFile`, `workerIteration`, `shutdown`
    * `SegmentedLogger.create`, `SegmentedLogger.step`,
      `SegmentedLogger.run`
-/

------------------------------------------------------------
-- Configuration and State
------------------------------------------------------------

namespace Vex

namespace SegmentedLogging

/- `FileMode`. -/
inductive FileMode where
  | text
  | binary
deriving DecidableEq, Repr

/- `BackpressureStrategy`. -/
inductive BackpressureStrategy where
  | block
  | dropOldest
  | dropNewest
  | reject
deriving DecidableEq, Repr

/-
  `LoggerConfig`, with its defaults.  Thresholds and sizes are
  `uint32_t` values; `time_threshold` is in seconds.
-/
structure LoggerConfig where
  enabled : Bool := true
  fileMode : FileMode := .text
  fileNameFormat : String := ""
  createPath : String := ""
  closePath : String := ""
  bufferSize : Nat := 10000
  recordsThreshold : Nat := 100000
  timeThreshold : Nat := 3600
  queueCapacity : Nat := 50000
  backpressure : BackpressureStrategy := .block
  numShards : Nat := 4
deriving Repr

/-
  The entries of the config node `load_config` reads; `num_shards`
  is optional.
-/
structure ConfigNode where
  enabled : Bool
  bufferSize : Nat
  recordsThreshold : Nat
  timeThreshold : Nat
  fileNameFormat : String
  createPath : String
  closePath : String
  fileMode : String
  numShards : Option Nat

/- `load_config`: every other field keeps its default. -/
def loadConfig (node : ConfigNode) : LoggerConfig :=
  { enabled := node.enabled
    bufferSize := node.bufferSize
    recordsThreshold := node.recordsThreshold
    timeThreshold := node.timeThreshold
    fileNameFormat := node.fileNameFormat
    createPath := node.createPath
    closePath := node.closePath
    fileMode := if node.fileMode = "binary" then .binary else .text
    numShards := node.numShards.getD 4 }

/- `LoggerStats`. -/
structure LoggerStats where
  recordsWritten : Nat := 0
  recordsDropped : Nat := 0
  filesCreated : Nat := 0
  writeErrors : Nat := 0
  queueSize : Nat := 0
  contentionEvents : Nat := 0
deriving DecidableEq, Repr

/- What one `<<` into `file_` writes. -/
inductive Write where
  | header (text : String)
  | record (text : String) (newline : Bool)
  | footer (text : String)
deriving DecidableEq, Repr

/- The records a file holds, in the order they were written. -/
def Write.records : List Write → List String
  | [] => []
  | .record text _ :: writes => text :: Write.records writes
  | _ :: writes => Write.records writes

/-
  A file the worker is done with: renamed into `close_path`, or
  left under its temporary name in `create_path` when the rename
  threw.
-/
structure LogFile where
  path : String
  writes : List Write
deriving DecidableEq, Repr

/- The files left once a file is opened at `path`, or renamed onto it: any there is gone. -/
def LogFile.dropPath (files : List LogFile) (path : String) : List LogFile :=
  files.filter fun f => f.path != path

/-
  `SegmentedLogger`'s members: `enabled_`, `backpressure_`,
  `queue_`, `stats_`, `should_stop_`, `flush_requested_`,
  `config_data_`, the parts of `formatter_`, the state of
  `file_` and the members describing it, `sequence_number_`,
  `header_` and `footer_`; and the files handed to the file
  system so far.
-/
structure SegmentedLogger where
  enabled : Bool
  backpressure : BackpressureStrategy
  queue : MPSCQueue String
  stats : LoggerStats
  shouldStop : Bool
  flushRequested : Bool
  config : LoggerConfig
  formatter : List Part
  fileOpen : Bool
  tempFilename : String
  fileOpenTime : Int
  recordsInFile : Nat
  sequenceNumber : Nat
  header : String
  footer : String
  file : List Write
  closedFiles : List LogFile
  strandedFiles : List LogFile

namespace SegmentedLogger

/- `MAX_RETRIES`. -/
def maxRetries : Nat := 3

/- `uint32_t` subtraction. -/
def sub32 (a b : Nat) : Nat :=
  (a + 2 ^ 32 - b) % 2 ^ 32

/- A path with the `'/'` `apply_config` appends to a nonempty path without one. -/
def withSlash (path : String) : String :=
  if !path.isEmpty && path.back != '/' then path.push '/' else path

/-
  The constructor: the queue (with the default `queue_capacity`,
  which `load_config` never reads), `apply_config`, and
  `cleanup_incomplete_files` giving one sequence number to each
  of the `recovered` files it renames.  `backpressure_` is
  value-initialized and nothing stores to it: `Block`.  `none`
  where making the queue divides by zero.
-/
def create (node : ConfigNode) (recovered : Nat) : Option SegmentedLogger :=
  let cfg := loadConfig node
  (MPSCQueue.make cfg.queueCapacity cfg.numShards).map fun queue =>
    { enabled := cfg.enabled
      backpressure := .block
      queue := queue
      stats := {}
      shouldStop := false
      flushRequested := false
      config := { cfg with
        createPath := withSlash cfg.createPath, closePath := withSlash cfg.closePath }
      formatter := FileNameFormatter.parseFormat cfg.fileNameFormat
      fileOpen := false
      tempFilename := ""
      fileOpenTime := 0
      recordsInFile := 0
      sequenceNumber := 1 + recovered
      header := ""
      footer := ""
      file := []
      closedFiles := []
      strandedFiles := [] }

------------------------------------------------------------
-- Producers
------------------------------------------------------------

/-
  The `while (retry_count < MAX_RETRIES)` loop of `record`, with
  `fuel` bounding its passes.  A full queue is handled by the
  strategy: `Block` retries while `retry_count++ < MAX_RETRIES`,
  `DropOldest` pops one record and retries, the others give up.
  `none` where a push is undefined.
-/
def recordLoop (strategy : BackpressureStrategy) (home : Nat) (log : String) :
    Nat → Nat → SegmentedLogger → Option (Bool × SegmentedLogger)
  | 0, _, lg => some (false, lg)
  | fuel + 1, retryCount, lg =>
    if retryCount < maxRetries then
      match lg.queue.tryPush home log with
      | none => none
      | some (true, queue) =>
        some (true, { lg with
          queue := queue, stats := { lg.stats with queueSize := lg.stats.queueSize + 1 } })
      | some (false, queue) =>
        let lg := { lg with queue := queue }
        match strategy with
        | .block =>
          if retryCount < maxRetries then recordLoop strategy home log fuel (retryCount + 1) lg
          else some (false, { lg with
            stats := { lg.stats with contentionEvents := lg.stats.contentionEvents + 1 } })
        | .dropNewest =>
          some (false, { lg with
            stats := { lg.stats with recordsDropped := lg.stats.recordsDropped + 1 } })
        | .dropOldest =>
          match lg.queue.tryPop with
          | (some _, queue) =>
            recordLoop strategy home log fuel (retryCount + 1) { lg with
              queue := queue
              stats := { lg.stats with
                queueSize := lg.stats.queueSize - 1,
                recordsDropped := lg.stats.recordsDropped + 1 } }
          | (none, queue) => recordLoop strategy home log fuel (retryCount + 1) { lg with queue := queue }
        | .reject =>
          some (false, { lg with
            stats := { lg.stats with recordsDropped := lg.stats.recordsDropped + 1 } })
    else some (false, lg)

/- `record`: a disabled logger accepts and drops. -/
def record (lg : SegmentedLogger) (home : Nat) (log : String) : Option (Bool × SegmentedLogger) :=
  if !lg.enabled then some (true, lg)
  else recordLoop lg.backpressure home log maxRetries 0 lg

------------------------------------------------------------
-- The Worker
------------------------------------------------------------

/-
  `open_new_file` at clock reading `now`, named by its whole
  microseconds; `ok` is whether `file_.open` succeeds, truncating
  any file already at the path.
-/
def openNewFile (lg : SegmentedLogger) (now : Int) (ok : Bool) : SegmentedLogger :=
  let lg := { lg with tempFilename := toString (Int.tdiv now 1000) ++ ".incomp" }
  if !ok then { lg with stats := { lg.stats with writeErrors := lg.stats.writeErrors + 1 } }
  else
    let path := lg.config.createPath ++ lg.tempFilename
    { lg with
      fileOpen := true
      fileOpenTime := now
      recordsInFile := 0
      stats := { lg.stats with filesCreated := lg.stats.filesCreated + 1 }
      file := if lg.config.fileMode = .text && !lg.header.isEmpty then [.header lg.header] else []
      closedFiles := LogFile.dropPath lg.closedFiles path
      strandedFiles := LogFile.dropPath lg.strandedFiles path }

/-
  The batch loop of `write_batch`, `fuel` passes left of the
  `batch_size < max_batch` it tests before each `try_pop`.
-/
def batchLoop : Nat → SegmentedLogger → SegmentedLogger
  | 0, lg => lg
  | fuel + 1, lg =>
    match lg.queue.tryPop with
    | (none, queue) => { lg with queue := queue }
    | (some r, queue) =>
      batchLoop fuel { lg with
        queue := queue
        file := lg.file ++ [.record r (lg.config.fileMode = .text)]
        recordsInFile := (lg.recordsInFile + 1) % 2 ^ 32
        stats := { lg.stats with
          recordsWritten := lg.stats.recordsWritten + 1,
          queueSize := lg.stats.queueSize - 1 } }

/-
  `write_batch`: nothing on an empty queue; else open a file if
  none is, and write at most
  `min(buffer_size, records_threshold - records_in_file_)`
  records, the subtraction in `uint32_t`.
-/
def writeBatch (lg : SegmentedLogger) (openAt : Int) (openOk : Bool) : SegmentedLogger :=
  if lg.queue.empty then lg
  else
    let lg := if lg.fileOpen then lg else lg.openNewFile openAt openOk
    if !lg.fileOpen then lg
    else batchLoop (min lg.config.bufferSize (sub32 lg.config.recordsThreshold lg.recordsInFile)) lg

section Clock

variable (decompose : Int → TimeComponents)

/-
  `should_rotate_file` at clock reading `now`: the record
  threshold, the elapsed whole seconds, or a change of day.
-/
def shouldRotateFile (lg : SegmentedLogger) (now : Int) : Bool :=
  if !lg.fileOpen then false
  else if lg.recordsInFile ≥ lg.config.recordsThreshold then true
  else if Int.tdiv (now - lg.fileOpenTime) 1000000000 ≥ lg.config.timeThreshold then true
  else (decompose lg.fileOpenTime).day != (decompose now).day

/-
  `close_current_file` at clock reading `now`: write the footer,
  close, and rename to the formatted name, replacing any file of
  that name; `renameOk` is whether `fs::rename` succeeds.  The
  sequence number restarts at 1 on a new day and otherwise cycles
  through 1 to 9999.
-/
def closeCurrentFile (lg : SegmentedLogger) (now : Int) (renameOk : Bool) : SegmentedLogger :=
  if !lg.fileOpen then lg
  else
    let writes := lg.file ++
      (if lg.config.fileMode = .text && !lg.footer.isEmpty then [.footer lg.footer] else [])
    let lg := { lg with fileOpen := false, file := [] }
    let openTime := decompose lg.fileOpenTime
    let closeTime := decompose now
    if renameOk then
      let path := lg.config.closePath ++
        FileNameFormatter.format lg.formatter openTime closeTime lg.sequenceNumber
      { lg with
        closedFiles := LogFile.dropPath lg.closedFiles path ++ [⟨path, writes⟩]
        strandedFiles := LogFile.dropPath lg.strandedFiles path
        sequenceNumber :=
          if openTime.day != closeTime.day then 1 else lg.sequenceNumber % 9999 + 1 }
    else
      { lg with
        strandedFiles := lg.strandedFiles ++ [⟨lg.config.createPath ++ lg.tempFilename, writes⟩]
        stats := { lg.stats with writeErrors := lg.stats.writeErrors + 1 } }

/-
  The clock readings and file-system outcomes one iteration of
  `worker_loop` meets: at `open_new_file`, at
  `should_rotate_file`, and at `close_current_file`.
-/
structure Tick where
  openAt : Int
  openOk : Bool
  rotateAt : Int
  closeAt : Int
  renameOk : Bool
deriving DecidableEq, Repr

/-
  One iteration of `worker_loop` after its wait: `write_batch`,
  the rotation check, and the flush request taken (`file_.flush()`
  changes nothing the model holds).
-/
def workerIteration (lg : SegmentedLogger) (tick : Tick) : SegmentedLogger :=
  let lg := lg.writeBatch tick.openAt tick.openOk
  let lg := if shouldRotateFile decompose lg tick.rotateAt
    then closeCurrentFile decompose lg tick.closeAt tick.renameOk else lg
  { lg with flushRequested := false }

/-
  The drain loop of `shutdown`, `fuel` passes left: each popped
  record is written, a file opened first if none is; a record
  popped while no file opens is lost.  The `attempt`-th
  `open_new_file` of the drain reads the clock at
  `(opens attempt).1` and succeeds when `(opens attempt).2`.
-/
def drainLoop (opens : Nat → Int × Bool) : Nat → Nat → SegmentedLogger → SegmentedLogger
  | 0, _, lg => lg
  | fuel + 1, attempt, lg =>
    match lg.queue.tryPop with
    | (none, queue) => { lg with queue := queue }
    | (some r, queue) =>
      let lg := { lg with queue := queue }
      if lg.fileOpen then
        drainLoop opens fuel attempt
          { lg with file := lg.file ++ [.record r (lg.config.fileMode = .text)] }
      else
        let lg := lg.openNewFile (opens attempt).1 (opens attempt).2
        drainLoop opens fuel (attempt + 1) <|
          if lg.fileOpen then { lg with file := lg.file ++ [.record r (lg.config.fileMode = .text)] }
          else lg

/-
  `shutdown` once the worker has stopped: drain the queue, one
  pass per queued record and one more that finds it empty, then
  close the file.
-/
def shutdown (lg : SegmentedLogger) (opens : Nat → Int × Bool) (closeAt : Int)
    (renameOk : Bool) : SegmentedLogger :=
  closeCurrentFile decompose
    (drainLoop opens (lg.queue.size + 1) 0 { lg with shouldStop := true }) closeAt renameOk

/- A call on the logger, or an update of the config node forwarded by an observer. -/
inductive Input where
  | record (home : Nat) (log : String)
  | iterate (tick : Tick)
  | flush
  | setHeader (header : String)
  | setFooter (footer : String)
  | setEnabled (enabled : Bool)
  | setBufferSize (bufferSize : Nat)
  | setRecordsThreshold (recordsThreshold : Nat)
  | setTimeThreshold (timeThreshold : Nat)
  | shutdown (opens : Nat → Int × Bool) (closeAt : Int) (renameOk : Bool)

/-
  One input; a `record` returns its result.  `none` where a push
  is undefined, and after `shutdown`, once the logger is gone.
-/
def step (lg : SegmentedLogger) (input : Input) : Option (Option Bool × SegmentedLogger) :=
  if lg.shouldStop then none
  else
    match input with
    | .record home log => (lg.record home log).map fun r => (some r.1, r.2)
    | .iterate tick => some (none, workerIteration decompose lg tick)
    | .flush => some (none, { lg with flushRequested := true })
    | .setHeader header => some (none, { lg with header := header })
    | .setFooter footer => some (none, { lg with footer := footer })
    | .setEnabled enabled => some (none, { lg with enabled := enabled })
    | .setBufferSize n => some (none, { lg with config := { lg.config with bufferSize := n } })
    | .setRecordsThreshold n =>
      some (none, { lg with config := { lg.config with recordsThreshold := n } })
    | .setTimeThreshold n =>
      some (none, { lg with config := { lg.config with timeThreshold := n } })
    | .shutdown opens closeAt renameOk => some (none, shutdown decompose lg opens closeAt renameOk)

/- A run of inputs, with what each `record` returned. -/
def run (lg : SegmentedLogger) : List Input → Option (List (Option Bool) × SegmentedLogger)
  | [] => some ([], lg)
  | input :: inputs =>
    match step decompose lg input with
    | none => none
    | some (out, lg') => (run lg' inputs).map fun r => (out :: r.1, r.2)

end Clock

end SegmentedLogger

end SegmentedLogging

end Vex
