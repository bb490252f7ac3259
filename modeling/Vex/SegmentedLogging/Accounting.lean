import Vex.SegmentedLogging.Logger

/-
  Where the records of a segmented logger go, over every run of
  `record` calls, worker iterations, flushes and config updates
  before `shutdown`.

  `Accounts` is what the logger keeps true: its queue is valid,
  `backpressure_` is `Block`, it is not shut down, a closed
  `file_` holds nothing, `queue_size` counts the queued records,
  `files_created` is at least the number of files on disk and
  `records_written` at least the number of records in them, and
  neither `records_dropped` nor `contention_events` ever moves.
  Each function of the logger keeps it, and moves records only
  between the queue and the files, except that opening or
  renaming a file at the path of another removes that one with
  its records.  `Intact` says no file was removed: `files_created`
  counts the files on disk; then `records_written` counts their
  records, and they and the queue hold exactly the records
  `record` stored.

  Key definitions include:
    * `SegmentedLogger.writtenRecords`, `SegmentedLogger.held`
    * `SegmentedLogger.fileCount`, `SegmentedLogger.Intact`
    * `SegmentedLogger.Accounts`, `SegmentedLogger.Keeps`,
      `SegmentedLogger.accepted`

  Key theorems include:
    * `Keeps.of_files`, `Keeps.of_dropPath`
    * `recordLoop_block`, `batchLoop_spec`, one `keeps_` lemma per
      function of the worker
    * `Accounts.step`, `Accounts.run`, `Accounts.create`
    * `logger_keeps_every_record`
-/

------------------------------------------------------------
-- What the Logger Holds
------------------------------------------------------------

namespace Vex

namespace SegmentedLogging

@[simp]
theorem Write.records_nil : Write.records [] = [] :=
  rfl

@[simp]
theorem Write.records_append (writes writes' : List Write) :
    Write.records (writes ++ writes') = Write.records writes ++ Write.records writes' := by
  induction writes with
  | nil => rfl
  | cons w writes ih => cases w <;> simp [Write.records, ih]

@[simp]
theorem Write.records_record (text : String) (newline : Bool) :
    Write.records [.record text newline] = [text] :=
  rfl

@[simp]
theorem Write.records_header (text : String) : Write.records [.header text] = [] :=
  rfl

@[simp]
theorem Write.records_footer (text : String) : Write.records [.footer text] = [] :=
  rfl

@[simp]
theorem Write.records_map_record (rs : List String) (newline : Bool) :
    Write.records (rs.map fun r => .record r newline) = rs := by
  induction rs with
  | nil => rfl
  | cons r rs ih => simpa [Write.records] using ih

/- A header or a footer is no record. -/
@[simp]
theorem Write.records_ite_header (c : Prop) [Decidable c] (text : String) :
    Write.records (if c then [.header text] else []) = [] := by
  split <;> rfl

@[simp]
theorem Write.records_ite_footer (c : Prop) [Decidable c] (text : String) :
    Write.records (if c then [.footer text] else []) = [] := by
  split <;> rfl

/- The files left at other paths are some of the files. -/
theorem LogFile.dropPath_sublist (files : List LogFile) (path : String) :
    (LogFile.dropPath files path).Sublist files :=
  List.filter_sublist _

@[simp]
theorem LogFile.mem_dropPath {f : LogFile} {files : List LogFile} {path : String} :
    f ∈ LogFile.dropPath files path ↔ f ∈ files ∧ f.path ≠ path := by
  simp [LogFile.dropPath]

/- Dropping files at a path leaves as many only where no file was there. -/
theorem LogFile.dropPath_eq_of_length_le {closed stranded : List LogFile} {path : String}
    (h : closed.length + stranded.length ≤
      (LogFile.dropPath closed path).length + (LogFile.dropPath stranded path).length) :
    LogFile.dropPath closed path = closed ∧ LogFile.dropPath stranded path = stranded := by
  have hc := LogFile.dropPath_sublist closed path
  have hs := LogFile.dropPath_sublist stranded path
  have := hc.length_le
  have := hs.length_le
  exact ⟨hc.eq_of_length (by omega), hs.eq_of_length (by omega)⟩

/- Fewer files hold part of the records. -/
theorem records_sublist {files files' : List LogFile} (h : files'.Sublist files) :
    (files'.flatMap fun f => Write.records f.writes).Sublist
      (files.flatMap fun f => Write.records f.writes) := by
  induction h with
  | slnil => exact .slnil
  | cons f _ ih => exact ih.trans (List.sublist_append_right _ _)
  | cons₂ f _ ih => exact ih.append_left _

namespace SegmentedLogger

/- The records in every file: renamed, stranded, and the open one. -/
def writtenRecords (lg : SegmentedLogger) : List String :=
  (lg.closedFiles ++ lg.strandedFiles).flatMap (fun f => Write.records f.writes) ++
    Write.records lg.file

/- Appending to the open file appends to the records written. -/
theorem writtenRecords_eq (lg : SegmentedLogger) {lg' : SegmentedLogger}
    (hClosed : lg'.closedFiles = lg.closedFiles) (hStranded : lg'.strandedFiles = lg.strandedFiles)
    (writes : List Write) (hFile : lg'.file = lg.file ++ writes) :
    lg'.writtenRecords = lg.writtenRecords ++ Write.records writes := by
  simp [writtenRecords, hClosed, hStranded, hFile, List.append_assoc]

/- The records the logger holds: written to a file, or queued. -/
def held (lg : SegmentedLogger) : List String :=
  lg.writtenRecords ++ lg.queue.view.flatten

/- The files the logger has on disk: renamed, stranded, and the open one. -/
def fileCount (lg : SegmentedLogger) : Nat :=
  lg.closedFiles.length + lg.strandedFiles.length + if lg.fileOpen then 1 else 0

/- No file the logger made is gone: `files_created` counts the files on disk. -/
def Intact (lg : SegmentedLogger) : Prop :=
  lg.stats.filesCreated = lg.fileCount

instance (lg : SegmentedLogger) : Decidable lg.Intact :=
  inferInstanceAs (Decidable (_ = _))

/- Whether an input is the `shutdown` the destructor runs. -/
def Input.isShutdown : Input → Bool
  | .shutdown .. => true
  | _ => false

/- The records a run's `record` calls reported stored, in call order. -/
def accepted : List Input → List (Option Bool) → List String
  | .record _ log :: inputs, some true :: outs => log :: accepted inputs outs
  | _ :: inputs, _ :: outs => accepted inputs outs
  | _, _ => []

@[simp]
theorem accepted_none (input : Input) : accepted [input] [none] = [] := by
  cases input <;> rfl

theorem accepted_cons (input : Input) (out : Option Bool) (inputs : List Input)
    (outs : List (Option Bool)) :
    accepted (input :: inputs) (out :: outs) = accepted [input] [out] ++ accepted inputs outs := by
  rcases input with _ | _ | _ | _ | _ | _ | _ | _ | _ | _ <;>
    rcases out with _ | _ | _ <;> rfl

/-
  What the logger keeps true while it runs.  Queued records are
  counted by `queue_size`; `files_created` and `records_written`
  count at least the files and records on disk, exactly while no
  file was replaced; nothing counts a record as dropped or a
  contention event.
-/
structure Accounts (lg : SegmentedLogger) : Prop where
  queue_valid : lg.queue.Valid
  block : lg.backpressure = .block
  running : lg.shouldStop = false
  closed_empty : lg.fileOpen = false → lg.file = []
  queue_size : lg.stats.queueSize = lg.queue.view.flatten.length
  files_created : lg.fileCount ≤ lg.stats.filesCreated
  records_written : lg.writtenRecords.length ≤ lg.stats.recordsWritten
  records_intact : lg.Intact → lg.stats.recordsWritten = lg.writtenRecords.length
  records_dropped : lg.stats.recordsDropped = 0
  contention_events : lg.stats.contentionEvents = 0
  records_lt : lg.recordsInFile < 2 ^ 32

/-
  A call that stores nothing: the accounting kept, the same
  shards and the same `enabled_`, and part of the records held,
  all of them where no file is gone.
-/
structure Keeps (lg lg' : SegmentedLogger) : Prop where
  accounts : Accounts lg'
  num_shards : lg'.queue.numShards = lg.queue.numShards
  enabled : lg'.enabled = lg.enabled
  held : lg'.held.Subperm lg.held
  intact : lg'.Intact → lg.Intact ∧ lg'.held.Perm lg.held

theorem Keeps.refl {lg : SegmentedLogger} (h : Accounts lg) : Keeps lg lg :=
  ⟨h, rfl, rfl, List.Subperm.refl _, fun hI => ⟨hI, List.Perm.refl _⟩⟩

theorem Keeps.trans {lg lg' lg'' : SegmentedLogger} (h : Keeps lg lg') (h' : Keeps lg' lg'') :
    Keeps lg lg'' := by
  refine ⟨h'.accounts, h'.num_shards.trans h.num_shards, h'.enabled.trans h.enabled,
    h'.held.trans h.held, fun hI => ?_⟩
  obtain ⟨hI', hPerm'⟩ := h'.intact hI
  obtain ⟨hI₀, hPerm⟩ := h.intact hI'
  exact ⟨hI₀, hPerm'.trans hPerm⟩

/-
  A call that changes the files alone, and their counters
  `files_created` and `write_errors`: it keeps the records on
  disk or some of them, and `files_created` grows at least as
  much as the files do; where no file is gone after it, none was
  before, and it kept every record.
-/
theorem Keeps.of_files {lg lg' : SegmentedLogger} (h : Accounts lg) (hQueue : lg'.queue = lg.queue)
    (hBlock : lg'.backpressure = lg.backpressure) (hStop : lg'.shouldStop = lg.shouldStop)
    (hEnabled : lg'.enabled = lg.enabled)
    (hStats : lg'.stats = { lg.stats with
      filesCreated := lg'.stats.filesCreated, writeErrors := lg'.stats.writeErrors })
    (hClosedEmpty : lg'.fileOpen = false → lg'.file = []) (hRecords : lg'.recordsInFile < 2 ^ 32)
    (hCount : lg'.fileCount + lg.stats.filesCreated ≤ lg.fileCount + lg'.stats.filesCreated)
    (hWritten : lg'.writtenRecords.Subperm lg.writtenRecords)
    (hIntact : lg'.Intact → lg.Intact ∧ lg'.writtenRecords.Perm lg.writtenRecords) :
    Keeps lg lg' := by
  have hRecordsWritten : lg'.stats.recordsWritten = lg.stats.recordsWritten := by rw [hStats]
  have hQueueSize : lg'.stats.queueSize = lg.stats.queueSize := by rw [hStats]
  have hFiles := h.files_created
  refine ⟨⟨hQueue ▸ h.queue_valid, hBlock ▸ h.block, hStop ▸ h.running, hClosedEmpty,
    by rw [hQueueSize, hQueue]; exact h.queue_size, by omega,
    hRecordsWritten ▸ hWritten.length_le.trans h.records_written, fun hI => ?_,
    by rw [hStats]; exact h.records_dropped, by rw [hStats]; exact h.contention_events, hRecords⟩,
    by rw [hQueue], hEnabled, ?_, fun hI => ?_⟩
  · obtain ⟨hI₀, hPerm⟩ := hIntact hI
    rw [hRecordsWritten, h.records_intact hI₀, hPerm.length_eq]
  · rw [SegmentedLogger.held, SegmentedLogger.held, hQueue]
    exact (List.subperm_append_right _).mpr hWritten
  · obtain ⟨hI₀, hPerm⟩ := hIntact hI
    refine ⟨hI₀, ?_⟩
    rw [SegmentedLogger.held, SegmentedLogger.held, hQueue]
    exact hPerm.append_right _

/- A call that changes nothing the accounting reads but `write_errors` keeps it. -/
theorem Keeps.of_frame {lg lg' : SegmentedLogger} (h : Accounts lg) (hQueue : lg'.queue = lg.queue)
    (hBlock : lg'.backpressure = lg.backpressure) (hStop : lg'.shouldStop = lg.shouldStop)
    (hOpen : lg'.fileOpen = lg.fileOpen) (hFile : lg'.file = lg.file)
    (hStats : lg'.stats = { lg.stats with writeErrors := lg'.stats.writeErrors })
    (hClosed : lg'.closedFiles = lg.closedFiles) (hStranded : lg'.strandedFiles = lg.strandedFiles)
    (hRecords : lg'.recordsInFile = lg.recordsInFile) (hEnabled : lg'.enabled = lg.enabled) :
    Keeps lg lg' := by
  have hWritten : lg'.writtenRecords = lg.writtenRecords := by
    simp [writtenRecords, hClosed, hStranded, hFile]
  have hCount : lg'.fileCount = lg.fileCount := by
    simp [fileCount, hClosed, hStranded, hOpen]
  have hCreated : lg'.stats.filesCreated = lg.stats.filesCreated := by rw [hStats]
  refine Keeps.of_files h hQueue hBlock hStop hEnabled (by rw [hStats])
    (hOpen ▸ hFile ▸ h.closed_empty) (hRecords ▸ h.records_lt) (by omega)
    (hWritten ▸ List.Subperm.refl _) fun hI => ⟨?_, hWritten ▸ List.Perm.refl _⟩
  rwa [Intact, hCreated, hCount] at hI

/-
  A file opened at `path`, or the open file renamed onto it: the
  files there are gone, the open file's records now in the files
  `moved` among the renamed ones and in the open file, and
  `files_created` counting what it opens.
-/
theorem Keeps.of_dropPath {lg lg' : SegmentedLogger} (h : Accounts lg) (path : String)
    (moved : List LogFile) (hQueue : lg'.queue = lg.queue)
    (hBlock : lg'.backpressure = lg.backpressure) (hStop : lg'.shouldStop = lg.shouldStop)
    (hEnabled : lg'.enabled = lg.enabled)
    (hStats : lg'.stats = { lg.stats with filesCreated := lg'.stats.filesCreated })
    (hClosedEmpty : lg'.fileOpen = false → lg'.file = []) (hRecords : lg'.recordsInFile < 2 ^ 32)
    (hClosed : lg'.closedFiles = LogFile.dropPath lg.closedFiles path ++ moved)
    (hStranded : lg'.strandedFiles = LogFile.dropPath lg.strandedFiles path)
    (hMoved : moved.flatMap (fun f => Write.records f.writes) ++ Write.records lg'.file =
      Write.records lg.file)
    (hCreated : moved.length + (if lg'.fileOpen then 1 else 0) + lg.stats.filesCreated =
      (if lg.fileOpen then 1 else 0) + lg'.stats.filesCreated) :
    Keeps lg lg' := by
  classical
  have hc := LogFile.dropPath_sublist lg.closedFiles path
  have hs := LogFile.dropPath_sublist lg.strandedFiles path
  have := hc.length_le
  have := hs.length_le
  have hFiles := h.files_created
  have hPerm : lg'.writtenRecords.Perm
      ((LogFile.dropPath lg.closedFiles path ++ LogFile.dropPath lg.strandedFiles path).flatMap
        (fun f => Write.records f.writes) ++ Write.records lg.file) := by
    rw [← hMoved, writtenRecords, hClosed, hStranded]
    refine List.perm_iff_count.mpr fun a => ?_
    simp only [List.flatMap_append, List.count_append]
    omega
  have hLen : lg'.fileCount = (LogFile.dropPath lg.closedFiles path).length + moved.length +
      (LogFile.dropPath lg.strandedFiles path).length + if lg'.fileOpen then 1 else 0 := by
    rw [fileCount, hClosed, hStranded, List.length_append]
  refine Keeps.of_files h hQueue hBlock hStop hEnabled (by rw [hStats]) hClosedEmpty hRecords
    (by rw [hLen]; unfold fileCount at hFiles ⊢; omega)
    (hPerm.subperm.trans ((records_sublist (hc.append hs)).append_right _).subperm) fun hI => ?_
  unfold Intact at hI
  unfold fileCount at hFiles
  obtain ⟨hc', hs'⟩ :=
    @LogFile.dropPath_eq_of_length_le lg.closedFiles lg.strandedFiles path (by omega)
  rw [hc', hs'] at hPerm hLen
  refine ⟨?_, hPerm⟩
  unfold Intact fileCount
  omega

------------------------------------------------------------
-- Producers
------------------------------------------------------------

/-
  Under `Block`, each pass of `record`'s loop pushes once; a
  record is stored or, after three pushes that found every shard
  full, given up with nothing counted.
-/
theorem recordLoop_block (lg : SegmentedLogger) (hq : lg.queue.Valid) {home : Nat}
    (hHome : home < lg.queue.numShards) (log : String) (fuel retryCount : Nat) :
    ∃ b queue, recordLoop .block home log fuel retryCount lg = some (b, { lg with
        queue := queue
        stats := { lg.stats with queueSize := lg.stats.queueSize + if b then 1 else 0 } }) ∧
      queue.Valid ∧ queue.numShards = lg.queue.numShards ∧
      List.Perm queue.view.flatten (lg.queue.view.flatten ++ if b then [log] else []) := by
  induction fuel generalizing retryCount lg with
  | zero => exact ⟨false, lg.queue, rfl, hq, rfl, by simp⟩
  | succ fuel ih =>
    obtain ⟨b, queue, hPush, hq', hN, -, hPerm, hFull⟩ := hq.tryPush_spec hHome log
    by_cases hRetry : retryCount < maxRetries
    · cases b with
      | true =>
        exact ⟨true, queue, by simp [recordLoop, hRetry, hPush], hq', hN, hPerm⟩
      | false =>
        have hSame := (hFull rfl).1
        obtain ⟨b', queue', hLoop, hq'', hN', hPerm'⟩ :=
          ih { lg with queue := queue } hq' (hN.symm ▸ hHome : home < queue.numShards) (retryCount + 1)
        refine ⟨b', queue', by simp [recordLoop, hRetry, hPush, hLoop], hq'', hN'.trans hN, ?_⟩
        simpa [hSame] using hPerm'
    · exact ⟨false, lg.queue, by simp [recordLoop, hRetry], hq, rfl, by simp⟩

/- `record` on a logger that is on: stored, or given up with nothing changed. -/
theorem Accounts.record {lg : SegmentedLogger} (h : Accounts lg) (hEnabled : lg.enabled = true)
    {home : Nat} (hHome : home < lg.queue.numShards) (log : String) :
    ∃ b lg', lg.record home log = some (b, lg') ∧ Accounts lg' ∧
      lg'.queue.numShards = lg.queue.numShards ∧ lg'.enabled = true ∧
      (lg'.Intact ↔ lg.Intact) ∧ List.Perm lg'.held (lg.held ++ if b then [log] else []) := by
  obtain ⟨b, queue, hLoop, hq, hN, hPerm⟩ :=
    recordLoop_block lg h.queue_valid hHome log maxRetries 0
  refine ⟨b, { lg with
      queue := queue
      stats := { lg.stats with queueSize := lg.stats.queueSize + if b then 1 else 0 } }, ?_,
    ⟨hq, h.block, h.running, h.closed_empty, ?_, h.files_created, h.records_written,
      h.records_intact, h.records_dropped, h.contention_events, h.records_lt⟩, hN, hEnabled,
    Iff.rfl, ?_⟩
  · rw [← h.block] at hLoop
    rw [SegmentedLogger.record, if_neg (by simp [hEnabled])]
    exact hLoop
  · rw [hPerm.length_eq, h.queue_size]
    cases b <;> simp
  · simpa [held, List.append_assoc] using hPerm.append_left lg.writtenRecords

------------------------------------------------------------
-- The Worker
------------------------------------------------------------

/-
  The batch loop moves records from the queue to the end of the
  open file, one per pass, counting each.
-/
theorem batchLoop_spec (lg : SegmentedLogger) (hq : lg.queue.Valid)
    (hRecords : lg.recordsInFile < 2 ^ 32) (fuel : Nat) :
    ∃ rs queue, batchLoop fuel lg = { lg with
        queue := queue
        file := lg.file ++ rs.map fun r => .record r (lg.config.fileMode = .text)
        recordsInFile := (lg.recordsInFile + rs.length) % 2 ^ 32
        stats := { lg.stats with
          recordsWritten := lg.stats.recordsWritten + rs.length
          queueSize := lg.stats.queueSize - rs.length } } ∧
      queue.Valid ∧ queue.numShards = lg.queue.numShards ∧ rs.length ≤ fuel ∧
      List.Perm lg.queue.view.flatten (rs ++ queue.view.flatten) := by
  induction fuel generalizing lg with
  | zero =>
    refine ⟨[], lg.queue, ?_, hq, rfl, le_rfl, List.Perm.refl _⟩
    simp only [batchLoop, List.map_nil, List.append_nil, List.length_nil, Nat.add_zero,
      Nat.sub_zero, Nat.mod_eq_of_lt hRecords]
  | succ fuel ih =>
    obtain ⟨hq', hN, -, hSome, hNone⟩ := hq.tryPop_spec
    rcases hPop : lg.queue.tryPop with ⟨_ | r, queue⟩
    · rw [hPop] at hq' hN hNone
      have hSame := hNone rfl
      refine ⟨[], queue, ?_, hq', hN, Nat.zero_le _, by simp [hSame]⟩
      simp only [batchLoop, hPop, List.map_nil, List.append_nil, List.length_nil, Nat.add_zero,
        Nat.sub_zero, Nat.mod_eq_of_lt hRecords]
    · rw [hPop] at hq' hN hSome
      obtain ⟨rs, queue', hLoop, hq'', hN', hLen, hPerm⟩ :=
        ih { lg with
          queue := queue
          file := lg.file ++ [.record r (lg.config.fileMode = .text)]
          recordsInFile := (lg.recordsInFile + 1) % 2 ^ 32
          stats := { lg.stats with
            recordsWritten := lg.stats.recordsWritten + 1,
            queueSize := lg.stats.queueSize - 1 } }
          hq' (Nat.mod_lt _ (Nat.two_pow_pos 32))
      refine ⟨r :: rs, queue', ?_, hq'', hN'.trans hN, by simpa using hLen,
        (hSome r rfl).trans (List.Perm.cons r hPerm)⟩
      have hStep : batchLoop (fuel + 1) lg = batchLoop fuel { lg with
          queue := queue
          file := lg.file ++ [.record r (lg.config.fileMode = .text)]
          recordsInFile := (lg.recordsInFile + 1) % 2 ^ 32
          stats := { lg.stats with
            recordsWritten := lg.stats.recordsWritten + 1,
            queueSize := lg.stats.queueSize - 1 } } := by
        rw [batchLoop, hPop]
      rw [hStep, hLoop]
      simp only [List.map_cons, List.length_cons, List.append_assoc, List.singleton_append,
        Nat.mod_add_mod, Nat.add_assoc, Nat.add_comm 1, Nat.sub_sub]

/- A batch keeps the accounting and only moves records from the queue to the file. -/
theorem keeps_batchLoop {lg : SegmentedLogger} (h : Accounts lg) (hOpen : lg.fileOpen = true)
    (fuel : Nat) : Keeps lg (batchLoop fuel lg) := by
  obtain ⟨rs, queue, hLoop, hq, hN, -, hPerm⟩ := batchLoop_spec lg h.queue_valid h.records_lt fuel
  have hWritten : (batchLoop fuel lg).writtenRecords = lg.writtenRecords ++ rs := by
    simp only [hLoop, writtenRecords, Write.records_append, Write.records_map_record,
      List.append_assoc]
  have hHeld : (batchLoop fuel lg).held.Perm lg.held := by
    rw [held, hWritten, held, hLoop, List.append_assoc]
    exact (hPerm.symm.append_left _)
  have hLen := hPerm.length_eq
  simp only [List.length_append] at hLen
  rw [hLoop] at hWritten hHeld ⊢
  refine ⟨⟨hq, h.block, h.running, fun hClosed => absurd hOpen (by simpa using hClosed),
    ?_, h.files_created, ?_, fun hI => ?_, h.records_dropped, h.contention_events,
    Nat.mod_lt _ (Nat.two_pow_pos 32)⟩, hN, rfl, hHeld.subperm, fun hI => ⟨hI, hHeld⟩⟩
  · simp only [h.queue_size, hLen]
    omega
  · have := h.records_written
    simp only [hWritten, List.length_append]
    omega
  · show lg.stats.recordsWritten + rs.length = _
    rw [hWritten, List.length_append, h.records_intact hI]

/- A failed `open_new_file` only counts the error; a successful one truncates the file at its path. -/
theorem keeps_openNewFile {lg : SegmentedLogger} (h : Accounts lg) (hClosed : lg.fileOpen = false)
    (now : Int) (ok : Bool) : Keeps lg (lg.openNewFile now ok) := by
  cases ok
  · exact Keeps.of_frame h rfl rfl rfl rfl rfl rfl rfl rfl rfl rfl
  · exact Keeps.of_dropPath h _ [] rfl rfl rfl rfl rfl (by simp [openNewFile])
      (Nat.two_pow_pos 32) (List.append_nil _).symm rfl
      (by simp [openNewFile, h.closed_empty hClosed]) (by simp [openNewFile, hClosed, Nat.add_comm])

/-
  `close_current_file`: nothing without an open file; else the
  file, its footer written, is renamed into `close_path`,
  replacing any file at its new path (and the sequence number
  moves on), or, where the rename throws, left stranded.
-/
theorem closeCurrentFile_cases (decompose : Int → TimeComponents) (lg : SegmentedLogger)
    (now : Int) (renameOk : Bool) :
    (lg.fileOpen = false ∧ closeCurrentFile decompose lg now renameOk = lg) ∨
      (lg.fileOpen = true ∧ ∃ f : LogFile, Write.records f.writes = Write.records lg.file ∧
        ((∃ sequenceNumber, closeCurrentFile decompose lg now renameOk = { lg with
            fileOpen := false, file := []
            closedFiles := LogFile.dropPath lg.closedFiles f.path ++ [f]
            strandedFiles := LogFile.dropPath lg.strandedFiles f.path
            sequenceNumber := sequenceNumber }) ∨
          closeCurrentFile decompose lg now renameOk = { lg with
            fileOpen := false, file := [], strandedFiles := lg.strandedFiles ++ [f],
            stats := { lg.stats with writeErrors := lg.stats.writeErrors + 1 } })) := by
  cases hOpen : lg.fileOpen
  · exact .inl ⟨rfl, by simp [closeCurrentFile, hOpen]⟩
  rw [closeCurrentFile, if_neg (by simp [hOpen])]
  cases renameOk
  · exact .inr ⟨rfl, _, by simp, .inr rfl⟩
  · exact .inr ⟨rfl, ⟨_, _⟩, by simp, .inl ⟨_, rfl⟩⟩

theorem keeps_closeCurrentFile (decompose : Int → TimeComponents) {lg : SegmentedLogger}
    (h : Accounts lg) (now : Int) (renameOk : Bool) :
    Keeps lg (closeCurrentFile decompose lg now renameOk) := by
  rcases closeCurrentFile_cases decompose lg now renameOk with
    ⟨-, hEq⟩ | ⟨hOpen, f, hf, ⟨_, hEq⟩ | hEq⟩ <;> rw [hEq]
  · exact Keeps.refl h
  · exact Keeps.of_dropPath h f.path [f] rfl rfl rfl rfl rfl (fun _ => rfl) h.records_lt rfl rfl
      (by simp [hf]) (by simp [hOpen, Nat.add_comm])
  · have hWritten : lg.writtenRecords = ({ lg with
        fileOpen := false, file := [], strandedFiles := lg.strandedFiles ++ [f],
        stats := { lg.stats with writeErrors := lg.stats.writeErrors + 1 } } :
          SegmentedLogger).writtenRecords := by
      simp [writtenRecords, hf]
    refine Keeps.of_files h rfl rfl rfl rfl rfl (fun _ => rfl) h.records_lt
      (by simp [fileCount, hOpen]; omega) (hWritten ▸ List.Subperm.refl _)
      fun hI => ⟨?_, hWritten ▸ List.Perm.refl _⟩
    simp only [Intact, fileCount, hOpen, List.length_append, List.length_singleton] at hI ⊢
    simpa [Nat.add_right_comm] using hI

/-
  `write_batch`: nothing on an empty queue; else, with a file
  opened if none was, nothing more if still none is open, or a
  batch into it.
-/
theorem writeBatch_cases (lg : SegmentedLogger) (openAt : Int) (openOk : Bool) :
    lg.writeBatch openAt openOk = lg ∨
      ((if lg.fileOpen then lg else lg.openNewFile openAt openOk).fileOpen = false ∧
        lg.writeBatch openAt openOk = if lg.fileOpen then lg else lg.openNewFile openAt openOk) ∨
      ((if lg.fileOpen then lg else lg.openNewFile openAt openOk).fileOpen = true ∧
        lg.writeBatch openAt openOk =
          let lg := if lg.fileOpen then lg else lg.openNewFile openAt openOk
          batchLoop (min lg.config.bufferSize (sub32 lg.config.recordsThreshold lg.recordsInFile)) lg) := by
  by_cases hEmpty : lg.queue.empty
  · exact .inl (by simp [writeBatch, hEmpty])
  rw [writeBatch, if_neg hEmpty]
  cases hOpen : (if lg.fileOpen then lg else lg.openNewFile openAt openOk).fileOpen
  · exact .inr (.inl ⟨rfl, by simp only [hOpen, Bool.not_false, ↓reduceIte]⟩)
  · exact .inr (.inr ⟨rfl, by simp only [hOpen, Bool.not_true, Bool.false_eq_true, ↓reduceIte]⟩)

/- The file `write_batch` writes into: the open one, or one opened where none is. -/
theorem keeps_opened {lg : SegmentedLogger} (h : Accounts lg) (openAt : Int) (openOk : Bool) :
    Keeps lg (if lg.fileOpen then lg else lg.openNewFile openAt openOk) := by
  split_ifs with hOpen
  · exact Keeps.refl h
  · exact keeps_openNewFile h (by simpa using hOpen) openAt openOk

theorem keeps_writeBatch {lg : SegmentedLogger} (h : Accounts lg) (openAt : Int) (openOk : Bool) :
    Keeps lg (lg.writeBatch openAt openOk) := by
  have hOpened := keeps_opened h openAt openOk
  rcases writeBatch_cases lg openAt openOk with hEq | ⟨-, hEq⟩ | ⟨hOpen, hEq⟩ <;> rw [hEq]
  · exact Keeps.refl h
  · exact hOpened
  · exact hOpened.trans (keeps_batchLoop hOpened.accounts hOpen _)

/- An iteration of `worker_loop`: a batch, a rotation if one is due, the flush request taken. -/
theorem keeps_workerIteration (decompose : Int → TimeComponents) {lg : SegmentedLogger}
    (h : Accounts lg) (tick : Tick) : Keeps lg (workerIteration decompose lg tick) := by
  unfold workerIteration
  generalize hBatch : lg.writeBatch tick.openAt tick.openOk = lg₁
  have k₁ : Keeps lg lg₁ := hBatch ▸ keeps_writeBatch h tick.openAt tick.openOk
  have k₂ : Keeps lg (if shouldRotateFile decompose lg₁ tick.rotateAt
      then closeCurrentFile decompose lg₁ tick.closeAt tick.renameOk else lg₁) := by
    split_ifs
    · exact k₁.trans (keeps_closeCurrentFile decompose k₁.accounts _ _)
    · exact k₁
  exact k₂.trans (Keeps.of_frame k₂.accounts rfl rfl rfl rfl rfl rfl rfl rfl rfl rfl)

------------------------------------------------------------
-- Runs
------------------------------------------------------------

/- Turning the logger on or off changes nothing it holds. -/
theorem Accounts.setEnabled {lg : SegmentedLogger} (h : Accounts lg) (enabled : Bool) :
    Accounts { lg with enabled := enabled } :=
  ⟨h.queue_valid, h.block, h.running, h.closed_empty, h.queue_size, h.files_created,
    h.records_written, h.records_intact, h.records_dropped, h.contention_events, h.records_lt⟩

/-
  One input but `shutdown`, from a thread whose cached shard is
  one of the queue's: the accounting kept; and on a logger that
  is on and not turned off, the records held are some of what it
  held and the one a `record` reported stored, all of them where
  no file is gone.
-/
theorem Accounts.step (decompose : Int → TimeComponents) {lg : SegmentedLogger}
    (h : Accounts lg) {input : Input}
    (hHome : ∀ home log, input = .record home log → home < lg.queue.numShards)
    (hRunning : input.isShutdown = false) :
    ∃ out lg', step decompose lg input = some (out, lg') ∧ Accounts lg' ∧
      lg'.queue.numShards = lg.queue.numShards ∧
      (lg.enabled = true → (∀ b, input = .setEnabled b → b = true) →
        lg'.enabled = true ∧ lg'.held.Subperm (lg.held ++ accepted [input] [out]) ∧
        (lg'.Intact → lg.Intact ∧ lg'.held.Perm (lg.held ++ accepted [input] [out]))) := by
  have frame : ∀ {lg'}, Keeps lg lg' → Accounts lg' ∧ lg'.queue.numShards = lg.queue.numShards ∧
      (lg.enabled = true → (∀ b, input = .setEnabled b → b = true) →
        lg'.enabled = true ∧ lg'.held.Subperm (lg.held ++ accepted [input] [none]) ∧
        (lg'.Intact → lg.Intact ∧ lg'.held.Perm (lg.held ++ accepted [input] [none]))) :=
    fun k => ⟨k.accounts, k.num_shards, fun hE _ => ⟨k.enabled.trans hE, by simpa using k.held,
      by simpa using k.intact⟩⟩
  unfold SegmentedLogger.step
  rw [if_neg (by simp [h.running])]
  cases input with
  | record home log =>
    cases hEnabled : lg.enabled
    · exact ⟨some true, lg, by simp [SegmentedLogger.record, hEnabled], h,
        rfl, fun hE => absurd hE (by simp)⟩
    obtain ⟨b, lg', hRecord, h', hN, hE, hI, hPerm⟩ := h.record hEnabled (hHome home log rfl) log
    have hHeld : lg'.held.Perm (lg.held ++ accepted [.record home log] [some b]) := by
      cases b <;> simpa [accepted] using hPerm
    exact ⟨some b, lg', by simp [hRecord], h', hN,
      fun _ _ => ⟨hE, hHeld.subperm, fun hI' => ⟨hI.mp hI', hHeld⟩⟩⟩
  | iterate tick => exact ⟨none, _, rfl, frame (keeps_workerIteration decompose h tick)⟩
  | setEnabled b =>
    have hHeld : ({ lg with enabled := b } : SegmentedLogger).held =
        lg.held ++ accepted [.setEnabled b] [none] := by
      simp [held, writtenRecords]
    exact ⟨none, _, rfl, h.setEnabled b, rfl, fun _ hOn => ⟨hOn b rfl,
      hHeld ▸ List.Subperm.refl _, fun hI => ⟨hI, hHeld ▸ List.Perm.refl _⟩⟩⟩
  | flush | setHeader _ | setFooter _ | setBufferSize _ | setRecordsThreshold _ | setTimeThreshold _ =>
    exact ⟨none, _, rfl, frame (Keeps.of_frame h rfl rfl rfl rfl rfl rfl rfl rfl rfl rfl)⟩
  | shutdown => exact absurd hRunning (by simp [Input.isShutdown])

/-
  Every such run keeps the accounting; on a logger that is on
  and never turned off, it holds some of the records it stored,
  and exactly those where no file is gone.
-/
theorem Accounts.run (decompose : Int → TimeComponents) {lg : SegmentedLogger} (h : Accounts lg)
    (inputs : List Input)
    (hHomes : ∀ home log, Input.record home log ∈ inputs → home < lg.queue.numShards)
    (hRunning : ∀ input ∈ inputs, input.isShutdown = false) :
    ∃ outs lg', run decompose lg inputs = some (outs, lg') ∧ Accounts lg' ∧
      lg'.queue.numShards = lg.queue.numShards ∧
      (lg.enabled = true → (∀ b, Input.setEnabled b ∈ inputs → b = true) →
        lg'.held.Subperm (lg.held ++ accepted inputs outs) ∧
        (lg'.Intact → lg.Intact ∧ lg'.held.Perm (lg.held ++ accepted inputs outs))) := by
  induction inputs generalizing lg with
  | nil =>
    refine ⟨[], lg, rfl, h, rfl, fun _ _ => ?_⟩
    simp only [accepted, List.append_nil]
    exact ⟨List.Subperm.refl _, fun hI => ⟨hI, List.Perm.refl _⟩⟩
  | cons input inputs ih =>
    obtain ⟨out, lg₁, hStep, h₁, hN₁, hHeld₁⟩ :=
      h.step decompose (fun home log hIn => hHomes home log (hIn ▸ List.mem_cons_self _ _))
        (hRunning input (List.mem_cons_self _ _))
    obtain ⟨outs, lg', hRun, h', hN', hHeld⟩ :=
      ih h₁ (fun home log hIn => hN₁ ▸ hHomes home log (List.mem_cons_of_mem _ hIn))
        fun i hi => hRunning i (List.mem_cons_of_mem _ hi)
    refine ⟨out :: outs, lg', by simp [SegmentedLogger.run, hStep, hRun], h', hN'.trans hN₁,
      fun hE hOn => ?_⟩
    obtain ⟨hE₁, hSub₁, hIntact₁⟩ := hHeld₁ hE fun b hIn => hOn b (hIn ▸ List.mem_cons_self _ _)
    obtain ⟨hSub, hIntact⟩ := hHeld hE₁ fun b hIn => hOn b (List.mem_cons_of_mem _ hIn)
    rw [accepted_cons, ← List.append_assoc]
    refine ⟨hSub.trans ((List.subperm_append_right _).mpr hSub₁), fun hI => ?_⟩
    obtain ⟨hI₁, hPerm⟩ := hIntact hI
    obtain ⟨hI₀, hPerm₁⟩ := hIntact₁ hI₁
    exact ⟨hI₀, hPerm.trans (hPerm₁.append_right _)⟩

/-
  What every step keeps, every run keeps: a run of allowed
  inputs from a state where `P` holds returns, in a state where
  `P` holds.
-/
theorem run_of_step (decompose : Int → TimeComponents) (P : SegmentedLogger → Prop)
    (allowed : Input → Prop)
    (hStep : ∀ lg input, P lg → allowed input →
      ∃ out lg', step decompose lg input = some (out, lg') ∧ P lg')
    {lg : SegmentedLogger} (hP : P lg) (inputs : List Input)
    (hAllowed : ∀ input ∈ inputs, allowed input) :
    ∃ outs lg', run decompose lg inputs = some (outs, lg') ∧ P lg' := by
  induction inputs generalizing lg with
  | nil => exact ⟨[], lg, rfl, hP⟩
  | cons input inputs ih =>
    obtain ⟨out, lg₁, hStep₁, hP₁⟩ := hStep lg input hP (hAllowed input (List.mem_cons_self _ _))
    obtain ⟨outs, lg', hRun, hP'⟩ := ih hP₁ fun i hi => hAllowed i (List.mem_cons_of_mem _ hi)
    exact ⟨out :: outs, lg', by simp [SegmentedLogger.run, hStep₁, hRun], hP'⟩

/- A logger just built, with at least one cell per shard, keeps the accounting and holds nothing. -/
theorem Accounts.create {node : ConfigNode} {recovered : Nat} {lg : SegmentedLogger}
    (hCreate : create node recovered = some lg) (hCells : 0 < 50000 / node.numShards.getD 4) :
    Accounts lg ∧ lg.held = [] ∧ lg.Intact ∧ lg.enabled = node.enabled ∧
      lg.queue.numShards = node.numShards.getD 4 := by
  obtain ⟨queue, hMake, rfl⟩ := Option.map_eq_some'.mp hCreate
  obtain ⟨hq, hView, hN, -⟩ := MPSCQueue.make_valid hMake hCells
  have hEmpty : queue.view.flatten = [] := by simp [hView]
  exact ⟨⟨hq, rfl, rfl, fun _ => rfl, by simp [hEmpty], by simp [fileCount],
    by simp [writtenRecords], fun _ => by simp [writtenRecords], rfl, rfl, Nat.two_pow_pos 32⟩,
    by simp [held, writtenRecords, hEmpty], by simp [Intact, fileCount], rfl, hN⟩

/-
  A logger built from a config node that turns it on, with at
  least one queue cell per shard, over every run of calls made
  one at a time before `shutdown`: records from threads whose
  cached shard is one of the queue's, worker iterations, flushes,
  header and footer updates and config updates that never turn
  it off.  The files (renamed, stranded, or open) and the queue
  hold records `record` reported stored, each at most once;
  while `files_created` counts the files on disk (no open or
  rename replaced one), they hold every such record and
  `records_written` counts those in files.  `queue_size` counts
  the queue, and `records_dropped` and `contention_events` stay 0.
-/
theorem logger_keeps_every_record (decompose : Int → TimeComponents) {node : ConfigNode}
    {recovered : Nat} {lg : SegmentedLogger} (hCreate : create node recovered = some lg)
    (hEnabled : node.enabled = true) (hCells : 0 < 50000 / node.numShards.getD 4)
    (inputs : List Input)
    (hHomes : ∀ home log, Input.record home log ∈ inputs → home < node.numShards.getD 4)
    (hOn : ∀ b, Input.setEnabled b ∈ inputs → b = true)
    (hRunning : ∀ input ∈ inputs, input.isShutdown = false) :
    ∃ outs lg', run decompose lg inputs = some (outs, lg') ∧
      List.Subperm (lg'.writtenRecords ++ lg'.queue.view.flatten) (accepted inputs outs) ∧
      lg'.writtenRecords.length ≤ lg'.stats.recordsWritten ∧
      (lg'.stats.filesCreated = lg'.fileCount →
        List.Perm (lg'.writtenRecords ++ lg'.queue.view.flatten) (accepted inputs outs) ∧
        lg'.stats.recordsWritten = lg'.writtenRecords.length) ∧
      lg'.stats.queueSize = lg'.queue.view.flatten.length ∧
      lg'.stats.recordsDropped = 0 ∧ lg'.stats.contentionEvents = 0 := by
  obtain ⟨h, hHeld, -, hOn₀, hN⟩ := Accounts.create hCreate hCells
  obtain ⟨outs, lg', hRun, h', -, hHeld'⟩ :=
    h.run decompose inputs (by rw [hN]; exact hHomes) hRunning
  obtain ⟨hSub, hIntact⟩ := hHeld' (hOn₀.trans hEnabled) hOn
  rw [hHeld, List.nil_append] at hSub hIntact
  exact ⟨outs, lg', hRun, hSub, h'.records_written,
    fun hI => ⟨(hIntact hI).2, h'.records_intact hI⟩, h'.queue_size, h'.records_dropped,
    h'.contention_events⟩

/- The node of a text logger on four shards, as a config file gives it. -/
def fourShardNode : ConfigNode :=
  ⟨true, 10000, 100000, 3600, "app_%Y%M%d_%n.log", "logs/tmp", "logs", "text", some 4⟩

theorem four_shard_logger_keeps_its_records :
    ∃ lg, create fourShardNode 0 = some lg ∧
      ∃ outs lg', run (fun _ => ⟨2025, 25, 1, 1, 0, 0, 0, 0⟩) lg
          [.record 0 "a", .iterate ⟨0, true, 0, 0, true⟩, .record 3 "b"] = some (outs, lg') ∧
        List.Subperm (lg'.writtenRecords ++ lg'.queue.view.flatten)
          (accepted [.record 0 "a", .iterate ⟨0, true, 0, 0, true⟩, .record 3 "b"] outs) ∧
        lg'.writtenRecords.length ≤ lg'.stats.recordsWritten ∧
        (lg'.stats.filesCreated = lg'.fileCount →
          List.Perm (lg'.writtenRecords ++ lg'.queue.view.flatten)
            (accepted [.record 0 "a", .iterate ⟨0, true, 0, 0, true⟩, .record 3 "b"] outs) ∧
          lg'.stats.recordsWritten = lg'.writtenRecords.length) ∧
        lg'.stats.queueSize = lg'.queue.view.flatten.length ∧
        lg'.stats.recordsDropped = 0 ∧ lg'.stats.contentionEvents = 0 :=
  ⟨_, rfl, @logger_keeps_every_record _ fourShardNode 0 _ rfl rfl (by decide) _
    (fun home log h => by simp at h; simp only [fourShardNode, Option.getD_some]; omega)
    (fun b h => by simp at h) (by simp [Input.isShutdown])⟩

end SegmentedLogger

end SegmentedLogging

end Vex
