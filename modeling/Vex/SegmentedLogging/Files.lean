import Vex.SegmentedLogging.Accounting

/-
  How many records a file of the segmented logger holds, and what
  `shutdown` does with the records still queued.

  `write_batch` writes at most `records_threshold -
  records_in_file_` records into the open file, and the worker
  closes the file once `records_in_file_` reaches the threshold.
  So while `records_threshold` is left alone, no file, renamed,
  stranded or open, holds more records than the threshold, up to
  `shutdown`.  `shutdown` drains the queue into the file with no
  such bound: each record it pops is written when a file is open
  or the open it tries succeeds, and lost when that open fails;
  it counts none of them, and the closed file holds the open
  file's records and all those written.

  Key definitions include:
    * `SegmentedLogger.Bounded`, `SegmentedLogger.Drained`

  Key theorems include:
    * `bounded_batchLoop`, `Bounded.step`
    * `drainLoop_spec`, `closeCurrentFile_spec`
    * `files_never_exceed_records_threshold`,
      `shutdown_drains_the_queue`
-/

------------------------------------------------------------
-- The Records Threshold
------------------------------------------------------------

namespace Vex

namespace SegmentedLogging

namespace SegmentedLogger

/- `uint32_t` subtraction that does not wrap. -/
theorem sub32_of_le {a b : Nat} (h : b ≤ a) (ha : a < 2 ^ 32) : sub32 a b = a - b := by
  unfold sub32
  rw [show a + 2 ^ 32 - b = a - b + 2 ^ 32 by omega, Nat.add_mod_right, Nat.mod_eq_of_lt (by omega)]

/-
  Every file holds at most `threshold` records, the config's
  `records_threshold` and a `uint32_t`; `records_in_file_`
  counts the records of the open file.
-/
structure Bounded (threshold : Nat) (lg : SegmentedLogger) : Prop where
  config : lg.config.recordsThreshold = threshold
  threshold_lt : threshold < 2 ^ 32
  counted : lg.fileOpen = true → lg.recordsInFile = (Write.records lg.file).length
  file_le : (Write.records lg.file).length ≤ threshold
  files_le : ∀ f ∈ lg.closedFiles ++ lg.strandedFiles, (Write.records f.writes).length ≤ threshold

section Threshold

variable {threshold : Nat}

theorem bounded_opened {lg : SegmentedLogger} (hb : Bounded threshold lg) (openAt : Int)
    (openOk : Bool) : Bounded threshold (if lg.fileOpen then lg else lg.openNewFile openAt openOk) := by
  split_ifs
  · exact hb
  · cases openOk
    · exact ⟨hb.config, hb.threshold_lt, hb.counted, hb.file_le, hb.files_le⟩
    · refine ⟨hb.config, hb.threshold_lt, fun _ => by simp [openNewFile], by simp [openNewFile],
        fun f hf => hb.files_le f ?_⟩
      simp only [openNewFile, Bool.not_true, Bool.false_eq_true, ↓reduceIte, List.mem_append,
        LogFile.mem_dropPath] at hf ⊢
      exact hf.imp And.left And.left

/- A batch of at most the room left in the open file fills it at most to the threshold. -/
theorem bounded_batchLoop {lg : SegmentedLogger} (h : Accounts lg) (hb : Bounded threshold lg)
    (hOpen : lg.fileOpen = true) (fuel : Nat) (hFuel : fuel ≤ threshold - lg.recordsInFile) :
    Bounded threshold (batchLoop fuel lg) := by
  obtain ⟨rs, queue, hLoop, -, -, hLen, -⟩ := batchLoop_spec lg h.queue_valid h.records_lt fuel
  have hCount := hb.counted hOpen
  have hRoom : (Write.records lg.file).length + rs.length ≤ threshold := by
    have := hb.file_le
    omega
  have hLt : lg.recordsInFile + rs.length < 2 ^ 32 := by
    have := hb.threshold_lt
    omega
  rw [hLoop]
  refine ⟨hb.config, hb.threshold_lt, fun _ => ?_, ?_, hb.files_le⟩
  · simp only [Write.records_append, Write.records_map_record, List.length_append,
      Nat.mod_eq_of_lt hLt]
    rw [hCount]
  · simpa only [Write.records_append, Write.records_map_record, List.length_append] using hRoom

theorem bounded_writeBatch {lg : SegmentedLogger} (h : Accounts lg) (hb : Bounded threshold lg)
    (openAt : Int) (openOk : Bool) : Bounded threshold (lg.writeBatch openAt openOk) := by
  rcases writeBatch_cases lg openAt openOk with hEq | ⟨-, hEq⟩ | ⟨hOpen, hEq⟩ <;> rw [hEq]
  · exact hb
  · exact bounded_opened hb openAt openOk
  · have k := keeps_opened h openAt openOk
    have hb₁ := bounded_opened hb openAt openOk
    generalize (if lg.fileOpen then lg else lg.openNewFile openAt openOk) = lg₁ at k hb₁ hOpen ⊢
    have hRecords : lg₁.recordsInFile ≤ threshold := by
      rw [hb₁.counted hOpen]
      exact hb₁.file_le
    refine bounded_batchLoop k.accounts hb₁ hOpen _ ?_
    rw [hb₁.config, sub32_of_le hRecords hb₁.threshold_lt]
    exact Nat.min_le_right _ _

/- Closing moves the file, with the records it holds, among the renamed or stranded ones. -/
theorem bounded_closeCurrentFile (decompose : Int → TimeComponents) {lg : SegmentedLogger}
    (hb : Bounded threshold lg) (now : Int) (renameOk : Bool) :
    Bounded threshold (closeCurrentFile decompose lg now renameOk) := by
  have hFiles := hb.files_le
  simp only [List.mem_append, or_imp, forall_and] at hFiles
  rcases closeCurrentFile_cases decompose lg now renameOk with
    ⟨-, hEq⟩ | ⟨-, f, hf, ⟨_, hEq⟩ | hEq⟩ <;> rw [hEq]
  · exact hb
  all_goals
    refine ⟨hb.config, hb.threshold_lt, fun h => absurd h (by simp), by simp, ?_⟩
    simp only [List.mem_append, List.mem_singleton, LogFile.mem_dropPath, or_imp, forall_and,
      forall_eq, and_imp]
  · exact ⟨⟨fun f' h _ => hFiles.1 f' h, hf ▸ hb.file_le⟩, fun f' h _ => hFiles.2 f' h⟩
  · exact ⟨hFiles.1, hFiles.2, hf ▸ hb.file_le⟩

theorem bounded_workerIteration (decompose : Int → TimeComponents) {lg : SegmentedLogger}
    (h : Accounts lg) (hb : Bounded threshold lg) (tick : Tick) :
    Bounded threshold (workerIteration decompose lg tick) := by
  unfold workerIteration
  generalize hBatch : lg.writeBatch tick.openAt tick.openOk = lg₁
  have hb₁ : Bounded threshold lg₁ := hBatch ▸ bounded_writeBatch h hb tick.openAt tick.openOk
  have hb₂ : Bounded threshold (if shouldRotateFile decompose lg₁ tick.rotateAt
      then closeCurrentFile decompose lg₁ tick.closeAt tick.renameOk else lg₁) := by
    split_ifs
    · exact bounded_closeCurrentFile decompose hb₁ _ _
    · exact hb₁
  exact ⟨hb₂.config, hb₂.threshold_lt, hb₂.counted, hb₂.file_le, hb₂.files_le⟩

/-
  Every input but a new `records_threshold` or `shutdown`, from
  a thread whose cached shard is one of the queue's, keeps every
  file within the threshold.
-/
theorem Bounded.step (decompose : Int → TimeComponents) {lg lg' : SegmentedLogger}
    {input : Input} {out : Option Bool} (h : Accounts lg) (hb : Bounded threshold lg)
    (hHome : ∀ home log, input = .record home log → home < lg.queue.numShards)
    (hKeep : ∀ n, input ≠ .setRecordsThreshold n) (hRunning : input.isShutdown = false)
    (hStep : step decompose lg input = some (out, lg')) : Bounded threshold lg' := by
  unfold SegmentedLogger.step at hStep
  rw [if_neg (by simp [h.running])] at hStep
  cases input with
  | record home log =>
    cases hEnabled : lg.enabled
    · simp only [SegmentedLogger.record, hEnabled, Bool.not_false, ↓reduceIte, Option.map_some',
        Option.some.injEq, Prod.mk.injEq] at hStep
      obtain ⟨-, rfl⟩ := hStep
      exact hb
    obtain ⟨b, queue, hLoop, -⟩ := recordLoop_block lg h.queue_valid (hHome home log rfl) log maxRetries 0
    rw [← h.block] at hLoop
    simp only [SegmentedLogger.record, hEnabled, Bool.not_true, Bool.false_eq_true, ↓reduceIte,
      hLoop, Option.map_some', Option.some.injEq, Prod.mk.injEq] at hStep
    obtain ⟨-, rfl⟩ := hStep
    exact ⟨hb.config, hb.threshold_lt, hb.counted, hb.file_le, hb.files_le⟩
  | iterate tick =>
    simp only [Option.some.injEq, Prod.mk.injEq] at hStep
    obtain ⟨-, rfl⟩ := hStep
    exact bounded_workerIteration decompose h hb tick
  | setRecordsThreshold n => exact absurd rfl (hKeep n)
  | flush | setHeader _ | setFooter _ | setEnabled _ | setBufferSize _ | setTimeThreshold _ =>
    simp only [Option.some.injEq, Prod.mk.injEq] at hStep
    obtain ⟨-, rfl⟩ := hStep
    exact ⟨hb.config, hb.threshold_lt, hb.counted, hb.file_le, hb.files_le⟩
  | shutdown => exact absurd hRunning (by simp [Input.isShutdown])

/- A logger just built has no file yet. -/
theorem bounded_create {node : ConfigNode} {recovered : Nat} {lg : SegmentedLogger}
    (hCreate : create node recovered = some lg) (hThreshold : node.recordsThreshold < 2 ^ 32) :
    Bounded node.recordsThreshold lg := by
  obtain ⟨queue, -, rfl⟩ := Option.map_eq_some'.mp hCreate
  exact ⟨rfl, hThreshold, fun h => absurd h (by simp), by simp, by simp⟩

end Threshold

------------------------------------------------------------
-- Shutdown
------------------------------------------------------------

/-
  What the drain did from `lg` to `lg'`, counting its opens from
  `attempt`: the queue emptied, its records `lost` while no file
  was open (each open tried meanwhile failing), then `written`
  into the open file, the first of them just after an open that
  succeeded; nothing counted.
-/
structure Drained (opens : Nat → Int × Bool) (attempt : Nat) (lg lg' : SegmentedLogger)
    (lost written : List String) : Prop where
  emptied : lg'.queue.view.flatten = []
  popped : lg.queue.view.flatten.Perm (lost ++ written)
  records_written : lg'.stats.recordsWritten = lg.stats.recordsWritten
  queue_size : lg'.stats.queueSize = lg.stats.queueSize
  open_lost : lg.fileOpen = true → lost = []
  failed : ∀ i < lost.length, (opens (attempt + i)).2 = false
  opened : lg.fileOpen = false → written ≠ [] → (opens (attempt + lost.length)).2 = true
  file_open : lg'.fileOpen = true ↔ lg.fileOpen = true ∨ written ≠ []
  file : lg'.fileOpen = true → Write.records lg'.file = Write.records lg.file ++ written

/-
  A record popped while a file is open, or just after one opened,
  is written: the drain from there, with nothing lost, is the
  drain from before with that record first.
-/
theorem Drained.cons_written {opens : Nat → Int × Bool} {attempt attempt' : Nat}
    {lg lg₁ lg' : SegmentedLogger} {written : List String} {r : String}
    (hD : Drained opens attempt' lg₁ lg' [] written)
    (hPerm : lg.queue.view.flatten.Perm (r :: lg₁.queue.view.flatten))
    (hRecordsWritten : lg₁.stats.recordsWritten = lg.stats.recordsWritten)
    (hQueueSize : lg₁.stats.queueSize = lg.stats.queueSize) (hOpen₁ : lg₁.fileOpen = true)
    (hOpened : lg.fileOpen = false → (opens attempt).2 = true)
    (hFile : Write.records lg₁.file = Write.records lg.file ++ [r]) :
    Drained opens attempt lg lg' [] (r :: written) := by
  refine ⟨hD.emptied, hPerm.trans (hD.popped.cons r), hD.records_written.trans hRecordsWritten,
    hD.queue_size.trans hQueueSize, fun _ => rfl, fun i hi => absurd hi (Nat.not_lt_zero _),
    fun h _ => hOpened h, ⟨fun _ => .inr (List.cons_ne_nil _ _), fun _ => hD.file_open.mpr (.inl hOpen₁)⟩,
    fun h => ?_⟩
  rw [hD.file h, hFile, List.append_assoc, List.singleton_append]

/- What `open_new_file` does to `file_open_`. -/
@[simp]
theorem openNewFile_fileOpen (lg : SegmentedLogger) (now : Int) (ok : Bool) :
    (lg.openNewFile now ok).fileOpen = (lg.fileOpen || ok) := by
  cases ok <;> simp [openNewFile]

/-
  One pass of the drain that pops `r` where no file is open: the
  `attempt`-th open, and `r` written into the file if it opened.
-/
theorem drainLoop_pop_closed (opens : Nat → Int × Bool) (fuel attempt : Nat) {lg : SegmentedLogger}
    {r : String} {queue : MPSCQueue String} (hPop : lg.queue.tryPop = (some r, queue))
    (hOpen : lg.fileOpen = false) :
    drainLoop opens (fuel + 1) attempt lg =
      if (opens attempt).2 then
        drainLoop opens fuel (attempt + 1)
          { { lg with queue := queue }.openNewFile (opens attempt).1 true with
            file := ({ lg with queue := queue }.openNewFile (opens attempt).1 true).file ++
              [.record r (lg.config.fileMode = .text)] }
      else drainLoop opens fuel (attempt + 1) ({ lg with queue := queue }.openNewFile (opens attempt).1 false) := by
  cases hOk : (opens attempt).2 <;>
    simp only [drainLoop, hPop, hOpen, hOk, openNewFile_fileOpen, Bool.false_or, Bool.false_eq_true,
      ↓reduceIte]
  rfl

/- One pass of the drain that pops `r` while a file is open: `r` written into it. -/
theorem drainLoop_pop_open (opens : Nat → Int × Bool) (fuel attempt : Nat) {lg : SegmentedLogger}
    {r : String} {queue : MPSCQueue String} (hPop : lg.queue.tryPop = (some r, queue))
    (hOpen : lg.fileOpen = true) :
    drainLoop opens (fuel + 1) attempt lg = drainLoop opens fuel attempt
      { lg with queue := queue, file := lg.file ++ [.record r (lg.config.fileMode = .text)] } := by
  simp only [drainLoop, hPop, hOpen, ↓reduceIte]

/-
  The drain loop, with a pass to spare, empties the queue: each
  record it pops is written when a file is open or the open it
  tries succeeds, and lost while opens fail.
-/
theorem drainLoop_spec (opens : Nat → Int × Bool) (lg : SegmentedLogger) (hq : lg.queue.Valid)
    (hDvd : lg.queue.numShards ∣ 2 ^ 64) (hFile : lg.fileOpen = false → lg.file = [])
    (fuel attempt : Nat) (hFuel : lg.queue.view.flatten.length < fuel) :
    ∃ lost written, Drained opens attempt lg (drainLoop opens fuel attempt lg) lost written := by
  induction fuel generalizing lg attempt with
  | zero => exact absurd hFuel (Nat.not_lt_zero _)
  | succ fuel ih =>
    obtain ⟨hq', hN, -, hSome, hNone⟩ := hq.tryPop_spec
    rcases hPop : lg.queue.tryPop with ⟨_ | r, queue⟩
    · -- an empty queue: nothing popped
      have hEmpty := hq.tryPop_none hDvd (by rw [hPop])
      rw [hPop] at hNone
      have hSame : queue.view = lg.queue.view := hNone rfl
      simp only [drainLoop, hPop]
      exact ⟨[], [], ⟨by rw [hSame, hEmpty], by simp [hEmpty], rfl, rfl, fun _ => rfl,
        fun i hi => absurd hi (Nat.not_lt_zero _), fun _ h => absurd rfl h, by simp, by simp⟩⟩
    rw [hPop] at hq' hN hSome
    have hPerm : lg.queue.view.flatten.Perm (r :: queue.view.flatten) := hSome r rfl
    have hDvd' : queue.numShards ∣ 2 ^ 64 := hN.symm ▸ hDvd
    have hFuel' : queue.view.flatten.length < fuel := by
      have := hPerm.length_eq
      simp only [List.length_cons] at this
      omega
    cases hOpen : lg.fileOpen
    · rw [drainLoop_pop_closed opens fuel attempt hPop hOpen]
      cases hOk : (opens attempt).2
      · -- the open fails: the record is lost
        obtain ⟨lost, written, hD⟩ := ih ({ lg with queue := queue }.openNewFile (opens attempt).1 false)
          hq' hDvd' (fun _ => hFile hOpen) (attempt + 1) hFuel'
        refine ⟨r :: lost, written, ⟨hD.emptied, hPerm.trans (hD.popped.cons r),
          hD.records_written, hD.queue_size, fun h => by simp [hOpen] at h, fun i hi => ?_,
          fun _ hW => ?_, by simpa [hOpen] using hD.file_open, hD.file⟩⟩
        · cases i with
          | zero => exact hOk
          | succ i =>
            rw [show attempt + (i + 1) = attempt + 1 + i by omega]
            exact hD.failed i (by simpa using hi)
        · rw [List.length_cons, show attempt + (lost.length + 1) = attempt + 1 + lost.length by omega]
          exact hD.opened hOpen hW
      · -- the open succeeds: the record is written
        obtain ⟨lost, written, hD⟩ := ih { { lg with queue := queue }.openNewFile (opens attempt).1 true with
            file := ({ lg with queue := queue }.openNewFile (opens attempt).1 true).file ++
              [.record r (lg.config.fileMode = .text)] }
          hq' hDvd' (fun h => absurd h (by simp)) (attempt + 1) hFuel'
        obtain rfl := hD.open_lost (by simp)
        exact ⟨[], r :: written, hD.cons_written hPerm rfl rfl (by simp) (fun _ => hOk)
          (by simp [openNewFile, hFile hOpen])⟩
    · -- a file is open: the record is written
      rw [drainLoop_pop_open opens fuel attempt hPop hOpen]
      obtain ⟨lost, written, hD⟩ := ih { lg with
          queue := queue, file := lg.file ++ [.record r (lg.config.fileMode = .text)] }
        hq' hDvd' (fun h => absurd h (by simp [hOpen])) attempt hFuel'
      obtain rfl := hD.open_lost hOpen
      exact ⟨[], r :: written, hD.cons_written hPerm rfl rfl hOpen (fun h => absurd h (by simp [hOpen]))
        (by simp)⟩

/-
  `close_current_file` leaves the queue and the counters of
  records alone and no file open; an open file is among the
  renamed or stranded ones after it, with its records.
-/
theorem closeCurrentFile_spec (decompose : Int → TimeComponents) (lg : SegmentedLogger) (now : Int)
    (renameOk : Bool) :
    (closeCurrentFile decompose lg now renameOk).queue = lg.queue ∧
      (closeCurrentFile decompose lg now renameOk).fileOpen = false ∧
      (closeCurrentFile decompose lg now renameOk).stats.recordsWritten = lg.stats.recordsWritten ∧
      (closeCurrentFile decompose lg now renameOk).stats.queueSize = lg.stats.queueSize ∧
      (lg.fileOpen = true → ∃ f ∈ (closeCurrentFile decompose lg now renameOk).closedFiles ++
          (closeCurrentFile decompose lg now renameOk).strandedFiles,
        Write.records f.writes = Write.records lg.file) := by
  rcases closeCurrentFile_cases decompose lg now renameOk with
    ⟨hOff, hEq⟩ | ⟨-, f, hf, ⟨_, hEq⟩ | hEq⟩ <;> rw [hEq]
  · exact ⟨rfl, hOff, rfl, rfl, fun h => absurd (hOff.symm.trans h) (by simp)⟩
  · exact ⟨rfl, rfl, rfl, rfl, fun _ => ⟨f, by simp, hf⟩⟩
  · exact ⟨rfl, rfl, rfl, rfl, fun _ => ⟨f, by simp, hf⟩⟩

/-
  A logger built with at least one queue cell per shard and a
  `records_threshold` that fits its `uint32_t`, over every run of
  calls made one at a time before `shutdown`: records from
  threads whose cached shard is one of the queue's, worker
  iterations, flushes and config updates that leave
  `records_threshold` alone.  No file, renamed, stranded or open,
  holds more records than the threshold.  Then, with a file open
  and a shard count dividing `2 ^ 64`, the `shutdown` the
  destructor runs leaves a file holding the open file's records
  and every queued one, whatever the threshold.
-/
theorem files_never_exceed_records_threshold (decompose : Int → TimeComponents)
    {node : ConfigNode} {recovered : Nat} {lg : SegmentedLogger}
    (hCreate : create node recovered = some lg) (hCells : 0 < 50000 / node.numShards.getD 4)
    (hThreshold : node.recordsThreshold < 2 ^ 32) (inputs : List Input)
    (hHomes : ∀ home log, Input.record home log ∈ inputs → home < node.numShards.getD 4)
    (hKeep : ∀ n, Input.setRecordsThreshold n ∉ inputs)
    (hRunning : ∀ input ∈ inputs, input.isShutdown = false) :
    ∃ outs lg', run decompose lg inputs = some (outs, lg') ∧
      (∀ f ∈ lg'.closedFiles ++ lg'.strandedFiles,
        (Write.records f.writes).length ≤ node.recordsThreshold) ∧
      (Write.records lg'.file).length ≤ node.recordsThreshold ∧
      (node.numShards.getD 4 ∣ 2 ^ 64 → lg'.fileOpen = true →
        ∀ opens closeAt renameOk, ∃ lg'',
          step decompose lg' (.shutdown opens closeAt renameOk) = some (none, lg'') ∧
          ∃ f ∈ lg''.closedFiles ++ lg''.strandedFiles, (Write.records f.writes).length =
            (Write.records lg'.file).length + lg'.queue.view.flatten.length) := by
  obtain ⟨h, -, -, -, hN⟩ := Accounts.create hCreate hCells
  obtain ⟨outs, lg', hRun, h', hb, hN'⟩ := run_of_step decompose
    (fun lg => Accounts lg ∧ Bounded node.recordsThreshold lg ∧
      lg.queue.numShards = node.numShards.getD 4)
    (fun input => (∀ home log, input = .record home log → home < node.numShards.getD 4) ∧
      (∀ n, input ≠ .setRecordsThreshold n) ∧ input.isShutdown = false)
    (fun lg input ⟨h, hb, hN⟩ ⟨hHome, hNot, hRunning⟩ => by
      have hHome' : ∀ home log, input = .record home log → home < lg.queue.numShards :=
        fun home log hI => hN ▸ hHome home log hI
      obtain ⟨out, lg', hStep, h', hN', -⟩ := h.step decompose hHome' hRunning
      exact ⟨out, lg', hStep, h', hb.step decompose h hHome' hNot hRunning hStep, hN'.trans hN⟩)
    ⟨h, bounded_create hCreate hThreshold, hN⟩ inputs
    (fun input hIn => ⟨fun home log hI => hHomes home log (hI ▸ hIn),
      fun n hI => hKeep n (hI ▸ hIn), hRunning input hIn⟩)
  refine ⟨outs, lg', hRun, hb.files_le, hb.file_le, fun hDvd hOpen opens closeAt renameOk => ?_⟩
  refine ⟨_, by unfold SegmentedLogger.step; rw [if_neg (by simp [h'.running])], ?_⟩
  obtain ⟨lost, written, hD⟩ := drainLoop_spec opens { lg' with shouldStop := true } h'.queue_valid
    (hN'.symm ▸ hDvd) h'.closed_empty (lg'.queue.size + 1) 0
    (by rw [MPSCQueue.size_eq_view]; exact Nat.lt_succ_self _)
  obtain rfl := hD.open_lost hOpen
  have hOpen₁ := hD.file_open.mpr (.inl hOpen)
  obtain ⟨-, -, -, -, hKept⟩ := closeCurrentFile_spec decompose
    (drainLoop opens (lg'.queue.size + 1) 0 { lg' with shouldStop := true }) closeAt renameOk
  obtain ⟨f, hf, hRecords⟩ := hKept hOpen₁
  refine ⟨f, hf, ?_⟩
  rw [hRecords, hD.file hOpen₁, List.length_append, hD.popped.length_eq, List.nil_append]

theorem four_shard_files_stay_within_threshold :
    ∃ lg, create fourShardNode 0 = some lg ∧
      ∃ outs lg', run (fun _ => ⟨2025, 25, 1, 1, 0, 0, 0, 0⟩) lg
          [.record 0 "a", .iterate ⟨0, true, 0, 0, true⟩, .setBufferSize 1] = some (outs, lg') ∧
        (∀ f ∈ lg'.closedFiles ++ lg'.strandedFiles,
          (Write.records f.writes).length ≤ fourShardNode.recordsThreshold) ∧
        (Write.records lg'.file).length ≤ fourShardNode.recordsThreshold ∧
        (fourShardNode.numShards.getD 4 ∣ 2 ^ 64 → lg'.fileOpen = true →
          ∀ opens closeAt renameOk, ∃ lg'',
            step (fun _ => ⟨2025, 25, 1, 1, 0, 0, 0, 0⟩) lg' (.shutdown opens closeAt renameOk) =
              some (none, lg'') ∧
            ∃ f ∈ lg''.closedFiles ++ lg''.strandedFiles, (Write.records f.writes).length =
              (Write.records lg'.file).length + lg'.queue.view.flatten.length) :=
  ⟨_, rfl, @files_never_exceed_records_threshold _ fourShardNode 0 _ rfl (by decide) (by decide) _
    (fun home log h => by simp at h; simp only [fourShardNode, Option.getD_some]; omega)
    (fun n h => by simp at h) (by simp [Input.isShutdown])⟩

/-
  `shutdown` on a logger whose queue is valid, with a shard count
  dividing `2 ^ 64`, and whose closed file holds nothing: the
  queue ends empty and no file open, and `records_written` and
  `queue_size` keep their values, so nothing the drain writes is
  counted.  The queued records split into those `lost` and those
  `written`: none is lost when a file was open; otherwise the
  first opens, one per record popped, fail for the lost ones, and
  the next succeeds before the first written one.  Once any is
  written, or a file was open, a renamed or stranded file holds
  the open file's records and then the written ones.
-/
theorem shutdown_drains_the_queue (decompose : Int → TimeComponents) {lg lg' : SegmentedLogger}
    (hq : lg.queue.Valid) (hDvd : lg.queue.numShards ∣ 2 ^ 64)
    (hFile : lg.fileOpen = false → lg.file = []) {opens : Nat → Int × Bool} {closeAt : Int}
    {renameOk : Bool} (hShutdown : shutdown decompose lg opens closeAt renameOk = lg') :
    lg'.queue.view.flatten = [] ∧ lg'.fileOpen = false ∧
      lg'.stats.recordsWritten = lg.stats.recordsWritten ∧
      lg'.stats.queueSize = lg.stats.queueSize ∧
      ∃ lost written, lg.queue.view.flatten.Perm (lost ++ written) ∧
        (lg.fileOpen = true → lost = []) ∧
        (∀ i < lost.length, (opens i).2 = false) ∧
        (lg.fileOpen = false → written ≠ [] → (opens lost.length).2 = true) ∧
        (lg.fileOpen = true ∨ written ≠ [] →
          ∃ f ∈ lg'.closedFiles ++ lg'.strandedFiles,
            Write.records f.writes = Write.records lg.file ++ written) := by
  subst hShutdown
  obtain ⟨lost, written, hD⟩ := drainLoop_spec opens { lg with shouldStop := true } hq hDvd hFile
    (lg.queue.size + 1) 0 (by rw [MPSCQueue.size_eq_view]; exact Nat.lt_succ_self _)
  obtain ⟨hQueue, hClosed, hRecordsWritten, hQueueSize, hKept⟩ := closeCurrentFile_spec decompose
    (drainLoop opens (lg.queue.size + 1) 0 { lg with shouldStop := true }) closeAt renameOk
  refine ⟨by rw [shutdown, hQueue]; exact hD.emptied, hClosed, hRecordsWritten.trans hD.records_written,
    hQueueSize.trans hD.queue_size, lost, written, hD.popped, hD.open_lost,
    fun i hi => by simpa using hD.failed i hi, fun h hW => by simpa using hD.opened h hW,
    fun hW => ?_⟩
  obtain ⟨f, hf, hRecords⟩ := hKept (hD.file_open.mpr hW)
  exact ⟨f, hf, hRecords.trans (hD.file (hD.file_open.mpr hW))⟩

theorem four_shard_shutdown_drains_the_queue :
    ∃ lg, create fourShardNode 0 = some lg ∧
      (shutdown (fun _ => ⟨2025, 25, 1, 1, 0, 0, 0, 0⟩) lg (fun _ => (0, true)) 0 true).queue.view.flatten = [] ∧
      (shutdown (fun _ => ⟨2025, 25, 1, 1, 0, 0, 0, 0⟩) lg (fun _ => (0, true)) 0 true).fileOpen = false ∧
      (shutdown (fun _ => ⟨2025, 25, 1, 1, 0, 0, 0, 0⟩) lg (fun _ => (0, true)) 0 true).stats.recordsWritten =
        lg.stats.recordsWritten ∧
      (shutdown (fun _ => ⟨2025, 25, 1, 1, 0, 0, 0, 0⟩) lg (fun _ => (0, true)) 0 true).stats.queueSize =
        lg.stats.queueSize ∧
      ∃ lost written, lg.queue.view.flatten.Perm (lost ++ written) ∧
        (lg.fileOpen = true → lost = []) ∧
        (∀ i < lost.length, ((fun _ => ((0 : Int), true)) i).2 = false) ∧
        (lg.fileOpen = false → written ≠ [] → ((fun _ => ((0 : Int), true)) lost.length).2 = true) ∧
        (lg.fileOpen = true ∨ written ≠ [] →
          ∃ f ∈ (shutdown (fun _ => ⟨2025, 25, 1, 1, 0, 0, 0, 0⟩) lg (fun _ => (0, true)) 0
              true).closedFiles ++
            (shutdown (fun _ => ⟨2025, 25, 1, 1, 0, 0, 0, 0⟩) lg (fun _ => (0, true)) 0
              true).strandedFiles,
            Write.records f.writes = Write.records lg.file ++ written) :=
  have hc := @Accounts.create fourShardNode 0 _ rfl (by decide)
  ⟨_, rfl, shutdown_drains_the_queue _ hc.1.queue_valid (hc.2.2.2.2 ▸ (by decide : 4 ∣ 2 ^ 64))
    hc.1.closed_empty rfl⟩

end SegmentedLogger

end SegmentedLogging

end Vex
