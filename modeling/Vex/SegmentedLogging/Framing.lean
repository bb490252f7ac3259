import Vex.SegmentedLogging.Files

/-
  The files of the segmented logger, one by one.

  `open_new_file` starts a file with the header (in text mode,
  when one is set), `write_batch` and the drain of `shutdown`
  only append records, and `close_current_file` ends the file
  with the footer (in text mode, when one is set).  So every file
  the logger hands to the file system, renamed or stranded, is a
  header at most, then records, then a footer at most, and the
  open file has no footer yet.  `files_created` counts every
  file it opened: at least the renamed, stranded and open files,
  and more once an open truncated, or a rename replaced, a file
  at its path.

  Key definitions include:
    * `Write.recordsThen`, `Write.framed`
    * `SegmentedLogger.Framed`

  Key theorems include:
    * `Write.framed_append_record`, `Write.framed_close`
    * `framed_openNewFile`, `framed_batchLoop`,
      `framed_closeCurrentFile`, `framed_drainLoop`, `Framed.step`
    * `every_file_is_framed_and_counted`
-/

------------------------------------------------------------
-- The Shape of a File
------------------------------------------------------------

namespace Vex

namespace SegmentedLogging

namespace Write

/- Records only, then one footer at most where `footer` allows it. -/
def recordsThen (footer : Bool) : List Write → Bool
  | [] => true
  | .record _ _ :: writes => recordsThen footer writes
  | [.footer _] => footer
  | _ => false

/- What a file holds: one header at most, first, then records only, then a footer as `recordsThen`. -/
def framed (footer : Bool) : List Write → Bool
  | .header _ :: writes => recordsThen footer writes
  | writes => recordsThen footer writes

example : framed true [.header "h", .record "a" true, .record "b" true, .footer "f"] := by decide

example : framed false [.record "a" true, .footer "f"] = false := by decide

/- A record appended to records is still records. -/
theorem recordsThen_append_record (writes : List Write) (text : String) (newline : Bool) :
    recordsThen false (writes ++ [.record text newline]) = recordsThen false writes := by
  induction writes with
  | nil => rfl
  | cons w writes ih =>
    cases w with
    | record => exact ih
    | header => cases writes <;> rfl
    | footer => cases writes <;> rfl

theorem recordsThen_append_footer (writes : List Write) (h : recordsThen false writes)
    (text : String) : recordsThen true (writes ++ [.footer text]) := by
  induction writes with
  | nil => rfl
  | cons w writes ih =>
    cases w with
    | record => exact ih h
    | header => cases writes <;> simp [recordsThen] at h
    | footer => cases writes <;> simp [recordsThen] at h

theorem recordsThen_true (writes : List Write) (h : recordsThen false writes) :
    recordsThen true writes := by
  induction writes with
  | nil => rfl
  | cons w writes ih =>
    cases w with
    | record => exact ih h
    | header => cases writes <;> simp [recordsThen] at h
    | footer => cases writes <;> simp [recordsThen] at h

/- What the open file holds after one more record. -/
theorem framed_append_record (writes : List Write) (text : String) (newline : Bool) :
    framed false (writes ++ [.record text newline]) = framed false writes := by
  cases writes with
  | nil => rfl
  | cons w writes =>
    cases w with
    | header => exact recordsThen_append_record writes text newline
    | record t n => exact recordsThen_append_record (.record t n :: writes) text newline
    | footer t => exact recordsThen_append_record (.footer t :: writes) text newline

/- What a file holds once closed, with the footer or without one. -/
theorem framed_close {writes : List Write} (h : framed false writes) (footer : List Write)
    (hFooter : footer = [] ∨ ∃ text, footer = [.footer text]) : framed true (writes ++ footer) := by
  rcases hFooter with rfl | ⟨text, rfl⟩
  · rw [List.append_nil]
    cases writes with
    | nil => rfl
    | cons w writes =>
      cases w with
      | header => exact recordsThen_true writes h
      | record t n => exact recordsThen_true (.record t n :: writes) h
      | footer t => exact recordsThen_true (.footer t :: writes) h
  · cases writes with
    | nil => rfl
    | cons w writes =>
      cases w with
      | header => exact recordsThen_append_footer writes h text
      | record t n => exact recordsThen_append_footer (.record t n :: writes) h text
      | footer t => exact recordsThen_append_footer (.footer t :: writes) h text

end Write

------------------------------------------------------------
-- Every File Framed and Counted
------------------------------------------------------------

namespace SegmentedLogger

/-
  Every file the logger made is framed, the open one without a
  footer yet, and `files_created` counts at least the renamed,
  stranded and open files.
-/
structure Framed (lg : SegmentedLogger) : Prop where
  file : Write.framed false lg.file
  files : ∀ f ∈ lg.closedFiles ++ lg.strandedFiles, Write.framed true f.writes
  created : lg.fileCount ≤ lg.stats.filesCreated

/- A call that leaves the files and `files_created` alone keeps them framed and counted. -/
theorem Framed.of_files {lg lg' : SegmentedLogger} (hf : Framed lg) (hFile : lg'.file = lg.file)
    (hClosed : lg'.closedFiles = lg.closedFiles) (hStranded : lg'.strandedFiles = lg.strandedFiles)
    (hOpen : lg'.fileOpen = lg.fileOpen) (hCreated : lg'.stats.filesCreated = lg.stats.filesCreated) :
    Framed lg' :=
  ⟨hFile ▸ hf.file, hClosed ▸ hStranded ▸ hf.files, by
    rw [fileCount, hCreated, hClosed, hStranded, hOpen]
    exact hf.created⟩

/- `record` touches only the queue and its counters. -/
theorem framed_recordLoop (strategy : BackpressureStrategy) (home : Nat) (log : String) (fuel : Nat) :
    ∀ retryCount lg lg' b, Framed lg →
      recordLoop strategy home log fuel retryCount lg = some (b, lg') → Framed lg' := by
  induction fuel with
  | zero =>
    intro _ lg lg' b hf h
    cases h
    exact hf
  | succ fuel ih =>
    intro retryCount lg lg' b hf h
    simp only [recordLoop] at h
    split_ifs at h
    · split at h
      · cases h
      · cases h
        exact hf.of_files rfl rfl rfl rfl rfl
      · split at h
        · refine ih _ _ _ _ ?_ h
          exact hf.of_files rfl rfl rfl rfl rfl
        · cases h
          exact hf.of_files rfl rfl rfl rfl rfl
        · split at h <;> refine ih _ _ _ _ ?_ h <;> exact hf.of_files rfl rfl rfl rfl rfl
        · cases h
          exact hf.of_files rfl rfl rfl rfl rfl
    · cases h
      exact hf

/-
  `open_new_file` where no file is open: on success a new file,
  with the header at most, counted, and any file at its path
  gone.
-/
theorem framed_openNewFile {lg : SegmentedLogger} (hf : Framed lg) (hClosed : lg.fileOpen = false)
    (now : Int) (ok : Bool) : Framed (lg.openNewFile now ok) := by
  cases ok
  · exact hf.of_files rfl rfl rfl rfl rfl
  have hCreated := hf.created
  have := (LogFile.dropPath_sublist lg.closedFiles
    (lg.config.createPath ++ (toString (Int.tdiv now 1000) ++ ".incomp"))).length_le
  have := (LogFile.dropPath_sublist lg.strandedFiles
    (lg.config.createPath ++ (toString (Int.tdiv now 1000) ++ ".incomp"))).length_le
  refine ⟨?_, fun f h => hf.files f ?_, ?_⟩
  · show Write.framed false (if _ then _ else _)
    split_ifs <;> rfl
  · simp only [openNewFile, Bool.not_true, Bool.false_eq_true, ↓reduceIte, List.mem_append,
      LogFile.mem_dropPath] at h ⊢
    exact h.imp And.left And.left
  · simp only [fileCount, hClosed] at hCreated
    simp only [fileCount, openNewFile, Bool.not_true, Bool.false_eq_true, ↓reduceIte]
    omega

theorem framed_opened {lg : SegmentedLogger} (hf : Framed lg) (openAt : Int) (openOk : Bool) :
    Framed (if lg.fileOpen then lg else lg.openNewFile openAt openOk) := by
  split_ifs with hOpen
  · exact hf
  · exact framed_openNewFile hf (by simpa using hOpen) openAt openOk

/- A record appended to the open file keeps it framed. -/
theorem Framed.append_record {lg : SegmentedLogger} (hf : Framed lg) (r : String) :
    Framed { lg with file := lg.file ++ [.record r (lg.config.fileMode = .text)] } :=
  ⟨by rw [Write.framed_append_record]; exact hf.file, hf.files, hf.created⟩

/- A batch appends records to the open file, and nothing else. -/
theorem framed_batchLoop (fuel : Nat) : ∀ lg, Framed lg → Framed (batchLoop fuel lg) := by
  induction fuel with
  | zero => exact fun _ hf => hf
  | succ fuel ih =>
    intro lg hf
    simp only [batchLoop]
    split
    · exact hf.of_files rfl rfl rfl rfl rfl
    · refine ih _ ⟨?_, hf.files, hf.created⟩
      show Write.framed false (lg.file ++ [_])
      rw [Write.framed_append_record]
      exact hf.file

theorem framed_writeBatch {lg : SegmentedLogger} (hf : Framed lg) (openAt : Int) (openOk : Bool) :
    Framed (lg.writeBatch openAt openOk) := by
  rcases writeBatch_cases lg openAt openOk with hEq | ⟨-, hEq⟩ | ⟨-, hEq⟩ <;> rw [hEq]
  · exact hf
  · exact framed_opened hf openAt openOk
  · exact framed_batchLoop _ _ (framed_opened hf openAt openOk)

/-
  Closing ends the open file with the footer at most, and hands
  it over, renamed (any file at its new path gone) or stranded.
-/
theorem framed_closeCurrentFile (decompose : Int → TimeComponents) {lg : SegmentedLogger}
    (hf : Framed lg) (now : Int) (renameOk : Bool) :
    Framed (closeCurrentFile decompose lg now renameOk) := by
  have hCreated := hf.created
  have hFiles := hf.files
  simp only [List.mem_append, or_imp, forall_and] at hFiles
  cases hOpen : lg.fileOpen
  · simpa [closeCurrentFile, hOpen] using hf
  simp only [fileCount, hOpen, ↓reduceIte] at hCreated
  have hWrites : Write.framed true (lg.file ++
      if lg.config.fileMode = .text && !lg.footer.isEmpty then [.footer lg.footer] else []) :=
    Write.framed_close hf.file _ (by split_ifs <;> simp)
  cases renameOk
  all_goals
    simp only [closeCurrentFile, hOpen, Bool.not_true, Bool.false_eq_true, ↓reduceIte]
    refine ⟨rfl, ?_, ?_⟩
  · simp only [List.mem_append, List.mem_singleton, or_imp, forall_and, forall_eq]
    exact ⟨hFiles.1, hFiles.2, hWrites⟩
  · simp only [fileCount, List.length_append, List.length_singleton, Bool.false_eq_true, ↓reduceIte]
    omega
  · simp only [List.mem_append, List.mem_singleton, LogFile.mem_dropPath, or_imp, forall_and,
      forall_eq, and_imp]
    exact ⟨⟨fun f h _ => hFiles.1 f h, hWrites⟩, fun f h _ => hFiles.2 f h⟩
  · have := (LogFile.dropPath_sublist lg.closedFiles (lg.config.closePath ++
      FileNameFormatter.format lg.formatter (decompose lg.fileOpenTime) (decompose now)
        lg.sequenceNumber)).length_le
    have := (LogFile.dropPath_sublist lg.strandedFiles (lg.config.closePath ++
      FileNameFormatter.format lg.formatter (decompose lg.fileOpenTime) (decompose now)
        lg.sequenceNumber)).length_le
    simp only [fileCount, List.length_append, List.length_singleton, Bool.false_eq_true, ↓reduceIte]
    omega

theorem framed_workerIteration (decompose : Int → TimeComponents) {lg : SegmentedLogger}
    (hf : Framed lg) (tick : Tick) : Framed (workerIteration decompose lg tick) := by
  have hf₁ := framed_writeBatch hf tick.openAt tick.openOk
  have hf₂ : Framed (if shouldRotateFile decompose (lg.writeBatch tick.openAt tick.openOk) tick.rotateAt
      then closeCurrentFile decompose (lg.writeBatch tick.openAt tick.openOk) tick.closeAt tick.renameOk
      else lg.writeBatch tick.openAt tick.openOk) := by
    split_ifs
    · exact framed_closeCurrentFile decompose hf₁ _ _
    · exact hf₁
  exact hf₂.of_files rfl rfl rfl rfl rfl

/-
  The drain of `shutdown` appends records, opening a file first
  where none is; a record popped while no file opens changes no
  file.
-/
theorem framed_drainLoop (opens : Nat → Int × Bool) (fuel : Nat) :
    ∀ attempt lg, Framed lg → Framed (drainLoop opens fuel attempt lg) := by
  induction fuel with
  | zero => exact fun _ _ hf => hf
  | succ fuel ih =>
    intro attempt lg hf
    rcases hPop : lg.queue.tryPop with ⟨_ | r, queue⟩
    · simp only [drainLoop, hPop]
      exact hf.of_files rfl rfl rfl rfl rfl
    have hf₁ : Framed { lg with queue := queue } := hf.of_files rfl rfl rfl rfl rfl
    cases hOpen : lg.fileOpen
    · rw [drainLoop_pop_closed opens fuel attempt hPop hOpen]
      split
      · exact ih _ _ (Framed.append_record (framed_openNewFile hf₁ hOpen _ true) r)
      · exact ih _ _ (framed_openNewFile hf₁ hOpen _ false)
    · rw [drainLoop_pop_open opens fuel attempt hPop hOpen]
      exact ih _ _ (hf₁.append_record r)

theorem framed_shutdown (decompose : Int → TimeComponents) {lg : SegmentedLogger} (hf : Framed lg)
    (opens : Nat → Int × Bool) (closeAt : Int) (renameOk : Bool) :
    Framed (shutdown decompose lg opens closeAt renameOk) :=
  framed_closeCurrentFile decompose (framed_drainLoop opens (lg.queue.size + 1) 0
    { lg with shouldStop := true } (hf.of_files rfl rfl rfl rfl rfl)) closeAt renameOk

/- Every input keeps every file framed and counted, `shutdown` too. -/
theorem Framed.step (decompose : Int → TimeComponents) {lg lg' : SegmentedLogger} {input : Input}
    {out : Option Bool} (hf : Framed lg) (hStep : step decompose lg input = some (out, lg')) :
    Framed lg' := by
  unfold SegmentedLogger.step at hStep
  split_ifs at hStep
  cases input with
  | record home log =>
    obtain ⟨⟨b, lg₁⟩, hRecord, he⟩ := Option.map_eq_some'.mp hStep
    cases he
    unfold record at hRecord
    split_ifs at hRecord
    · cases hRecord
      exact hf
    · exact framed_recordLoop _ _ _ _ _ _ _ _ hf hRecord
  | iterate tick =>
    cases hStep
    exact framed_workerIteration decompose hf tick
  | shutdown opens closeAt renameOk =>
    cases hStep
    exact framed_shutdown decompose hf opens closeAt renameOk
  | _ =>
    cases hStep
    exact hf.of_files rfl rfl rfl rfl rfl

end SegmentedLogger

end SegmentedLogging

end Vex
