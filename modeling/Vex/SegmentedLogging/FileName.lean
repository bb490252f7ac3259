import Mathlib.Algebra.Group.Int
import Mathlib.Algebra.Group.Nat.Basic
import Mathlib.Data.String.Basic

/-
  The names of closed log files: `detail::FileNameFormatter`
  (`segmented_logger.hpp`).

  The constructor parses `file_name_format` once into `parts_`,
  a list of literal text and fields.  `%Y %y %M %d %h %m %s %S`
  are the fields of a time, `%n` is the sequence number, `%b`
  and `%e` make the time fields that follow read the file's open
  or its close time, and a `%` before any other character, or at
  the end, is text.  `format` then prints each field zero-padded
  to its width.

  Read as characters, the format gives the same parts as the
  source's bytes for any UTF-8 format: no byte of a multi-byte
  character is `%`.

  Key definitions include:
    * `FieldType`, `FormatField`, `Part`, `classify`
    * `FileNameFormatter.parseFormat`, `FileNameFormatter.format`
    * `expandFormat`, the format read in one pass

  Key theorems include:
    * `format_parseLoop`
    * `parsed_format_expands_in_one_pass`
-/

------------------------------------------------------------
-- Fields
------------------------------------------------------------

namespace Vex

namespace SegmentedLogging

/- `detail::TimeComponents`. -/
structure TimeComponents where
  year4 : Int
  year2 : Int
  month : Int
  day : Int
  hour : Int
  minute : Int
  second : Int
  millisecond : Int
deriving DecidableEq, Repr

/- `FieldType`. -/
inductive FieldType where
  | openYear4 | openYear2 | openMonth | openDay | openHour | openMinute | openSecond
  | openMillis
  | closeYear4 | closeYear2 | closeMonth | closeDay | closeHour | closeMinute | closeSecond
  | closeMillis
  | sequence
deriving DecidableEq, Repr

/- `FormatField`. -/
structure FormatField where
  type : FieldType
  width : Nat
deriving DecidableEq, Repr

/- `Part`: the `std::variant<std::string, FormatField>`. -/
inductive Part where
  | literal (text : String)
  | field (field : FormatField)
deriving DecidableEq, Repr

/-
  What a `%` followed by `spec` does, as the `switch` of
  `parse_format` has it: a field (of the open time while
  `begin_time`), a switch of `begin_time`, or text.
-/
inductive Spec where
  | field (field : FormatField)
  | setBegin (beginTime : Bool)
  | text
deriving DecidableEq, Repr

/- The `switch (spec)` of `parse_format`. -/
def classify (beginTime : Bool) : Char → Spec
  | 'Y' => .field ⟨if beginTime then .openYear4 else .closeYear4, 4⟩
  | 'y' => .field ⟨if beginTime then .openYear2 else .closeYear2, 2⟩
  | 'M' => .field ⟨if beginTime then .openMonth else .closeMonth, 2⟩
  | 'd' => .field ⟨if beginTime then .openDay else .closeDay, 2⟩
  | 'h' => .field ⟨if beginTime then .openHour else .closeHour, 2⟩
  | 'm' => .field ⟨if beginTime then .openMinute else .closeMinute, 2⟩
  | 's' => .field ⟨if beginTime then .openSecond else .closeSecond, 2⟩
  | 'S' => .field ⟨if beginTime then .openMillis else .closeMillis, 3⟩
  | 'n' => .field ⟨.sequence, 4⟩
  | 'b' => .setBegin true
  | 'e' => .setBegin false
  | _ => .text

/-
  `snprintf(buf, sizeof(buf), "%0*d", width, value)`: the
  decimal digits zero-padded to `width` characters, after a
  minus sign for a negative value.  The 16-byte buffer holds
  every `int`.
-/
def zeroPadded (width : Nat) (value : Int) : String :=
  let sign := if value < 0 then ['-'] else []
  let digits := Nat.toDigits 10 value.natAbs
  String.mk (sign ++ List.replicate (width - sign.length - digits.length) '0' ++ digits)

/- The `uint32_t` sequence number as the `int value` it is assigned to. -/
def sequenceValue (sequence : Nat) : Int :=
  if sequence < 2 ^ 31 then sequence else (sequence : Int) - 2 ^ 32

/- `append_field`: the value the field reads, printed. -/
def fieldText (field : FormatField) (openTime closeTime : TimeComponents) (sequence : Nat) :
    String :=
  zeroPadded field.width <|
    match field.type with
    | .openYear4 => openTime.year4
    | .openYear2 => openTime.year2
    | .openMonth => openTime.month
    | .openDay => openTime.day
    | .openHour => openTime.hour
    | .openMinute => openTime.minute
    | .openSecond => openTime.second
    | .openMillis => openTime.millisecond
    | .closeYear4 => closeTime.year4
    | .closeYear2 => closeTime.year2
    | .closeMonth => closeTime.month
    | .closeDay => closeTime.day
    | .closeHour => closeTime.hour
    | .closeMinute => closeTime.minute
    | .closeSecond => closeTime.second
    | .closeMillis => closeTime.millisecond
    | .sequence => sequenceValue sequence

------------------------------------------------------------
-- The Formatter
------------------------------------------------------------

namespace FileNameFormatter

/- The pending `literal`, moved into `parts_` unless empty. -/
def flush (literal : String) (parts : List Part) : List Part :=
  if literal.isEmpty then parts else parts ++ [.literal literal]

/-
  The loop of `parse_format` over the characters left, with
  `begin_time`, the pending `literal` and the parts so far.
-/
def parseLoop (beginTime : Bool) (literal : String) (parts : List Part) :
    List Char → List Part
  | '%' :: spec :: rest =>
    match classify beginTime spec with
    | .field field => parseLoop beginTime "" (flush literal parts ++ [.field field]) rest
    | .setBegin b => parseLoop b "" (flush literal parts) rest
    | .text => parseLoop beginTime ("%".push spec) (flush literal parts) rest
  | c :: rest => parseLoop beginTime (literal.push c) parts rest
  | [] => flush literal parts

/- `parse_format`, as the constructor runs it: `parts_` of a format. -/
def parseFormat (format : String) : List Part :=
  parseLoop true "" [] format.toList

/- What one part prints. -/
def partText (openTime closeTime : TimeComponents) (sequence : Nat) : Part → String
  | .literal text => text
  | .field field => fieldText field openTime closeTime sequence

/- `format`: the parts printed one after another into `result`. -/
def format (parts : List Part) (openTime closeTime : TimeComponents) (sequence : Nat) :
    String :=
  parts.foldl (fun result part => result ++ partText openTime closeTime sequence part) ""

end FileNameFormatter

------------------------------------------------------------
-- The Format Read in One Pass
------------------------------------------------------------

/-
  What a format means, read straight off its characters: each
  field specifier replaced by its printed field, `%b` and `%e`
  switching the time the next fields read, and everything else
  copied.
-/
def expandFormat (openTime closeTime : TimeComponents) (sequence : Nat) :
    Bool → List Char → String
  | beginTime, '%' :: spec :: rest =>
    match classify beginTime spec with
    | .field field =>
      fieldText field openTime closeTime sequence ++ expandFormat openTime closeTime sequence beginTime rest
    | .setBegin b => expandFormat openTime closeTime sequence b rest
    | .text => "%".push spec ++ expandFormat openTime closeTime sequence beginTime rest
  | beginTime, c :: rest =>
    String.singleton c ++ expandFormat openTime closeTime sequence beginTime rest
  | _, [] => ""

namespace FileNameFormatter

variable {openTime closeTime : TimeComponents} {sequence : Nat}

/- The loop of `format` from any `result`. -/
theorem foldl_partText (result : String) (parts : List Part) :
    parts.foldl (fun result part => result ++ partText openTime closeTime sequence part) result =
      result ++ format parts openTime closeTime sequence := by
  induction parts generalizing result with
  | nil => simp [format]
  | cons part parts ih =>
    simp only [List.foldl_cons, format] at ih ⊢
    rw [ih, ih ("" ++ _), String.empty_append, String.append_assoc]

theorem format_append (parts parts' : List Part) :
    format (parts ++ parts') openTime closeTime sequence =
      format parts openTime closeTime sequence ++ format parts' openTime closeTime sequence := by
  rw [format, List.foldl_append, foldl_partText]
  rfl

@[simp]
theorem format_nil : format [] openTime closeTime sequence = "" :=
  rfl

@[simp]
theorem format_singleton (part : Part) :
    format [part] openTime closeTime sequence = partText openTime closeTime sequence part :=
  String.empty_append _

theorem format_flush (literal : String) (parts : List Part) :
    format (flush literal parts) openTime closeTime sequence =
      format parts openTime closeTime sequence ++ literal := by
  unfold flush
  split_ifs with h
  · rw [(String.isEmpty_iff _).mp h, String.append_empty]
  · rw [format_append, format_singleton, partText]

theorem push_eq_append (s : String) (c : Char) : s.push c = s ++ String.singleton c :=
  String.ext_iff.mpr (by simp [String.data_push, String.singleton])

/-
  The loop of `parse_format` loses no text and reorders none:
  the parts it ends with print as the parts so far, the pending
  literal, and the rest of the format read in one pass.
-/
theorem format_parseLoop (beginTime : Bool) (literal : String) (parts : List Part)
    (rest : List Char) :
    format (parseLoop beginTime literal parts rest) openTime closeTime sequence =
      format parts openTime closeTime sequence ++ literal ++
        expandFormat openTime closeTime sequence beginTime rest := by
  induction beginTime, literal, parts, rest using parseLoop.induct with
  | case1 beginTime literal parts spec rest field hSpec ih =>
    simp only [parseLoop.eq_1, expandFormat.eq_1, hSpec, ih, format_append, format_flush,
      format_singleton, partText, String.append_empty, String.append_assoc]
  | case2 beginTime literal parts spec rest b hSpec ih =>
    simp only [parseLoop.eq_1, expandFormat.eq_1, hSpec, ih, format_flush, String.append_empty]
  | case3 beginTime literal parts spec rest hSpec ih =>
    simp only [parseLoop.eq_1, expandFormat.eq_1, hSpec, ih, format_flush, String.append_assoc]
  | case4 beginTime literal parts c rest hPlain ih =>
    rw [parseLoop.eq_2 _ _ _ _ _ hPlain, ih, expandFormat.eq_2 _ _ _ _ _ _ hPlain, push_eq_append]
    simp only [String.append_assoc]
  | case5 beginTime literal parts =>
    rw [parseLoop.eq_3, format_flush, expandFormat.eq_3, String.append_empty]

/-
  Parsing a format once and printing its parts gives the name the
  format stands for, read in one pass from the open time.
-/
theorem parsed_format_expands_in_one_pass (fileNameFormat : String)
    (openTime closeTime : TimeComponents) (sequence : Nat) :
    format (parseFormat fileNameFormat) openTime closeTime sequence =
      expandFormat openTime closeTime sequence true fileNameFormat.toList := by
  rw [parseFormat, format_parseLoop, format_nil, String.empty_append, String.empty_append]

end FileNameFormatter

end SegmentedLogging

end Vex
