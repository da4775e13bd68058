/-
Module: RegionFlow.Proofs.TestSources
Purpose: Test files are read as they are written. A source of a test file has a command, settings
  and cases; its text has one line for the command and for each setting, and for each case the line
  that opens it, the record, a line for each expectation and a blank line. Reading the text finds
  all of it again, records unchanged: the scan for the brace that closes a record follows the
  strings and braces of the record, across its lines.
Main exports: TestFile.Setting, TestFile.CaseSource, TestFile.Source, TestFile.Source.read_text
-/
import RegionFlow.Proofs.Extents
import RegionFlow.Proofs.Separation
import RegionFlow.TestFile.Reading

namespace RegionFlow

/-! ### Lines -/

namespace Text

/-- A line with its end. -/
def lineText (line : List Char) : List Char :=
  line ++ ['\n']

section

variable {line text rest : List Char}

theorem splitOn_of_not_mem (single : '\n' ∉ line) : splitOn ['\n'] line = [line] :=
  splitAtLevel_of_uncut (uncut_of_not_mem single)

theorem splitOn_append (single : '\n' ∉ line) :
    splitOn ['\n'] (line ++ '\n' :: rest) = line :: splitOn ['\n'] rest := by
  have flat : (0 : Int) + weigh (fun _ => 0) line = 0 := by
    rw [weigh_eq_zero fun _ _ => rfl, Int.add_zero]
  exact splitAtLevel_append List.not_mem_nil rfl (uncut_of_not_mem single) flat rest

theorem lines_lineText (single : '\n' ∉ line) :
    lines (lineText line ++ rest) = dropReturn line :: lines rest := by
  have cut : splitOn ['\n'] (lineText line ++ rest) = line :: splitOn ['\n'] rest := by
    rw [lineText, List.append_assoc]
    exact splitOn_append single
  cases parts : splitOn ['\n'] rest with
  | nil => exact absurd parts (splitAtLevel_ne_nil _ _ _)
  | cons part parts =>
    simp only [lines, cut, parts, List.dropLast_cons_cons, List.getLast?_cons_cons, List.map_cons]
    split <;> rfl

theorem dropReturn_of_not_mem (plain : '\r' ∉ line) : dropReturn line = line := by
  unfold dropReturn
  split
  · rename_i rest turned
    have last : '\r' ∈ line.reverse := turned ▸ List.mem_cons_self
    exact absurd (List.mem_reverse.1 last) plain
  · rfl

theorem trim_dropReturn (line : List Char) : trim (dropReturn line) = trim line := by
  unfold dropReturn
  split
  · rename_i rest turned
    have spelled : line = rest.reverse ++ ['\r'] := by
      rw [← List.reverse_reverse line, turned, List.reverse_cons]
    have blank : trimEnd line = trimEnd rest.reverse := by
      rw [trimEnd, trimEnd, spelled, List.reverse_append]
      rfl
    rw [← trim_trimEnd line, blank, trim_trimEnd]
  · rfl

/-- A text is a line, or a line before another text. -/
theorem lines_induction {motive : List Char → Prop} (last : ∀ {line}, '\n' ∉ line → motive line)
    (cons : ∀ {line rest}, '\n' ∉ line → motive rest → motive (line ++ '\n' :: rest))
    (text : List Char) : motive text := by
  induction counted : text.length using Nat.strong_induction_on generalizing text with
  | _ size ih =>
    by_cases more : '\n' ∈ text
    · obtain ⟨line, rest, rfl, single⟩ := List.eq_append_cons_of_mem more
      exact cons single (ih rest.length (by simp at counted; omega) rest rfl)
    · exact last more

theorem lines_text (plain : '\r' ∉ text) (rest : List Char) :
    lines (lineText text ++ rest) = splitOn ['\n'] text ++ lines rest := by
  induction text using lines_induction with
  | last single =>
    rw [lines_lineText single, dropReturn_of_not_mem plain, splitOn_of_not_mem single]
    rfl
  | @cons line later single ih =>
    rw [List.mem_append, List.mem_cons, not_or, not_or] at plain
    have spelled : lineText (line ++ '\n' :: later) ++ rest =
        lineText line ++ (lineText later ++ rest) := by simp [lineText]
    rw [spelled, lines_lineText single, dropReturn_of_not_mem plain.1, ih plain.2.2,
      splitOn_append single]
    rfl

theorem count_lineText (text : List Char) :
    (lineText text).count '\n' = (splitOn ['\n'] text).length := by
  induction text using lines_induction with
  | last single => simp [lineText, splitOn_of_not_mem single, List.count_eq_zero_of_not_mem single]
  | cons single ih =>
    rw [splitOn_append single, List.length_cons, ← ih]
    simp [lineText, List.count_eq_zero_of_not_mem single]

theorem count_single (single : '\n' ∉ line) (rest : List Char) :
    (lineText line ++ rest).count '\n' = 1 + rest.count '\n' := by
  rw [List.count_append, count_lineText, splitOn_of_not_mem single]
  rfl

theorem trimEnd_append (some : trim text ≠ []) (front : List Char) :
    trimEnd (front ++ text) = front ++ trimEnd text := by
  obtain ⟨before, after, spelled, -, -⟩ := exists_trim text
  obtain ⟨c, rest, shown, solid⟩ := (solid_trim some).starts
  rw [shown, List.append_assoc, List.cons_append] at spelled
  rw [spelled, ← List.append_assoc, trimEnd_append_cons solid, trimEnd_append_cons solid,
    List.append_assoc]

theorem trim_cons_blank {c : Char} (blank : isBlank c = true) (text : List Char) :
    trim (c :: text) = trim text := by
  rw [trim, trimStart, List.dropWhile_cons_of_pos blank]
  rfl

theorem after?_append (start rest : List Char) : after? start (start ++ rest) = some rest := by
  simp [after?]

end

end Text

namespace TestFile

open Text (trim trimEnd isBlank splitOn splitOnce lines lineText Solid)

/-! ### Sources -/

/-- An option that a setting sets. -/
inductive Switch where
  | strictReferences
  | pruneUnprofitable
  | roundtrip
deriving DecidableEq, Repr

namespace Switch

def name : Switch → String
  | strictReferences => "strict_references"
  | pruneUnprofitable => "prune_unprofitable"
  | roundtrip => "roundtrip"

def set (value : Bool) (options : Options) : Switch → Options
  | strictReferences => { options with strictReferences := value }
  | pruneUnprofitable => { options with pruneUnprofitable := value }
  | roundtrip => { options with roundtrip := value }

end Switch

/-- Texts that set an option: its name alone, or its name and its value, with any blanks around them. -/
inductive Sets (switch : Switch) : Bool → List Char → Prop where
  | bare {text : List Char} (named : trim text = switch.name.toList) : Sets switch true text
  | assigned {value : Bool} {left right : List Char} (named : trim left = switch.name.toList)
      (valued : trim right = (toString value).toList) : Sets switch value (left ++ '=' :: right)

/-- A setting as it is written. -/
structure Setting where
  switch : Switch
  value : Bool
  text : List Char
  sets : Sets switch value text
  single : '\n' ∉ text

/-- A case as it is written. -/
structure CaseSource where
  label : List Char
  record : List Char
  directives : List (List Char)
  label_trimmed : trim label = label
  label_single : '\n' ∉ label
  object : Json.isObject record = true
  plain : '\r' ∉ record
  directives_trimmed : ∀ directive ∈ directives, trim directive = directive
  directives_single : ∀ directive ∈ directives, '\n' ∉ directive

/-- A test file as it is written. -/
structure Source where
  command : List Char
  settings : List Setting
  cases : List CaseSource
  command_solid : Solid command
  command_single : '\n' ∉ command

namespace Setting

def line (setting : Setting) : List Char :=
  lineText ("set ".toList ++ setting.text)

def apply (options : Options) (setting : Setting) : Options :=
  setting.switch.set setting.value options

end Setting

namespace CaseSource

def directiveLine (directive : List Char) : List Char :=
  lineText ("; ".toList ++ directive)

def openingLine (source : CaseSource) : List Char :=
  lineText ("region ".toList ++ source.label)

def text (source : CaseSource) : List Char :=
  source.openingLine ++ lineText source.record ++ source.directives.flatMap directiveLine ++ lineText []

/-- The case that is written; `line` is the number of the line that opens it. -/
def toCase (line : Nat) (source : CaseSource) : Case :=
  ⟨String.ofList source.label, line, String.ofList source.record, joinLines source.directives⟩

/-- The cases that are written one after another, from the line `line` on. -/
def toCases (line : Nat) : List CaseSource → List Case
  | [] => []
  | source :: sources => source.toCase line :: toCases (line + source.text.count '\n') sources

end CaseSource

namespace Source

/-- The text before the cases. -/
def header (source : Source) : List Char :=
  lineText ("test ".toList ++ source.command) ++ source.settings.flatMap Setting.line

def text (source : Source) : List Char :=
  source.header ++ source.cases.flatMap CaseSource.text

/-- The test file that is written. -/
def file (source : Source) : TestFile :=
  ⟨String.ofList ("test ".toList ++ source.command), source.settings.foldl Setting.apply Options.standard,
    CaseSource.toCases (1 + source.header.count '\n') source.cases⟩

end Source

/-! ### Records -/

namespace Nesting

/-- Outside strings, with some braces open. -/
def level (depth : Nat) : Nesting :=
  ⟨depth, false, false⟩

theorem scan?_append (nesting : Nesting) (left right : List Char) :
    nesting.scan? (left ++ right) = (nesting.scan? left).bind fun next => next.scan? right := by
  induction left generalizing nesting with
  | nil => rfl
  | cons c left ih =>
    simp only [List.cons_append, scan?]
    split_ifs <;> first | rfl | apply ih

theorem scan?_onward {start next : Nesting} {line : List Char} (scanned : start.scan? line = some next)
    (more : List Char) : start.scan? (line ++ more) = next.scan? more := by
  rw [scan?_append, scanned, Option.bind_some]

theorem scan?_quoted {body : List Char} (quoted : Json.Quoted body) (depth : Int) :
    scan? ⟨depth, true, false⟩ body = some ⟨depth, false, false⟩ := by
  induction quoted with
  | closing => rfl
  | plain notQuote notEscape _ _ ih => simp [scan?, notQuote, notEscape, ih]
  | escape _ _ ih => simp [scan?, ih]

theorem scan?_string {body : List Char} (quoted : Json.Quoted body) (depth : Nat) :
    (level depth).scan? ('"' :: body) = some (level depth) :=
  scan?_quoted quoted depth

theorem scan?_plain {c : Char} (notQuote : c ≠ '"') (notOpening : c ≠ '\x7b')
    (notClosing : c ≠ '\x7d') (depth : Nat) : (level depth).scan? [c] = some (level depth) := by
  simp [scan?, level, notQuote, notOpening, notClosing]

theorem scan?_opening (depth : Nat) : (level depth).scan? ['\x7b'] = some (level (depth + 1)) := by
  simp [scan?, level]

theorem scan?_closing (depth : Nat) :
    (level (depth + 2)).scan? ['\x7d'] = some (level (depth + 1)) := by
  have fewer : ((depth + 2 : Nat) : Int) - 1 = (depth + 1 : Nat) := by omega
  have inside : ((depth + 1 : Nat) : Int) ≠ 0 := by omega
  have step : (level (depth + 2)).scan? ['\x7d'] =
      if ((depth + 2 : Nat) : Int) - 1 = 0 then none
      else some ⟨((depth + 2 : Nat) : Int) - 1, false, false⟩ := rfl
  rw [step, fewer, if_neg inside]
  rfl

theorem scan?_outermost : (level 1).scan? ['\x7d'] = none := rfl

theorem not_mem_quoted {body : List Char} (quoted : Json.Quoted body) : '\n' ∉ body := by
  induction quoted with
  | closing => decide
  | plain _ _ notBreak _ ih => exact List.not_mem_cons_of_ne_of_not_mem (Ne.symm notBreak) ih
  | escape notBreak _ ih =>
    apply List.not_mem_cons_of_ne_of_not_mem (by decide)
    exact List.not_mem_cons_of_ne_of_not_mem (Ne.symm notBreak) ih

/-- The rest of a record before the brace that closes it: line ends, and pieces of a line from one level to
    another. -/
inductive Passage : Nat → List Char → Prop where
  | nil : Passage 1 []
  | newline {depth : Nat} {rest : List Char} (behind : Passage depth rest) : Passage depth ('\n' :: rest)
  | piece {depth next : Nat} {front rest : List Char} (single : '\n' ∉ front)
      (scanned : (level depth).scan? front = some (level next)) (behind : Passage next rest) :
      Passage depth (front ++ rest)

/-- Strings are pieces of a line. -/
theorem passage_of_runs {depth : Nat} {text : List Char} (runs : Json.Runs depth text 1) :
    Passage depth text := by
  generalize ended : 1 = last at runs
  induction runs with
  | nil depth => exact ended ▸ .nil
  | @plain _ _ c _ notQuote notOpening notClosing _ ih =>
    by_cases broken : c = '\n'
    · exact broken ▸ .newline (ih ended)
    · have single : '\n' ∉ [c] := by simpa using Ne.symm broken
      exact .piece single (scan?_plain notQuote notOpening notClosing _) (ih ended)
  | @string _ _ body _ quoted _ ih =>
    have single : '\n' ∉ '"' :: body :=
      List.not_mem_cons_of_ne_of_not_mem (by decide) (not_mem_quoted quoted)
    exact .piece single (scan?_string quoted _) (ih ended)
  | opening _ ih => exact .piece (by decide) (scan?_opening _) (ih ended)
  | closing _ ih => exact .piece (by decide) (scan?_closing _) (ih ended)

end Nesting

section

variable {number opened : Nat} {label : String} {options : Options} {cases : List Case}

/-- Reading of a record ends with the brace that closes it. The brace is looked for from the middle
    of a line on: `line` is what was scanned of it, from `start`, and `text` is what follows up to
    the brace. -/
theorem readCases_passage {depth : Nat} {text line : List Char} {start : Nesting}
    {seen rest : List (List Char)} (passage : Nesting.Passage depth text)
    (scanned : start.scan? line = some (.level depth)) (single : '\n' ∉ line) :
    readCases number (.record label opened start seen) options cases
        (splitOn ['\n'] (line ++ (text ++ ['\x7d'])) ++ rest) =
      readCases (number + (splitOn ['\n'] (line ++ (text ++ ['\x7d']))).length)
        (.expectations label opened (joinLines (seen ++ splitOn ['\n'] (line ++ (text ++ ['\x7d'])))) [])
        options cases rest := by
  induction passage generalizing line start seen number with
  | nil =>
    have whole : '\n' ∉ line ++ ['\x7d'] := by simpa using single
    have closed : start.scan? (line ++ ['\x7d']) = none := by
      rw [Nesting.scan?_onward scanned, Nesting.scan?_outermost]
    rw [List.nil_append, Text.splitOn_of_not_mem whole, List.singleton_append, readCases, closed]
    rfl
  | @newline depth text _ ih =>
    -- the line ends here, and the next one is scanned from the level that was reached
    have onward := @ih (number + 1) [] (.level depth) (seen ++ [line]) rfl List.not_mem_nil
    rw [List.nil_append, List.append_assoc] at onward
    rw [List.cons_append, Text.splitOn_append single, List.cons_append, readCases, scanned,
      List.length_cons, ← Nat.add_assoc, Nat.add_right_comm]
    exact onward
  | @piece depth next front text absent level _ ih =>
    have further : start.scan? (line ++ front) = some (.level next) := by
      rw [Nesting.scan?_onward scanned, level]
    have onward := @ih number _ start seen further (by simp [single, absent])
    rw [List.append_assoc, ← List.append_assoc front] at onward
    exact onward

/-- The lines of a record are read, and the record is found unchanged. -/
theorem readCases_record {record rest : List Char} (object : Json.isObject record = true)
    (plain : '\r' ∉ record) :
    readCases number (.record label opened .outside []) options cases (lines (lineText record ++ rest)) =
      readCases (number + (lineText record).count '\n')
        (.expectations label opened (String.ofList record) []) options cases (lines rest) := by
  obtain ⟨body, rfl, runs⟩ := Json.runs_of_isObject object
  have entered : Nesting.outside.scan? ['\x7b'] = some (.level 1) := rfl
  have single : '\n' ∉ ['\x7b'] := by decide
  have whole : joinLines ([] ++ splitOn ['\n'] ('\x7b' :: (body ++ ['\x7d']))) =
      String.ofList ('\x7b' :: (body ++ ['\x7d'])) :=
    congrArg String.ofList (Text.join_splitAtLevel (by decide) 0 0 _)
  rw [Text.lines_text plain, Text.count_lineText, ← whole]
  exact readCases_passage (Nesting.passage_of_runs runs) entered single

/-! ### Settings -/

/-- A text that is the name of an option, with blanks around it, has no equals sign. -/
theorem not_mem_of_named {switch : Switch} {text : List Char} (named : trim text = switch.name.toList) :
    '=' ∉ text := by
  obtain ⟨front, back, spelled, before, after⟩ := Text.exists_trim text
  have outside : ∀ {blanks : List Char}, (∀ c ∈ blanks, isBlank c = true) → '=' ∉ blanks :=
    fun blank member => absurd (blank _ member) (by decide)
  have inside : '=' ∉ switch.name.toList := by cases switch <;> decide
  rw [spelled, named, List.mem_append, List.mem_append, not_or, not_or]
  exact ⟨⟨outside before, inside⟩, outside after⟩

/-- An option is set to what stands behind the equals sign, and to true if there is none. -/
theorem applySetting_trimEnd {switch : Switch} {value : Bool} {text : List Char}
    (sets : Sets switch value text) :
    applySetting options (trimEnd text) = .ok (switch.set value options) := by
  unfold applySetting
  cases sets with
  | bare named =>
    have absent : '=' ∉ trimEnd text :=
      fun member => not_mem_of_named named (Text.mem_of_mem_trimEnd member)
    rw [Text.splitOnce_eq_none_iff.2 absent]
    dsimp only
    rw [Text.trim_trimEnd, named, String.ofList_toList]
    cases switch <;> rfl
  | @assigned _ left right named valued =>
    have cut : splitOnce '=' (trimEnd (left ++ '=' :: right)) = some (left, trimEnd right) := by
      rw [Text.trimEnd_append_cons (by decide)]
      exact Text.splitOnce_append (not_mem_of_named named) _
    rw [cut]
    dsimp only
    rw [Text.trim_trimEnd, named, valued, String.ofList_toList, String.ofList_toList]
    cases switch <;> cases value <;> rfl

theorem Sets.trim_ne_nil {switch : Switch} {value : Bool} {text : List Char}
    (sets : Sets switch value text) : trim text ≠ [] := by
  cases sets with
  | bare named =>
    rw [named]
    cases switch <;> decide
  | assigned _ _ =>
    rw [Text.trim_append_cons (by decide)]
    simp

theorem readCases_setting (setting : Setting) (rest : List Char) :
    readCases number .between options cases (lines (setting.line ++ rest)) =
      readCases (number + 1) .between (setting.apply options) cases (lines rest) := by
  have starts : isBlank 's' = false := by decide
  have trimmed : trim ("set ".toList ++ setting.text) = "set ".toList ++ trimEnd setting.text := by
    have front := Text.trim_append_cons starts [] ("et ".toList ++ setting.text)
    rw [Text.trimEnd_append setting.sets.trim_ne_nil] at front
    exact front
  have opening : readOpening number options ("set ".toList ++ trimEnd setting.text) =
      .ok (setting.apply options, .between) := by
    have shown : isSkipped ("set ".toList ++ trimEnd setting.text) = false := rfl
    rw [readOpening, shown, if_neg Bool.false_ne_true, Text.after?_append]
    dsimp only
    rw [applySetting_trimEnd setting.sets]
    rfl
  rw [Setting.line, Text.lines_lineText (List.not_mem_append (by decide) setting.single), readCases,
    Text.trim_dropReturn, trimmed, opening]

theorem readCases_settings (settings : List Setting) (rest : List Char) :
    readCases number .between options cases (lines (settings.flatMap Setting.line ++ rest)) =
      readCases (number + (settings.flatMap Setting.line).count '\n') .between
        (settings.foldl Setting.apply options) cases (lines rest) := by
  induction settings generalizing number options with
  | nil => rfl
  | cons setting settings ih =>
    have counted : (setting.line ++ settings.flatMap Setting.line).count '\n' =
        1 + (settings.flatMap Setting.line).count '\n' :=
      Text.count_single (List.not_mem_append (by decide) setting.single) _
    rw [List.flatMap_cons, List.append_assoc, readCases_setting, ih, counted, Nat.add_assoc]
    rfl

/-! ### Cases -/

/-- A stage in which a case can be opened. -/
def Stage.IsSettled : Stage → Prop
  | .record _ _ _ _ => False
  | _ => True

/-- The line that opens a case ends the one before. -/
theorem readCases_opening {stage : Stage} {title : List Char} (settled : stage.IsSettled)
    (trimmed : trim title = title) (single : '\n' ∉ title) (rest : List Char) :
    readCases number stage options cases (lines (lineText ("region ".toList ++ title) ++ rest)) =
      readCases (number + 1) (.record (String.ofList title) number .outside []) options
        (cases ++ stage.case?.toList) (lines rest) := by
  have solid : isBlank 'n' = false := by decide
  have blank : isBlank ' ' = true := by decide
  have shown : trim ("region ".toList ++ title) = "region".toList ++ trimEnd (' ' :: title) :=
    Text.trim_append_cons solid "regio".toList (' ' :: title)
  have opening : readOpening number options ("region".toList ++ trimEnd (' ' :: title)) =
      .ok (options, .record (String.ofList title) number .outside []) := by
    have noSetting : Text.after? "set ".toList ("region".toList ++ trimEnd (' ' :: title)) = none := rfl
    have some : isSkipped ("region".toList ++ trimEnd (' ' :: title)) = false := rfl
    rw [readOpening, some, if_neg Bool.false_ne_true, noSetting, Text.after?_append]
    dsimp only
    rw [Text.trim_trimEnd, Text.trim_cons_blank blank, trimmed]
  rw [Text.lines_lineText (List.not_mem_append (by decide) single)]
  cases stage with
  | record => exact settled.elim
  | between =>
    rw [readCases, Text.trim_dropReturn, shown, opening]
    simp [Stage.case?]
  | expectations label opened record seen =>
    have first : "region".toList ++ trimEnd (' ' :: title) =
        'r' :: ("egion".toList ++ trimEnd (' ' :: title)) := rfl
    rw [first] at shown opening
    rw [readCases, Text.trim_dropReturn, shown]
    split
    · rename_i empty
      cases empty
    · rename_i spelled
      exact absurd (List.cons.inj spelled).1 (by decide)
    · rw [opening]
      rfl

section

variable {record : String} {seen : List (List Char)}

theorem readCases_directive {directive : List Char} (trimmed : trim directive = directive)
    (single : '\n' ∉ directive) (rest : List Char) :
    readCases number (.expectations label opened record seen) options cases
        (lines (CaseSource.directiveLine directive ++ rest)) =
      readCases (number + 1) (.expectations label opened record (seen ++ [directive])) options cases
        (lines rest) := by
  have solid : isBlank ';' = false := by decide
  have blank : isBlank ' ' = true := by decide
  have shown : trim ("; ".toList ++ directive) = ';' :: trimEnd (' ' :: directive) :=
    Text.trim_append_cons solid [] (' ' :: directive)
  have read : trim (trimEnd (' ' :: directive)) = directive := by
    rw [Text.trim_trimEnd, Text.trim_cons_blank blank, trimmed]
  rw [CaseSource.directiveLine, Text.lines_lineText (List.not_mem_append (by decide) single), readCases,
    Text.trim_dropReturn, shown]
  change readCases (number + 1)
    (.expectations label opened record (seen ++ [trim (trimEnd (' ' :: directive))])) _ _ _ = _
  rw [read]

theorem readCases_directives {directives : List (List Char)}
    (trimmed : ∀ directive ∈ directives, trim directive = directive)
    (single : ∀ directive ∈ directives, '\n' ∉ directive) (rest : List Char) :
    readCases number (.expectations label opened record seen) options cases
        (lines (directives.flatMap CaseSource.directiveLine ++ rest)) =
      readCases (number + (directives.flatMap CaseSource.directiveLine).count '\n')
        (.expectations label opened record (seen ++ directives)) options cases (lines rest) := by
  induction directives generalizing number seen with
  | nil => simp
  | cons directive directives ih =>
    obtain ⟨trimmedHere, trimmedLater⟩ := List.forall_mem_cons.1 trimmed
    obtain ⟨singleHere, singleLater⟩ := List.forall_mem_cons.1 single
    have counted : (CaseSource.directiveLine directive ++
        directives.flatMap CaseSource.directiveLine).count '\n' =
        1 + (directives.flatMap CaseSource.directiveLine).count '\n' :=
      Text.count_single (List.not_mem_append (by decide) singleHere) _
    rw [List.flatMap_cons, List.append_assoc, readCases_directive trimmedHere singleHere,
      ih trimmedLater singleLater, counted, Nat.add_assoc, List.append_assoc]
    rfl

theorem readCases_blank (rest : List Char) :
    readCases number (.expectations label opened record seen) options cases (lines (lineText [] ++ rest)) =
      readCases (number + 1) (.expectations label opened record seen) options cases (lines rest) := by
  rw [Text.lines_lineText List.not_mem_nil, readCases]
  rfl

end

/-- A case is read as it is written, and is complete when the next one is opened. -/
theorem readCases_case {stage : Stage} (settled : stage.IsSettled) (source : CaseSource)
    (rest : List Char) :
    ∃ next : Stage, next.IsSettled ∧ next.case? = some (source.toCase number) ∧
      readCases number stage options cases (lines (source.text ++ rest)) =
        readCases (number + source.text.count '\n') next options (cases ++ stage.case?.toList)
          (lines rest) := by
  refine ⟨.expectations (String.ofList source.label) number (String.ofList source.record)
    source.directives, trivial, rfl, ?_⟩
  have counted : number + 1 + (lineText source.record).count '\n' +
      (source.directives.flatMap CaseSource.directiveLine).count '\n' + 1 =
      number + source.text.count '\n' := by
    rw [CaseSource.text, List.count_append, List.count_append, List.count_append, CaseSource.openingLine,
      Text.count_lineText ("region ".toList ++ source.label),
      Text.splitOn_of_not_mem (List.not_mem_append (by decide) source.label_single)]
    simp [lineText]
    omega
  rw [← counted, CaseSource.text, List.append_assoc, List.append_assoc, List.append_assoc,
    CaseSource.openingLine, readCases_opening settled source.label_trimmed source.label_single,
    readCases_record source.object source.plain,
    readCases_directives source.directives_trimmed source.directives_single, readCases_blank]
  rfl

/-- Cases are read as they are written, one after another. -/
theorem readCases_cases {stage : Stage} (settled : stage.IsSettled) (sources : List CaseSource) :
    readCases number stage options cases (lines (sources.flatMap CaseSource.text)) =
      .ok (options, cases ++ stage.case?.toList ++ CaseSource.toCases number sources) := by
  induction sources generalizing number stage cases with
  | nil =>
    rw [CaseSource.toCases, List.append_nil]
    cases stage with
    | record => exact settled.elim
    | between => rfl
    | expectations => rfl
  | cons source sources ih =>
    obtain ⟨next, settledNext, complete, read⟩ :=
      readCases_case settled source (sources.flatMap CaseSource.text)
    rw [List.flatMap_cons, read, ih settledNext, complete, CaseSource.toCases, List.append_assoc]
    rfl

theorem readCommand_text {command : List Char} (solid : Solid command) (single : '\n' ∉ command)
    (rest : List Char) :
    readCommand 1 (lines (lineText ("test ".toList ++ command) ++ rest)) =
      .ok (String.ofList ("test ".toList ++ command), 2, lines rest) := by
  have front : Solid "test".toList := ⟨⟨'t', _, rfl, by decide⟩, ⟨"tes".toList, 't', rfl, by decide⟩⟩
  have trimmed : trim ("test ".toList ++ command) = "test ".toList ++ command :=
    (front.append [' '] solid).trim_eq
  have shown : isSkipped ("test ".toList ++ command) = false := rfl
  rw [Text.lines_lineText (List.not_mem_append (by decide) single), readCommand,
    Text.trim_dropReturn, trimmed, shown, Text.after?_append]
  rfl

/-- A test file is read as it is written: the command, the standard options with the settings
    applied in order, and the cases in order, each with its label, the number of the line that opens
    it, its record unchanged and its expectations. -/
theorem Source.read_text (source : Source) :
    TestFile.read (String.ofList source.text) = .ok source.file := by
  have counted : 2 + (source.settings.flatMap Setting.line).count '\n' =
      1 + source.header.count '\n' := by
    rw [Source.header, Text.count_single (List.not_mem_append (by decide) source.command_single)]
    omega
  have cases : readCases 2 .between Options.standard []
      (lines (source.settings.flatMap Setting.line ++ source.cases.flatMap CaseSource.text)) =
      .ok (source.file.options, source.file.cases) := by
    have settled : Stage.between.IsSettled := trivial
    rw [readCases_settings, counted, readCases_cases settled]
    rfl
  rw [TestFile.read, String.toList_ofList, Source.text, Source.header, List.append_assoc,
    readCommand_text source.command_solid source.command_single]
  dsimp only [bind, Except.bind]
  rw [cases]
  rfl

end

/-- A source with a record that has a quote and a brace in a string, and a line end between its members. -/
def quotingSource : Source where
  command := "build".toList
  settings :=
    [{  switch := .strictReferences
        value := true
        text := "strict_references".toList
        sets := .bare (by decide)
        single := by decide },
      { switch := .roundtrip
        value := false
        text := "roundtrip ".toList ++ '=' :: " false".toList
        sets := .assigned (by decide) (by decide)
        single := by decide }]
  cases :=
    [{  label := "one".toList
        record := "\x7b\"a\": \"\\\"\x7d\",\n \"b\": \x7b\x7d\x7d".toList
        directives := ["first".toList, "second".toList]
        label_trimmed := by decide
        label_single := by decide
        object := by decide +kernel
        plain := by decide
        directives_trimmed := by decide
        directives_single := by decide }]
  command_solid := ⟨⟨'b', _, rfl, by decide⟩, ⟨"buil".toList, 'd', rfl, by decide⟩⟩
  command_single := by decide

theorem quotingSource_read :
    quotingSource.file = ⟨"test build", ⟨true, true, false⟩,
        [⟨"one", 4, "\x7b\"a\": \"\\\"\x7d\",\n \"b\": \x7b\x7d\x7d", "first\nsecond"⟩]⟩ ∧
      TestFile.read (String.ofList quotingSource.text) = .ok quotingSource.file :=
  ⟨by decide +kernel, quotingSource.read_text⟩

end TestFile

end RegionFlow
