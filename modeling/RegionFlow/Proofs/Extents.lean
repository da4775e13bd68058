/-
Module: RegionFlow.Proofs.Extents
Purpose: How far a JSON object extends. Outside its strings the braces of an object are balanced,
  and its strings end at the first quote that no backslash precedes and have no line break in them.
  This is all that one has to know to find the end of an object line by line.
Main exports: Json.Quoted, Json.Runs, Json.isObject, Json.runs_of_isObject
-/
import Mathlib.Data.List.TakeWhile
import RegionFlow.Json.Skipping

namespace RegionFlow.Json

/-! ### Texts with balanced braces -/

/-- The rest of a string, from behind its opening quote. -/
inductive Quoted : List Char → Prop where
  | closing : Quoted ['"']
  | plain {c : Char} {rest : List Char} (notQuote : c ≠ '"') (notEscape : c ≠ '\\')
      (notBreak : c ≠ '\n') (behind : Quoted rest) : Quoted (c :: rest)
  | escape {c : Char} {rest : List Char} (notBreak : c ≠ '\n') (behind : Quoted rest) :
      Quoted ('\\' :: c :: rest)

/-- A text in whose course braces are opened and closed, from one depth to another, outside strings;
    the outermost brace is not closed. -/
inductive Runs : Nat → List Char → Nat → Prop where
  | nil (depth : Nat) : Runs depth [] depth
  | plain {depth last : Nat} {c : Char} {rest : List Char} (notQuote : c ≠ '"')
      (notOpening : c ≠ '\x7b') (notClosing : c ≠ '\x7d') (behind : Runs depth rest last) :
      Runs depth (c :: rest) last
  | string {depth last : Nat} {body rest : List Char} (quoted : Quoted body)
      (behind : Runs depth rest last) : Runs depth ('"' :: (body ++ rest)) last
  | opening {depth last : Nat} {rest : List Char} (behind : Runs (depth + 1) rest last) :
      Runs depth ('\x7b' :: rest) last
  | closing {depth last : Nat} {rest : List Char} (behind : Runs (depth + 1) rest last) :
      Runs (depth + 2) ('\x7d' :: rest) last

theorem Runs.append {first middle last : Nat} {left right : List Char}
    (front : Runs first left middle) (back : Runs middle right last) :
    Runs first (left ++ right) last := by
  induction front with
  | nil depth => exact back
  | plain notQuote notOpening notClosing _ ih => exact .plain notQuote notOpening notClosing (ih back)
  | string quoted _ ih =>
    rw [List.cons_append, List.append_assoc]
    exact .string quoted (ih back)
  | opening _ ih => exact .opening (ih back)
  | closing _ ih => exact .closing (ih back)

/-- A text that leaves the depth as it is, whatever it is. -/
def Flat (text : List Char) : Prop :=
  ∀ depth, Runs depth text depth

theorem Flat.append {left right : List Char} (front : Flat left) (back : Flat right) :
    Flat (left ++ right) :=
  fun depth => (front depth).append (back depth)

/-- Whether a character neither opens a string nor is a brace. -/
def isNeutral (c : Char) : Bool :=
  c != '"' && c != '\x7b' && c != '\x7d'

theorem flat_of_isNeutral {text : List Char} (neutral : ∀ c ∈ text, isNeutral c = true) : Flat text := by
  intro depth
  induction text with
  | nil => exact .nil depth
  | cons c text ih =>
    obtain ⟨here, later⟩ := List.forall_mem_cons.1 neutral
    have apart : (c ≠ '"' ∧ c ≠ '\x7b') ∧ c ≠ '\x7d' := by simpa [isNeutral] using here
    exact .plain apart.1.1 apart.1.2 apart.2 (ih later)

theorem Quoted.flat {body : List Char} (quoted : Quoted body) : Flat ('"' :: body) := by
  intro depth
  simpa using Runs.string quoted (.nil depth)

/-- Characters that stand for themselves do not end a string. -/
theorem Quoted.prepend {front body : List Char}
    (plain : ∀ c ∈ front, c ≠ '"' ∧ c ≠ '\\' ∧ c ≠ '\n') (quoted : Quoted body) :
    Quoted (front ++ body) := by
  induction front with
  | nil => exact quoted
  | cons c front ih =>
    obtain ⟨⟨notQuote, notEscape, notBreak⟩, later⟩ := List.forall_mem_cons.1 plain
    exact .plain notQuote notEscape notBreak (ih later)

/-! ### What decoders pass -/

namespace Decoder

variable {α β : Type} {cursor after : Cursor}

theorem bind_eq_ok {first : Decoder α} {next : α → Decoder β} {value : β}
    (read : (first >>= next) cursor = .ok value after) :
    ∃ middle state, first cursor = .ok middle state ∧ next middle state = .ok value after := by
  change EStateM.bind first next cursor = .ok value after at read
  unfold EStateM.bind at read
  split at read
  · rename_i middle state readFirst
    exact ⟨middle, state, readFirst, read⟩
  · cases read

theorem failHere_ne_ok {problem : Problem} {value : α} :
    failHere problem cursor ≠ .ok value after := by
  intro read
  cases read

theorem failNext_ne_ok {problem : Problem} {value : α} :
    failNext problem cursor ≠ .ok value after := by
  intro read
  cases read

/-- What is read between two places has a property. -/
def Passes (holds : List Char → Prop) (cursor after : Cursor) : Prop :=
  ∃ taken, cursor.rest = taken ++ after.rest ∧ holds taken

theorem Passes.trans {next : Cursor} (front : Passes Flat cursor next) (back : Passes Flat next after) :
    Passes Flat cursor after := by
  obtain ⟨left, spelled, flat⟩ := front
  obtain ⟨right, behind, flatLater⟩ := back
  exact ⟨left ++ right, by rw [spelled, behind, List.append_assoc], flat.append flatLater⟩

/-- Whatever a decoder reads leaves the depth as it is; `start` is the next character. -/
def TakesFrom (start : Option Char) (decoder : Decoder α) : Prop :=
  ∀ ⦃cursor value after⦄, cursor.rest.head? = start → decoder cursor = .ok value after →
    Passes Flat cursor after

/-- Whatever a decoder reads leaves the depth as it is. -/
def Takes (decoder : Decoder α) : Prop :=
  ∀ start, TakesFrom start decoder

theorem takes_pure (value : α) : Takes (pure value : Decoder α) := by
  intro start cursor other after _ read
  cases read
  exact ⟨[], rfl, Runs.nil⟩

theorem TakesFrom.bind {start : Option Char} {first : Decoder α} {next : α → Decoder β}
    (front : TakesFrom start first) (back : ∀ value, Takes (next value)) :
    TakesFrom start (first >>= next) := by
  intro cursor value after starts read
  obtain ⟨middle, state, readFirst, readNext⟩ := bind_eq_ok read
  exact (front starts readFirst).trans (back middle _ rfl readNext)

theorem Takes.bind {first : Decoder α} {next : α → Decoder β} (front : Takes first)
    (back : ∀ value, Takes (next value)) : Takes (first >>= next) :=
  fun start => (front start).bind back

/-- What is done after looking at the next character may depend on it. -/
theorem takes_peek {next : Option Char → Decoder α} (each : ∀ start, TakesFrom start (next start)) :
    Takes (peek >>= next) := by
  intro start cursor value after starts read
  obtain ⟨middle, state, readFirst, readNext⟩ := bind_eq_ok read
  cases readFirst
  exact each _ rfl readNext

theorem takes_failHere (problem : Problem) : Takes (failHere problem : Decoder α) :=
  fun _ _ _ _ _ read => absurd read failHere_ne_ok

theorem takes_failNext (problem : Problem) : Takes (failNext problem : Decoder α) :=
  fun _ _ _ _ _ read => absurd read failNext_ne_ok

theorem eq_of_peek {next : Option Char} (read : peek cursor = .ok next after) :
    after = cursor ∧ cursor.rest.head? = next := by
  cases read
  exact ⟨rfl, rfl⟩

theorem eq_of_run {accept : Char → Bool} {taken : List Char}
    (read : run accept cursor = .ok taken after) :
    cursor.rest = taken ++ after.rest ∧ ∀ c ∈ taken, accept c = true := by
  cases read
  exact ⟨List.takeWhile_append_dropWhile.symm, fun c => List.mem_takeWhile_imp⟩

theorem takes_run {accept : Char → Bool} (neutral : ∀ c, accept c = true → isNeutral c = true) :
    Takes (run accept) := by
  intro start cursor taken after _ read
  obtain ⟨spelled, accepted⟩ := eq_of_run read
  exact ⟨taken, spelled, flat_of_isNeutral fun c member => neutral c (accepted c member)⟩

theorem rest_of_skip {c : Char} {rest : List Char} {value : Unit} (starts : cursor.rest = c :: rest)
    (read : skip cursor = .ok value after) : after.rest = rest := by
  cases read
  simp [starts]

theorem takesFrom_skip {c : Char} (neutral : isNeutral c = true) : TakesFrom (some c) skip := by
  intro cursor value after starts read
  obtain ⟨rest, spelled⟩ := List.head?_eq_some_iff.1 starts
  refine ⟨[c], by rw [spelled, rest_of_skip spelled read]; rfl, flat_of_isNeutral ?_⟩
  simpa using neutral

/-- A class that has neither quotes nor braces is neutral. -/
theorem isNeutral_of_class {test : Char → Bool}
    (fails : ['"', '\x7b', '\x7d'].any test = false) {c : Char} (passes : test c = true) :
    isNeutral c = true := by
  have apart : ∀ d ∈ ['"', '\x7b', '\x7d'], c ≠ d := by
    rintro d member rfl
    exact Bool.false_ne_true (fails.symm.trans (List.any_eq_true.2 ⟨c, member, passes⟩))
  simpa [isNeutral, and_assoc] using apart

theorem isNeutral_of_isDigit {c : Char} (digit : Text.isDigit c = true) : isNeutral c = true :=
  isNeutral_of_class (by decide) digit

theorem isNeutral_of_isBlank {c : Char} (blank : isBlank c = true) : isNeutral c = true :=
  isNeutral_of_class (by decide) blank

/-! ### Words, numbers and strings -/

theorem takes_word {letters : List Char} (neutral : ∀ c ∈ letters, isNeutral c = true) :
    Takes (word letters) := by
  induction letters with
  | nil => exact takes_pure ()
  | cons c letters ih =>
    obtain ⟨here, later⟩ := List.forall_mem_cons.1 neutral
    refine takes_peek fun start => ?_
    split
    · exact takes_failHere _ _
    · split
      · rename_i same
        rw [same]
        exact (takesFrom_skip here).bind fun _ => ih later
      · exact takes_failNext _ _

theorem takes_digits : Takes (run Text.isDigit) :=
  takes_run fun _ => isNeutral_of_isDigit

/-- The digits of an exponent, behind its mark and its sign. -/
def skipExponentDigits : Decoder Unit := do
  match ← peek with
  | none => failHere .invalidNumber
  | some c =>
    if Text.isDigit c then
      let _ ← run Text.isDigit
    else failNext .invalidNumber

theorem takes_skipExponentDigits : Takes skipExponentDigits := by
  unfold skipExponentDigits
  refine takes_peek fun start => ?_
  split
  · exact takes_failHere _ _
  · split
    · exact takes_digits.bind (fun _ => takes_pure ()) _
    · exact takes_failNext _ _

theorem takesFrom_skipExponent {c : Char} (neutral : isNeutral c = true) :
    TakesFrom (some c) skipExponent := by
  unfold skipExponent
  refine (takesFrom_skip neutral).bind fun _ => takes_peek fun start => ?_
  dsimp only
  split
  · exact (takesFrom_skip (by decide)).bind fun _ => takes_skipExponentDigits
  · exact (takesFrom_skip (by decide)).bind fun _ => takes_skipExponentDigits
  · exact takes_skipExponentDigits _

theorem takes_skipOptionalExponent : Takes skipOptionalExponent := by
  unfold skipOptionalExponent
  refine takes_peek fun start => ?_
  split
  · exact takesFrom_skipExponent (by decide)
  · exact takesFrom_skipExponent (by decide)
  · exact takes_pure () _

/-- What may follow the whole part of a number. -/
def skipFraction : Decoder Unit := do
  match ← peek with
  | some '.' =>
    skip
    let digits ← run Text.isDigit
    if digits.isEmpty then failNext .invalidNumber else skipOptionalExponent
  | _ => skipOptionalExponent

theorem takes_skipFraction : Takes skipFraction := by
  unfold skipFraction
  refine takes_peek fun start => ?_
  split
  · refine (takesFrom_skip (by decide)).bind fun _ => takes_digits.bind fun digits => ?_
    split
    · exact takes_failNext _
    · exact takes_skipOptionalExponent
  · exact takes_skipOptionalExponent _

theorem takes_skipNumber : Takes skipNumber := by
  unfold skipNumber
  refine takes_peek fun start => ?_
  dsimp only
  split
  · exact (takes_failHere _).bind (fun _ => takes_skipFraction) _
  · refine (takesFrom_skip (by decide)).bind fun _ => takes_peek fun next => ?_
    split
    · split
      · exact (takes_failNext _).bind (fun _ => takes_skipFraction) _
      · exact takes_skipFraction _
    · exact takes_skipFraction _
  · split
    · exact takes_digits.bind (fun _ => takes_skipFraction) _
    · exact (takes_failNext _).bind (fun _ => takes_skipFraction) _

theorem isSome_of_hexValue? {digits : List Char} {value : Nat} (read : hexValue? digits = some value) :
    ∀ c ∈ digits, (hexDigit? c).isSome = true := by
  unfold hexValue? at read
  generalize 0 = high at read
  induction digits generalizing high with
  | nil => simp
  | cons c digits ih =>
    rw [List.foldlM_cons] at read
    obtain ⟨next, here, later⟩ := Option.bind_eq_some_iff.1 read
    obtain ⟨digit, found, -⟩ := Option.map_eq_some_iff.1 here
    exact List.forall_mem_cons.2 ⟨by rw [found]; rfl, ih next later⟩

/-- Four hexadecimal digits are passed. -/
theorem exists_of_hexEscape {value : Nat} (read : hexEscape cursor = .ok value after) :
    Passes (fun taken => ∀ c ∈ taken, (hexDigit? c).isSome = true) cursor after := by
  obtain ⟨state, _, got, readDigits⟩ := bind_eq_ok read
  cases got
  dsimp only at readDigits
  split at readDigits
  · obtain ⟨_, _, _, failed⟩ := bind_eq_ok readDigits
    exact absurd failed failHere_ne_ok
  · obtain ⟨_, _, moved, readValue⟩ := bind_eq_ok readDigits
    cases moved
    cases found : (if (cursor.rest.take 4).length = 4 then hexValue? (cursor.rest.take 4) else none) with
    | none =>
      rw [found] at readValue
      exact absurd readValue failHere_ne_ok
    | some code =>
      rw [found] at readValue
      cases readValue
      refine ⟨cursor.rest.take 4, (List.take_append_drop 4 cursor.rest).symm, ?_⟩
      split at found
      · exact isSome_of_hexValue? found
      · cases found

/-- The rest of an escape, from behind its backslash. -/
theorem exists_of_skipEscape {value : Unit} (read : skipEscape cursor = .ok value after) :
    ∃ c taken, cursor.rest = c :: (taken ++ after.rest) ∧ c ≠ '\n' ∧
      ∀ d ∈ taken, d ≠ '"' ∧ d ≠ '\\' ∧ d ≠ '\n' := by
  obtain ⟨next, _, looked, readLetter⟩ := bind_eq_ok read
  obtain ⟨rfl, starts⟩ := eq_of_peek looked
  split at readLetter
  · exact absurd readLetter failHere_ne_ok
  · obtain ⟨rest, spelled⟩ := List.head?_eq_some_iff.1 starts
    obtain ⟨_, behind, skipped, readCode⟩ := bind_eq_ok readLetter
    obtain ⟨code, _, hex, finished⟩ := bind_eq_ok readCode
    cases finished
    obtain ⟨taken, spelledBehind, digits⟩ := exists_of_hexEscape hex
    refine ⟨'u', taken, ?_, by decide, fun d member => ?_⟩
    · rw [spelled, ← spelledBehind, rest_of_skip spelled skipped]
    · have digit := digits d member
      refine ⟨?_, ?_, ?_⟩ <;> rintro rfl <;> exact absurd digit (by decide)
  · rename_i c _
    obtain ⟨rest, spelled⟩ := List.head?_eq_some_iff.1 starts
    split at readLetter
    · rename_i letter
      refine ⟨c, [], ?_, ?_, by simp⟩
      · rw [spelled, rest_of_skip spelled readLetter]
        rfl
      · rintro rfl
        exact absurd letter (by decide)
    · exact absurd readLetter failNext_ne_ok

theorem passes_skipStringRest {steps : Nat} {value : Unit}
    (read : skipStringRest steps cursor = .ok value after) : Passes Quoted cursor after := by
  induction steps generalizing cursor with
  | zero => exact absurd read failHere_ne_ok
  | succ steps ih =>
    obtain ⟨front, behind, ran, readPart⟩ := bind_eq_ok read
    obtain ⟨next, _, looked, readEnd⟩ := bind_eq_ok readPart
    obtain ⟨rfl, starts⟩ := eq_of_peek looked
    obtain ⟨spelled, accepted⟩ := eq_of_run ran
    have plain : ∀ c ∈ front, c ≠ '"' ∧ c ≠ '\\' ∧ c ≠ '\n' := by
      intro c member
      have passes := accepted c member
      refine ⟨?_, ?_, ?_⟩ <;> rintro rfl <;> exact absurd passes (by decide)
    split at readEnd
    · exact absurd readEnd failHere_ne_ok
    · obtain ⟨rest, ends⟩ := List.head?_eq_some_iff.1 starts
      refine ⟨front ++ ['"'], ?_, Quoted.closing.prepend plain⟩
      rw [spelled, ends, rest_of_skip ends readEnd, List.append_assoc]
      rfl
    · obtain ⟨rest, ends⟩ := List.head?_eq_some_iff.1 starts
      obtain ⟨_, inside, skipped, readEscape⟩ := bind_eq_ok readEnd
      obtain ⟨_, later, escaped, readRest⟩ := bind_eq_ok readEscape
      obtain ⟨c, taken, spelledEscape, notBreak, plainCode⟩ := exists_of_skipEscape escaped
      obtain ⟨body, spelledRest, quoted⟩ := ih readRest
      refine ⟨front ++ '\\' :: c :: (taken ++ body), ?_, ?_⟩
      · rw [spelled, ends, ← rest_of_skip ends skipped, spelledEscape, spelledRest]
        simp
      · exact (Quoted.escape notBreak (quoted.prepend plainCode)).prepend plain
    · exact absurd readEnd failHere_ne_ok

theorem takesFrom_skipString : TakesFrom (some '"') skipString := by
  intro cursor value after starts read
  obtain ⟨rest, spelled⟩ := List.head?_eq_some_iff.1 starts
  obtain ⟨_, behind, skipped, readRest⟩ := bind_eq_ok read
  obtain ⟨steps, state, counted, readBody⟩ := bind_eq_ok readRest
  cases counted
  obtain ⟨body, ends, quoted⟩ := passes_skipStringRest readBody
  refine ⟨'"' :: body, ?_, quoted.flat⟩
  rw [spelled, ← rest_of_skip spelled skipped, ends]
  rfl

/-! ### Values -/

theorem exists_of_peekPart {next : Option Char} (read : peekPart cursor = .ok next after) :
    Passes Flat cursor after ∧ after.rest.head? = next := by
  obtain ⟨_, _, ran, looked⟩ := bind_eq_ok read
  obtain ⟨rfl, starts⟩ := eq_of_peek looked
  exact ⟨takes_run (fun _ => isNeutral_of_isBlank) _ rfl ran, starts⟩

theorem takes_peekPart {next : Option Char → Decoder α} (each : ∀ start, TakesFrom start (next start)) :
    Takes (peekPart >>= next) := by
  intro start cursor value after _ read
  obtain ⟨middle, _, looked, readNext⟩ := bind_eq_ok read
  obtain ⟨blanks, starts⟩ := exists_of_peekPart looked
  exact blanks.trans (each middle starts readNext)

/-- The colon behind a key. -/
def skipColon : Decoder Unit := do
  match ← peekPart with
  | some ':' => skip
  | some _ => failNext .expectedColon
  | none => failNext .endInObject

theorem takes_skipColon : Takes skipColon := by
  unfold skipColon
  refine takes_peekPart fun start => ?_
  split
  · exact takesFrom_skip (by decide)
  · exact takes_failNext _ _
  · exact takes_failNext _ _

theorem takes_skipKey : Takes skipKey := by
  unfold skipKey
  refine takes_peekPart fun start => ?_
  dsimp only
  split
  · exact takesFrom_skipString.bind fun _ => takes_skipColon
  · exact (takes_failNext _).bind (fun _ => takes_skipColon) _
  · exact (takes_failNext _).bind (fun _ => takes_skipColon) _

/-- How many braces are open. -/
def objects (frames : List Frame) : Nat :=
  frames.count .object

/-- What is read inside the brackets that are open, after a part. -/
def afterPart (opened : Bool) (frames : List Frame) (steps : Nat) : Decoder Unit := do
  match ← closeFrames (!opened) frames with
  | [] => pure ()
  | .list :: outer => skipParts (.list :: outer) steps
  | .object :: outer => do
    skipKey
    skipParts (.object :: outer) steps

theorem Passes.runs {next : Cursor} {frames inner : List Frame} (blanks : Passes Flat cursor next)
    (rest : Passes (fun taken => Runs (objects frames) taken (objects inner)) next after) :
    Passes (fun taken => Runs (objects frames) taken (objects inner)) cursor after := by
  obtain ⟨left, spelled, flat⟩ := blanks
  obtain ⟨right, behind, runs⟩ := rest
  exact ⟨left ++ right, by rw [spelled, behind, List.append_assoc], (flat _).append runs⟩

/-- A part has been read, and what follows it is read up to a place. -/
def PartRead (frames : List Frame) (steps : Nat) (cursor after : Cursor) : Prop :=
  ∃ state opened inner, Passes (fun taken => Runs (objects frames) taken (objects inner)) cursor state ∧
    (inner = frames ∨ ∃ frame, inner = frame :: frames) ∧
    afterPart opened inner steps state = .ok () after

/-- A part is a value without braces outside its strings, or it opens a bracket. -/
theorem partRead_of_skipParts {frames : List Frame} {steps : Nat} {value : Unit}
    (read : skipParts frames (steps + 1) cursor = .ok value after) :
    PartRead frames steps cursor after := by
  obtain ⟨next, start, looked, readPart⟩ := bind_eq_ok read
  obtain ⟨blanks, starts⟩ := exists_of_peekPart looked
  -- a value without braces
  have leaf : ∀ {state : Cursor}, Passes Flat start state →
      afterPart false frames steps state = .ok value after → PartRead frames steps cursor after := by
    intro state passed readRest
    obtain ⟨taken, spelled, flat⟩ := blanks.trans passed
    exact ⟨state, false, frames, ⟨taken, spelled, flat _⟩, .inl rfl, readRest⟩
  -- a word
  have words : ∀ {c : Char} {letters : List Char}, next = some c → isNeutral c = true →
      (∀ d ∈ letters, isNeutral d = true) →
      (skip >>= fun _ => word letters >>= fun _ => pure (false, frames) >>= fun part =>
        afterPart part.1 part.2 steps) start = .ok value after → PartRead frames steps cursor after := by
    intro c letters same neutral neutralLetters readWord
    obtain ⟨_, behind, skipped, readLetters⟩ := bind_eq_ok readWord
    obtain ⟨_, state, spelled, readRest⟩ := bind_eq_ok readLetters
    have first := takesFrom_skip neutral (starts.trans same) skipped
    exact leaf (first.trans (takes_word neutralLetters _ rfl spelled)) readRest
  dsimp only at readPart
  split at readPart
  · obtain ⟨_, _, failed, -⟩ := bind_eq_ok readPart
    exact absurd failed failNext_ne_ok
  · exact words rfl (by decide) (List.all_eq_true.1 (by decide)) readPart
  · exact words rfl (by decide) (List.all_eq_true.1 (by decide)) readPart
  · exact words rfl (by decide) (List.all_eq_true.1 (by decide)) readPart
  · obtain ⟨_, behind, skipped, readNumber⟩ := bind_eq_ok readPart
    obtain ⟨_, state, passed, readRest⟩ := bind_eq_ok readNumber
    have sign := takesFrom_skip (by decide) starts skipped
    exact leaf (sign.trans (takes_skipNumber _ rfl passed)) readRest
  · obtain ⟨_, state, passed, readRest⟩ := bind_eq_ok readPart
    exact leaf (takesFrom_skipString starts passed) readRest
  · obtain ⟨_, state, skipped, readRest⟩ := bind_eq_ok readPart
    obtain ⟨taken, spelled, flat⟩ := takesFrom_skip (by decide) starts skipped
    refine ⟨state, true, .list :: frames, blanks.runs ⟨taken, spelled, ?_⟩, .inr ⟨_, rfl⟩, readRest⟩
    simpa [objects] using flat (objects frames)
  · obtain ⟨_, state, skipped, readRest⟩ := bind_eq_ok readPart
    obtain ⟨rest, spelled⟩ := List.head?_eq_some_iff.1 starts
    refine ⟨state, true, .object :: frames, blanks.runs ⟨['\x7b'], ?_, ?_⟩, .inr ⟨_, rfl⟩, readRest⟩
    · rw [spelled, rest_of_skip spelled skipped]
      rfl
    · rw [objects, objects, List.count_cons_self]
      exact .opening (.nil _)
  · split at readPart
    · obtain ⟨_, state, passed, readRest⟩ := bind_eq_ok readPart
      exact leaf (takes_skipNumber _ rfl passed) readRest
    · obtain ⟨_, _, failed, -⟩ := bind_eq_ok readPart
      exact absurd failed failNext_ne_ok

/-- The brackets that are open, of which the outermost is a brace. -/
def IsInside (frames : List Frame) : Prop :=
  frames.getLast? = some .object

theorem IsInside.objects_pos {frames : List Frame} (inside : IsInside frames) : 0 < objects frames :=
  List.count_pos_iff.2 (List.mem_of_getLast? inside)

theorem isInside_cons {frame : Frame} {frames : List Frame} (inside : IsInside frames) :
    IsInside (frame :: frames) := by
  cases frames with
  | nil => cases inside
  | cons next frames => simpa [IsInside, List.getLast?_cons_cons] using inside

/-- The rest of an object: its last character is the brace that closes it. -/
def Closes (depth : Nat) (text : List Char) : Prop :=
  ∃ body, text = body ++ ['\x7d'] ∧ Runs depth body 1

theorem Closes.prepend {first depth : Nat} {left right : List Char} (front : Runs first left depth)
    (rest : Closes depth right) : Closes first (left ++ right) := by
  obtain ⟨body, rfl, runs⟩ := rest
  exact ⟨left ++ body, (List.append_assoc ..).symm, front.append runs⟩

/-- Closing brackets ends the object, or it leaves brackets inside it open. -/
theorem closes_of_closeFrames {mayContinue : Bool} {frames left : List Frame} (inside : IsInside frames)
    (read : closeFrames mayContinue frames cursor = .ok left after) :
    (left = [] ∧ Passes (Closes (objects frames)) cursor after) ∨
      (IsInside left ∧ Passes (fun taken => Runs (objects frames) taken (objects left)) cursor after) := by
  induction frames generalizing mayContinue cursor with
  | nil => cases inside
  | cons frame outer ih =>
    obtain ⟨next, start, looked, readEnd⟩ := bind_eq_ok read
    obtain ⟨⟨blanks, spelled, flat⟩, starts⟩ := exists_of_peekPart looked
    -- behind a bracket that is closed, the next one may be closed as well
    have onward : ∀ {state : Cursor} {taken : List Char}, start.rest = taken ++ state.rest →
        Runs (objects (frame :: outer)) taken (objects outer) → IsInside outer →
        closeFrames true outer state = .ok left after →
        (left = [] ∧ Passes (Closes (objects (frame :: outer))) cursor after) ∨
          (IsInside left ∧
            Passes (fun taken => Runs (objects (frame :: outer)) taken (objects left)) cursor after) := by
      intro state taken behind closed inside readRest
      have runs := (flat _).append closed
      rcases ih inside readRest with ⟨ended, rest, tail, closes⟩ | ⟨inside, rest, tail, later⟩
      · exact .inl ⟨ended, (blanks ++ taken) ++ rest, by simp [spelled, behind, tail], closes.prepend runs⟩
      · exact .inr ⟨inside, (blanks ++ taken) ++ rest, by simp [spelled, behind, tail], runs.append later⟩
    have stay : ∀ problem : Problem,
        (if mayContinue then failNext problem else pure (frame :: outer)) start = .ok left after →
        (left = [] ∧ Passes (Closes (objects (frame :: outer))) cursor after) ∨
          (IsInside left ∧
            Passes (fun taken => Runs (objects (frame :: outer)) taken (objects left)) cursor after) := by
      intro problem readStay
      split at readStay
      · exact absurd readStay failNext_ne_ok
      · cases readStay
        exact .inr ⟨inside, blanks, spelled, flat _⟩
    split at readEnd
    · rename_i c
      obtain ⟨rest, behind⟩ := List.head?_eq_some_iff.1 starts
      have moved : ∀ {state : Cursor} {value : Unit}, skip start = .ok value state →
          start.rest = [c] ++ state.rest := by
        intro state value skipped
        rw [behind, rest_of_skip behind skipped]
        rfl
      split at readEnd
      · rename_i continues
        obtain ⟨_, state, skipped, finished⟩ := bind_eq_ok readEnd
        cases finished
        have comma : c = ',' := by simpa using (Bool.and_eq_true_iff.1 continues).1
        refine .inr ⟨inside, blanks ++ [c], by rw [spelled, moved skipped, List.append_assoc], ?_⟩
        apply (flat _).append
        rw [comma]
        exact .plain (by decide) (by decide) (by decide) (.nil _)
      · -- a bracket of the kind that is innermost closes it
        cases frame with
        | list =>
          dsimp only at readEnd
          split at readEnd
          · rename_i closes
            obtain ⟨_, state, skipped, readRest⟩ := bind_eq_ok readEnd
            have insideOuter : IsInside outer := by
              cases outer with
              | nil => cases inside
              | cons next outer => simpa [IsInside, List.getLast?_cons_cons] using inside
            refine onward (moved skipped) ?_ insideOuter readRest
            rw [closes, objects, objects, List.count_cons_of_ne (by decide)]
            exact .plain (by decide) (by decide) (by decide) (.nil _)
          · exact stay _ readEnd
        | object =>
          dsimp only at readEnd
          split at readEnd
          · rename_i closes
            obtain ⟨_, state, skipped, readRest⟩ := bind_eq_ok readEnd
            cases outer with
            | nil =>
              cases readRest
              refine .inl ⟨rfl, blanks ++ ['\x7d'], ?_, blanks, rfl, flat 1⟩
              rw [spelled, moved skipped, closes, List.append_assoc]
            | cons next outer =>
              have insideOuter : IsInside (next :: outer) := by
                simpa [IsInside, List.getLast?_cons_cons] using inside
              obtain ⟨depth, counted⟩ := Nat.exists_eq_succ_of_ne_zero insideOuter.objects_pos.ne'
              have more : objects (.object :: next :: outer) = depth + 2 := by
                rw [objects, List.count_cons_self, ← objects, counted]
              refine onward (moved skipped) ?_ insideOuter readRest
              rw [closes, more, counted]
              exact .closing (.nil _)
          · exact stay _ readEnd
    · exact absurd readEnd failNext_ne_ok

/-- After a part, too, reading ends with the brace that closes the object, if it does after the
    parts behind. -/
theorem closes_of_afterPart {steps : Nat} {opened : Bool} {frames : List Frame} {value : Unit}
    (parts : ∀ {frames : List Frame} {cursor : Cursor}, IsInside frames →
      skipParts frames steps cursor = .ok value after → Passes (Closes (objects frames)) cursor after)
    (inside : IsInside frames) (read : afterPart opened frames steps cursor = .ok value after) :
    Passes (Closes (objects frames)) cursor after := by
  obtain ⟨left, state, closed, readRest⟩ := bind_eq_ok read
  rcases closes_of_closeFrames inside closed with ⟨rfl, passes⟩ | ⟨insideLeft, taken, spelled, runs⟩
  · cases readRest
    exact passes
  · have onward : ∀ {next : Cursor}, Passes Flat state next → skipParts left steps next = .ok value after →
        Passes (Closes (objects frames)) cursor after := by
      intro next key readParts
      obtain ⟨between, behind, flat⟩ := key
      obtain ⟨rest, ending, closes⟩ := parts insideLeft readParts
      refine ⟨taken ++ (between ++ rest), ?_, (closes.prepend (flat _)).prepend runs⟩
      rw [spelled, behind, ending, List.append_assoc, List.append_assoc]
    split at readRest
    · cases insideLeft
    · exact onward ⟨[], rfl, Runs.nil⟩ readRest
    · obtain ⟨_, next, key, readParts⟩ := bind_eq_ok readRest
      exact onward (takes_skipKey _ rfl key) readParts

/-- Reading inside an object ends with the brace that closes it. -/
theorem closes_of_skipParts {steps : Nat} {frames : List Frame} {value : Unit} (inside : IsInside frames)
    (read : skipParts frames steps cursor = .ok value after) :
    Passes (Closes (objects frames)) cursor after := by
  induction steps generalizing frames cursor with
  | zero => exact absurd read failNext_ne_ok
  | succ steps ih =>
    obtain ⟨state, opened, inner, ⟨taken, spelled, runs⟩, grown, readRest⟩ := partRead_of_skipParts read
    have insideInner : IsInside inner := by
      rcases grown with rfl | ⟨frame, rfl⟩
      · exact inside
      · exact isInside_cons inside
    have rest := closes_of_afterPart (fun inside read => ih inside read) insideInner readRest
    obtain ⟨later, behind, closes⟩ := rest
    exact ⟨taken ++ later, by rw [spelled, behind, List.append_assoc], closes.prepend runs⟩

end Decoder

/-- Whether a text is an object, from its opening to its closing brace. -/
def isObject (text : List Char) : Bool :=
  text.head? == some '\x7b' &&
    match Decoder.skipValue ⟨text, 0⟩ with
    | .ok _ after => after.rest.isEmpty
    | .error _ _ => false

/-- Between its first and its last brace, an object has balanced braces. -/
theorem runs_of_isObject {text : List Char} (object : isObject text = true) :
    ∃ body, text = '\x7b' :: (body ++ ['\x7d']) ∧ Runs 1 body 1 := by
  obtain ⟨starts, passed⟩ := Bool.and_eq_true_iff.1 object
  obtain ⟨rest, rfl⟩ := List.head?_eq_some_iff.1 (beq_iff_eq.1 starts)
  cases read : Decoder.skipValue ⟨'\x7b' :: rest, 0⟩ with
  | error fault after => simp [read] at passed
  | ok value after =>
    have ended : after.rest = [] := by simpa [read] using passed
    obtain ⟨steps, _, counted, readParts⟩ := Decoder.bind_eq_ok read
    cases counted
    -- the first part is the brace that opens the object
    have inside : Decoder.afterPart true [.object] (rest.length + 1) ⟨rest, 1⟩ = .ok value after := readParts
    have outermost : Decoder.IsInside [.object] := rfl
    obtain ⟨taken, spelled, body, rfl, runs⟩ :=
      Decoder.closes_of_afterPart Decoder.closes_of_skipParts outermost inside
    rw [ended, List.append_nil] at spelled
    exact ⟨body, by rw [← spelled], runs⟩

end RegionFlow.Json
