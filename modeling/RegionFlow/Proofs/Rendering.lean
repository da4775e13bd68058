/-
Module: RegionFlow.Proofs.Rendering
Purpose: Parts of polyhedral text are read back from their written form. Writing normalises blanks
  and commas, completes tuples and drops what is empty, but keeps the brackets and brings no
  separator outside brackets, so the cuts of the reader fall where the writer put them. This module
  has dimensions, tuples and pieces.
Main exports: Polyhedral.Recast, Polyhedral.RegularDims, Polyhedral.Tuple.Regular,
  Polyhedral.Piece.Regular, Polyhedral.Piece.Regular.read, Polyhedral.regular_of_readPiece
-/
import Mathlib.Data.Bool.AllAny
import RegionFlow.Polyhedral.Reading
import RegionFlow.Proofs.Nesting
import RegionFlow.Proofs.Sequencing

namespace RegionFlow.Polyhedral

open Text Sequencing

/-! ### Rewritten texts -/

/-- Whether a character is a brace. -/
def isBrace (c : Char) : Bool :=
  c == '\x7b' || c == '\x7d'

/-- A text is written anew: the level and the braces stay, and no separator is seen that was not
    seen before, unless it has one of the characters that are added. -/
structure Recast (added text new : List Char) : Prop where
  weigh : weigh bracketWeight new = weigh bracketWeight text
  braces : new.filter isBrace = text.filter isBrace
  uncut : ∀ {mark : Char} {tail : List Char} {level : Int}, (∀ c ∈ mark :: tail, c ∉ added) →
    Uncut bracketWeight (mark :: tail) level text → Uncut bracketWeight (mark :: tail) level new

namespace Recast

variable {added text new : List Char}

theorem refl (added text : List Char) : Recast added text text :=
  ⟨rfl, rfl, fun _ uncut => uncut⟩

theorem trans {next : List Char} (first : Recast added text new) (second : Recast added new next) :
    Recast added text next :=
  ⟨second.weigh.trans first.weigh, second.braces.trans first.braces,
    fun apart uncut => second.uncut apart (first.uncut apart uncut)⟩

theorem isBrace_of_isBlank {c : Char} (blank : isBlank c = true) : isBrace c = false := by
  rw [Bool.eq_false_iff]
  intro brace
  have either : c = '\x7b' ∨ c = '\x7d' := by simpa [isBrace] using brace
  rcases either with rfl | rfl
  · exact absurd blank (by decide)
  · exact absurd blank (by decide)

theorem trim (added text : List Char) : Recast added text (Text.trim text) :=
  ⟨weigh_trim text, filter_trim (fun _ => isBrace_of_isBlank) text, fun _ uncut => uncut.trim⟩

/-- A text without effect can be left out. -/
theorem erase (added : List Char) (flat : Text.weigh bracketWeight text = 0)
    (braceless : text.filter isBrace = []) : Recast added text [] :=
  ⟨flat.symm, braceless.symm, fun _ _ => trivial⟩

/-- What has no effect behind a text can be left out. -/
theorem drop (front : Recast added text new) {rest : List Char}
    (flat : Text.weigh bracketWeight rest = 0) (braceless : rest.filter isBrace = []) :
    Recast added (text ++ rest) new where
  weigh := by rw [weigh_append, flat, Int.add_zero, front.weigh]
  braces := by rw [List.filter_append, braceless, List.append_nil, front.braces]
  uncut := fun apart uncut => front.uncut apart uncut.of_append.1

/-- Two texts are written anew, and so is what stands between them. -/
theorem glue (front : Recast added text new) (old between : List Char) {back newBack : List Char}
    (rest : Recast added back newBack)
    (flat : Text.weigh bracketWeight between = Text.weigh bracketWeight old)
    (braces : between.filter isBrace = old.filter isBrace) (known : ∀ c ∈ between, c ∈ added)
    (some : between ≠ []) :
    Recast added (text ++ (old ++ back)) (new ++ (between ++ newBack)) where
  weigh := by simp only [weigh_append, front.weigh, rest.weigh, flat]
  braces := by simp only [List.filter_append, front.braces, rest.braces, braces]
  uncut := by
    intro mark tail level apart uncut
    obtain ⟨start, behind⟩ := uncut.of_append
    have ending := behind.of_append.2
    apply (front.uncut apart start).append
    · apply Uncut.prepend fun member => apart mark List.mem_cons_self (known mark member)
      rw [front.weigh, flat]
      exact rest.uncut apart ending
    · intro c first member
      rw [List.head?_append_of_ne_nil _ some] at first
      exact apart c (List.mem_cons_of_mem mark member) (known c (List.mem_of_mem_head? first))

/-- Something is written behind a text, where the text had something else or nothing. -/
theorem ended (front : Recast added text new) (old ending : List Char)
    (flat : Text.weigh bracketWeight ending = Text.weigh bracketWeight old)
    (braces : ending.filter isBrace = old.filter isBrace) (known : ∀ c ∈ ending, c ∈ added)
    (some : ending ≠ []) : Recast added (text ++ old) (new ++ ending) := by
  simpa using front.glue old ending (refl added []) flat braces known some

end Recast

/-! ### Dimensions -/

/-- Texts as a reader of dimensions finds them. -/
structure RegularDims (dims : List String) : Prop where
  separated : Separated bracketWeight [','] (dims.map String.toList)
  solid : ∀ dim ∈ dims, Solid dim.toList

/-- Written form of dimensions. -/
def dimsText (dims : List String) : List Char :=
  join ", ".toList (dims.map String.toList)

/-- Parts, all but the first with a blank before them. -/
def spaced : List (List Char) → List (List Char)
  | [] => []
  | part :: parts => part :: parts.map (' ' :: ·)

theorem join_spaced (separator : List Char) (parts : List (List Char)) :
    join separator (spaced parts) = join (separator ++ [' ']) parts := by
  induction parts with
  | nil => rfl
  | cons part parts ih =>
    cases parts with
    | nil => rfl
    | cons next parts =>
      have pushed : join separator ((' ' :: next) :: parts.map (' ' :: ·)) =
          ' ' :: join separator (spaced (next :: parts)) := by
        cases parts <;> rfl
      rw [join_cons _ _ (List.cons_ne_nil next parts), ← ih]
      simp [spaced, join_cons, pushed]

theorem separated_spaced {mark : Char} {tail : List Char} {parts : List (List Char)}
    (other : ' ' ≠ mark) (separated : Separated bracketWeight (mark :: tail) parts) :
    Separated bracketWeight (mark :: tail) (spaced parts) := by
  cases parts with
  | nil => exact separated
  | cons part parts =>
    have moved : Separated bracketWeight (mark :: tail) (parts.map (' ' :: ·)) := by
      apply (separated.sublist (List.sublist_cons_self part parts)).map
      · intro part uncut
        exact .cons other uncut
      · intro part
        exact Int.zero_add _
    obtain ⟨first, -⟩ := List.forall_mem_cons.1 separated.uncut
    obtain ⟨flat, -⟩ := List.pairwise_cons.1 separated.level
    refine ⟨List.forall_mem_cons.2 ⟨first, moved.uncut⟩, List.pairwise_cons.2 ⟨?_, moved.level⟩⟩
    intro next member
    obtain ⟨old, listed, rfl⟩ := List.mem_map.1 member
    exact flat old listed

theorem map_trim_spaced {parts : List (List Char)} (solid : ∀ part ∈ parts, Solid part) :
    (spaced parts).map trim = parts := by
  have trimmed : ∀ part, Solid part → trim (' ' :: part) = part := by
    intro part solid
    have front : ∀ c ∈ [' '], isBlank c = true := List.forall_mem_singleton.2 rfl
    have back : ∀ c ∈ ([] : List Char), isBlank c = true := by simp
    simpa using solid.trim_between front back
  cases parts with
  | nil => rfl
  | cons part parts =>
    obtain ⟨first, later⟩ := List.forall_mem_cons.1 solid
    rw [spaced, List.map_cons, first.trim_eq, List.map_map, List.cons_inj_right]
    have same : ∀ next ∈ parts, (trim ∘ (' ' :: ·)) next = id next :=
      fun next member => trimmed next (later next member)
    rw [List.map_congr_left same, List.map_id]

theorem toList_readDims (text : List Char) :
    (readDims text).map String.toList =
      ((splitTop [','] text).map trim).filter fun dim => !dim.isEmpty := by
  simp [readDims, Function.comp_def]

theorem regular_readDims (text : List Char) : RegularDims (readDims text) := by
  constructor
  · rw [toList_readDims]
    have cut : Separated bracketWeight [','] (splitTop [','] text) :=
      separated_splitAtLevel rfl text
    exact (cut.map Uncut.trim weigh_trim).sublist List.filter_sublist
  · intro dim member
    have kept : dim.toList ∈ (readDims text).map String.toList := List.mem_map_of_mem member
    rw [toList_readDims, List.mem_filter, List.mem_map] at kept
    obtain ⟨⟨part, -, trimmed⟩, some⟩ := kept
    rw [← trimmed] at some ⊢
    exact solid_trim (by simpa using some)

/-- Dimensions are read back. -/
theorem RegularDims.read {dims : List String} (regular : RegularDims dims) :
    readDims (dimsText dims) = dims := by
  have solid : ∀ part ∈ dims.map String.toList, Solid part := by
    simpa using regular.solid
  have cut : dims ≠ [] → splitTop [','] (dimsText dims) = spaced (dims.map String.toList) := by
    intro some
    have spelled : dimsText dims = join [','] (spaced (dims.map String.toList)) :=
      (join_spaced [','] _).symm
    rw [splitTop, spelled]
    apply splitAtLevel_join (by simp) rfl (separated_spaced (by decide) regular.separated)
    cases dims with
    | nil => exact absurd rfl some
    | cons dim dims => exact List.cons_ne_nil _ _
  have kept : ∀ part ∈ dims.map String.toList, (!part.isEmpty) = true := by
    intro part member
    simpa using (solid part member).ne_nil
  cases dims with
  | nil => rfl
  | cons dim dims =>
    rw [readDims, cut (List.cons_ne_nil _ _), map_trim_spaced solid, List.filter_eq_self.2 kept]
    simp [Function.comp_def]

theorem filter_dimsText {keep : Char → Bool} (comma : keep ',' = false)
    (dropped : ∀ c, isBlank c = true → keep c = false) (text : List Char) :
    (dimsText (readDims text)).filter keep = text.filter keep := by
  have glue : ∀ c ∈ ", ".toList, keep c = false := by
    simpa using ⟨comma, dropped ' ' (by decide)⟩
  -- a part that is left out is blank
  have each : ∀ parts : List (List Char),
      ((parts.map trim).filter fun dim => !dim.isEmpty).flatMap (List.filter keep) =
        parts.flatMap (List.filter keep) := by
    intro parts
    induction parts with
    | nil => rfl
    | cons part parts ih =>
      have same := filter_trim dropped part
      rw [List.map_cons, List.filter_cons, List.flatMap_cons, ← same]
      split
      · rw [List.flatMap_cons, ih]
      · rename_i nothing
        have empty : trim part = [] := by simpa using nothing
        rw [empty, ih]
        rfl
  rw [dimsText, toList_readDims, filter_join glue, each]
  have whole : join [','] (splitTop [','] text) = text := join_splitAtLevel (by simp) 0 0 text
  conv_rhs => rw [← whole]
  rw [filter_join (by simpa using comma)]

/-- Reading dimensions and writing them drops blanks and commas. -/
theorem recast_dimsText {added : List Char} (comma : ',' ∈ added) (blank : ' ' ∈ added)
    (text : List Char) : Recast added text (dimsText (readDims text)) where
  weigh := by
    have others : ∀ c, decide (bracketWeight c ≠ 0) = false → bracketWeight c = 0 := by simp
    have blanks : ∀ c, isBlank c = true → decide (bracketWeight c ≠ 0) = false := by
      intro c blank
      simp [bracketWeight_of_isBlank blank]
    rw [← weigh_filter others, filter_dimsText rfl blanks, weigh_filter others]
  braces := filter_dimsText rfl (fun _ => Recast.isBrace_of_isBlank) text
  uncut := by
    intro mark tail level apart uncut
    have whole : join [','] (splitTop [','] text) = text := join_splitAtLevel (by simp) 0 0 text
    have cut : Separated bracketWeight [','] (splitTop [','] text) := separated_splitAtLevel rfl text
    have parts := uncut_of_join cut.level rfl (by rw [whole]; exact uncut)
    apply uncut_join (regular_readDims text).separated.level rfl _ (by decide)
    · intro part member
      rw [toList_readDims, List.mem_filter, List.mem_map] at member
      obtain ⟨⟨old, listed, rfl⟩, -⟩ := member
      exact (parts old listed).trim
    · intro c member inside
      have known : c = ',' ∨ c = ' ' := by simpa using inside
      rcases known with rfl | rfl
      · exact apart _ member comma
      · exact apart _ member blank

/-! ### Tuples -/

theorem join_eq_intercalate (separator : List Char) (parts : List (List Char)) :
    join separator parts = separator.intercalate parts := by
  induction parts with
  | nil => rfl
  | cons part parts ih =>
    cases parts with
    | nil => simp [join]
    | cons next parts =>
      rw [join_cons _ _ (List.cons_ne_nil _ _), ih, List.intercalate_cons_cons]

namespace Tuple

/-- Written form of a tuple, as a text. -/
def text (tuple : Tuple) : List Char :=
  (tuple.name.getD "").toList ++ ('[' :: (dimsText tuple.dims ++ [']']))

theorem toList_render (tuple : Tuple) : tuple.render.toList = tuple.text := by
  simp [render, text, join_eq_intercalate, dimsText]

/-- A tuple as a reader of tuples finds it. -/
structure Regular (tuple : Tuple) : Prop where
  name : ∀ name ∈ tuple.name, Solid name.toList ∧ '[' ∉ name.toList
  dims : RegularDims tuple.dims

variable {tuple : Tuple}

theorem Regular.solid (regular : tuple.Regular) : Solid tuple.text := by
  constructor
  · cases named : tuple.name with
    | none => exact ⟨'[', dimsText tuple.dims ++ [']'], by simp [text, named], by decide⟩
    | some name =>
      obtain ⟨c, rest, spelled, solid⟩ := (regular.name name named).1.starts
      exact ⟨c, rest ++ '[' :: (dimsText tuple.dims ++ [']']), by simp [text, named, spelled], solid⟩
  · refine ⟨(tuple.name.getD "").toList ++ '[' :: dimsText tuple.dims, ']', ?_, by decide⟩
    simp [text]

end Tuple

theorem nameOf?_toList {name : Option String} (solid : ∀ text ∈ name, text.toList ≠ []) :
    nameOf? (name.getD "").toList = name := by
  cases name with
  | none => rfl
  | some text =>
    have some : text.toList.isEmpty = false := by simpa using solid text rfl
    rw [nameOf?, Option.getD_some, some, if_neg Bool.false_ne_true, String.ofList_toList]

/-- A tuple is read back, with blanks around it. -/
theorem Tuple.Regular.read {tuple : Tuple} (regular : tuple.Regular) {front back : List Char}
    (before : ∀ c ∈ front, isBlank c = true) (after : ∀ c ∈ back, isBlank c = true) :
    readTuple (front ++ tuple.text ++ back) = .ok tuple := by
  have cut : splitOnce '[' tuple.text =
      some ((tuple.name.getD "").toList, dimsText tuple.dims ++ [']']) := by
    apply splitOnce_append
    cases named : tuple.name with
    | none => simp
    | some name => exact (regular.name name named).2
  have trimmed : trim (tuple.name.getD "").toList = (tuple.name.getD "").toList := by
    cases named : tuple.name with
    | none => rfl
    | some name => exact (regular.name name named).1.trim_eq
  have named : nameOf? (tuple.name.getD "").toList = tuple.name :=
    nameOf?_toList fun name member => (regular.name name member).1.ne_nil
  have closed : tuple.text.getLast? = some ']' := by simp [Tuple.text, List.getLast?_cons]
  rw [readTuple, regular.solid.trim_between before after, cut]
  dsimp only
  rw [if_pos closed, trimmed, named, List.dropLast_concat, regular.dims.read]

theorem toList_nameOf? (text : List Char) : ((nameOf? text).getD "").toList = text := by
  cases text with
  | nil => rfl
  | cons c text => simp [nameOf?]

/-- A name that is read is trimmed. -/
theorem solid_of_nameOf? {text : List Char} {name : String} (named : nameOf? (trim text) = some name) :
    Solid name.toList ∧ name.toList = trim text := by
  have spelled : name.toList = trim text := by
    have same := toList_nameOf? (trim text)
    rwa [named] at same
  refine ⟨?_, spelled⟩
  rw [spelled]
  apply solid_trim
  intro nothing
  rw [nothing] at named
  cases named

/-- A tuple that is read is regular, and writing it keeps the level and the braces. -/
theorem regular_of_readTuple (added : List Char) {text : List Char} {tuple : Tuple}
    (read : readTuple text = .ok tuple) (known : ∀ c ∈ ['[', ']', ',', ' '], c ∈ added) :
    tuple.Regular ∧ Recast added text tuple.text := by
  simp only [List.forall_mem_cons, List.not_mem_nil, false_implies, implies_true, and_true] at known
  obtain ⟨opening, closing, comma, blank⟩ := known
  rw [readTuple] at read
  cases cut : splitOnce '[' (trim text) with
  | none =>
    rw [cut] at read
    cases read
    have absent := splitOnce_eq_none_iff.1 cut
    refine ⟨⟨fun name named => ?_, ?_⟩, (Recast.trim added text).trans ?_⟩
    · obtain ⟨solid, spelled⟩ := solid_of_nameOf? named
      exact ⟨solid, by rw [spelled]; exact absent⟩
    · exact ⟨⟨by simp, by simp⟩, by simp⟩
    · have written : Tuple.text ⟨nameOf? (trim text), []⟩ = trim text ++ ['[', ']'] := by
        rw [Tuple.text, toList_nameOf?]
        rfl
      rw [written]
      have completed := (Recast.refl added (trim text)).ended [] ['[', ']'] rfl rfl
        (by simpa using ⟨opening, closing⟩) (by simp)
      simpa using completed
  | some parts =>
    obtain ⟨name, rest⟩ := parts
    rw [cut] at read
    dsimp only at read
    split at read
    · rename_i closed
      cases read
      obtain ⟨spelled, absent⟩ := splitOnce_eq_some cut
      obtain ⟨inside, rfl⟩ : ∃ inside, rest = inside ++ [']'] := by
        rcases List.eq_nil_or_concat rest with rfl | ⟨inside, last, rfl⟩
        · simp [spelled] at closed
        · exact ⟨inside, by simpa [spelled, List.getLast?_cons] using closed⟩
      rw [List.dropLast_concat]
      refine ⟨⟨fun name named => ?_, regular_readDims inside⟩, (Recast.trim added text).trans ?_⟩
      · obtain ⟨solid, same⟩ := solid_of_nameOf? named
        exact ⟨solid, by rw [same]; exact fun member => absent (mem_of_mem_trim member)⟩
      · rw [spelled, Tuple.text, toList_nameOf?]
        have dims := (recast_dimsText comma blank inside).ended [']'] [']'] rfl rfl
          (by simpa using closing) (by simp)
        exact (Recast.trim added name).glue ['['] ['['] dims rfl rfl (by simpa using opening) (by simp)
    · cases read

/-! ### Pieces -/

namespace Piece

/-- The tuples of a piece, input first. -/
def tuples (piece : Piece) : List Tuple :=
  piece.input :: piece.output.toList

/-- Written form of the tuples of a piece. -/
def head (piece : Piece) : List Char :=
  join " -> ".toList (piece.tuples.map Tuple.text)

/-- Written form of a piece, as a text. -/
def text (piece : Piece) : List Char :=
  if piece.isAnonymous then ':' :: piece.constraints.toList.flatMap fun words => ' ' :: words.toList
  else piece.head ++ piece.constraints.toList.flatMap fun words => " : ".toList ++ words.toList

theorem toList_render (piece : Piece) : piece.render.toList = piece.text := by
  unfold render text head tuples
  cases piece.isAnonymous with
  | true => cases piece.constraints <;> simp
  | false =>
    cases piece.output <;> cases piece.constraints <;> simp [join, Tuple.toList_render]

/-- A piece as a reader of pieces finds it. -/
structure Regular (piece : Piece) : Prop where
  tuples : ∀ tuple ∈ piece.tuples, tuple.Regular
  /-- Arrows are seen between the tuples only. -/
  arrows : Separated bracketWeight "->".toList (piece.tuples.map Tuple.text)
  /-- Colons are seen behind the tuples only. -/
  colons : Uncut bracketWeight [':'] 0 piece.head
  constraints : ∀ words ∈ piece.constraints,
    Solid words.toList ∧ weigh bracketWeight piece.head = 0

variable {piece : Piece}

theorem Regular.solid_head (regular : piece.Regular) : Solid piece.head := by
  apply solid_join _ (by simp [Piece.tuples])
  intro part member
  obtain ⟨tuple, listed, rfl⟩ := List.mem_map.1 member
  exact (regular.tuples tuple listed).solid

theorem Regular.solid (regular : piece.Regular) : Solid piece.text := by
  have colon : Solid [':'] := ⟨⟨':', [], rfl, by decide⟩, [], ':', rfl, by decide⟩
  unfold text
  cases piece.isAnonymous with
  | true =>
    cases given : piece.constraints with
    | none => exact colon
    | some words => simpa using colon.append [' '] (regular.constraints words given).1
  | false =>
    cases given : piece.constraints with
    | none => simpa using regular.solid_head
    | some words =>
      simpa using regular.solid_head.append " : ".toList (regular.constraints words given).1

end Piece

/-- Without a colon outside brackets there are no constraints. -/
theorem cutConstraints_of_uncut {text : List Char} (uncut : Uncut bracketWeight [':'] 0 text) :
    cutConstraints text = (text, none) := by
  rw [cutConstraints, splitTop, splitAtLevel_of_uncut uncut]
  rfl

/-- The constraints stand behind the first colon outside brackets. -/
theorem cutConstraints_append {head : List Char} (uncut : Uncut bracketWeight [':'] 0 head)
    (flat : weigh bracketWeight head = 0) (rest : List Char) :
    cutConstraints (head ++ ':' :: rest) = (head, nameOf? (trim rest)) := by
  have cut : splitTop [':'] (head ++ ':' :: rest) = head :: splitTop [':'] rest :=
    splitAtLevel_append (by simp) rfl uncut (by rw [flat, Int.add_zero]) rest
  have whole : join [':'] (splitTop [':'] rest) = rest := join_splitAtLevel (by simp) 0 0 rest
  rw [cutConstraints, cut]
  dsimp only
  rw [whole]

theorem cutConstraints_cases (text : List Char) :
    (Uncut bracketWeight [':'] 0 text ∧ cutConstraints text = (text, none)) ∨
    ∃ head rest, text = head ++ ':' :: rest ∧ Uncut bracketWeight [':'] 0 head ∧
      weigh bracketWeight head = 0 ∧ cutConstraints text = (head, nameOf? (trim rest)) := by
  have weightless : bracketWeight ':' = 0 := rfl
  rcases splitAtLevel_cases weightless [] 0 text with
    ⟨uncut, -⟩ | ⟨head, rest, rfl, uncut, flat, -⟩
  · exact .inl ⟨uncut, cutConstraints_of_uncut uncut⟩
  · rw [Int.zero_add] at flat
    exact .inr ⟨head, rest, rfl, uncut, flat, cutConstraints_append uncut flat rest⟩

/-- The tuples of a piece are read back, with blanks around them. -/
theorem Piece.Regular.readTuples {piece : Piece} (regular : piece.Regular) (whole : List Char)
    {front back : List Char} (before : ∀ c ∈ front, isBlank c = true)
    (after : ∀ c ∈ back, isBlank c = true) :
    Polyhedral.readTuples whole (front ++ piece.head ++ back) = .ok (piece.input, piece.output) := by
  have space : ∀ c ∈ [' '], isBlank c = true := List.forall_mem_singleton.2 rfl
  have solid : ∀ c ∈ "->".toList, isBlank c = false := List.all_iff_forall_prop.1 (by decide)
  obtain ⟨input, output, constraints⟩ := piece
  obtain ⟨tuples, arrows, -, -⟩ := regular
  cases output with
  | none =>
    have first := tuples input List.mem_cons_self
    have uncut := arrows.uncut input.text List.mem_cons_self
    have cut : splitTop ['-', '>'] (front ++ input.text ++ back) = [front ++ input.text ++ back] :=
      splitAtLevel_of_uncut (uncut.between solid before after)
    change Polyhedral.readTuples whole (front ++ input.text ++ back) = _
    rw [Polyhedral.readTuples, cut]
    dsimp only
    rw [first.read before after]
    rfl
  | some output =>
    have first := tuples input List.mem_cons_self
    have second := tuples output (List.mem_cons_of_mem _ List.mem_cons_self)
    obtain ⟨⟨uncut, flat⟩, rest⟩ := separated_cons_cons.1 arrows
    have later := rest.uncut output.text List.mem_cons_self
    have parts : Separated bracketWeight ['-', '>']
        [front ++ input.text ++ [' '], [' '] ++ output.text ++ back] := by
      refine separated_cons_cons.2 ⟨⟨uncut.between solid before space, ?_⟩,
        separated_singleton (later.between solid space after)⟩
      rw [weigh_append, weigh_append, flat, weigh_blank before, weigh_blank space]
      rfl
    have spelled : front ++ join " -> ".toList [input.text, output.text] ++ back =
        join ['-', '>'] [front ++ input.text ++ [' '], [' '] ++ output.text ++ back] := by
      simp [join]
    have cut := splitAtLevel_join (by decide) rfl parts (List.cons_ne_nil _ _)
    change Polyhedral.readTuples whole (front ++ join " -> ".toList [input.text, output.text] ++ back)
      = _
    rw [Polyhedral.readTuples, spelled, splitTop, cut]
    dsimp only
    rw [first.read before space, second.read space after]
    rfl

/-- Blanks are a tuple without name and dimensions. -/
theorem readTuples_blank (whole : List Char) {blanks : List Char}
    (blank : ∀ c ∈ blanks, isBlank c = true) :
    readTuples whole blanks = .ok (Tuple.anonymous, none) := by
  have uncut : Uncut bracketWeight ['-', '>'] 0 blanks := by
    apply uncut_of_not_mem
    intro member
    exact absurd (blank _ member) (by decide)
  have nothing : trim blanks = [] := by
    rw [trim, trimStart, List.dropWhile_eq_nil_iff.2 blank]
    rfl
  rw [readTuples, splitTop, splitAtLevel_of_uncut uncut]
  dsimp only
  rw [readTuple, nothing]
  rfl

/-- Constraints are read back, with a blank before them. -/
theorem nameOf?_constraints {constraints : Option String}
    (solid : ∀ words ∈ constraints, Solid words.toList) :
    nameOf? (trim (constraints.toList.flatMap fun words => ' ' :: words.toList)) = constraints := by
  cases constraints with
  | none => rfl
  | some words =>
    have space : ∀ c ∈ [' '], isBlank c = true := List.forall_mem_singleton.2 rfl
    have nothing : ∀ c ∈ ([] : List Char), isBlank c = true := by simp
    have trimmed : trim (' ' :: words.toList) = words.toList := by
      simpa using (solid words rfl).trim_between space nothing
    have named := nameOf?_toList fun text member => (solid text member).ne_nil
    simpa [trimmed] using named

/-- A piece is read back, with blanks before it. -/
theorem Piece.Regular.read {piece : Piece} (regular : piece.Regular) {front : List Char}
    (before : ∀ c ∈ front, isBlank c = true) : readPiece (front ++ piece.text) = .ok piece := by
  have constraints := nameOf?_constraints fun words given => (regular.constraints words given).1
  have colon : ∀ c ∈ [':'], isBlank c = false := List.forall_mem_singleton.2 rfl
  have space : ∀ c ∈ [' '], isBlank c = true := List.forall_mem_singleton.2 rfl
  have nothing : ∀ c ∈ ([] : List Char), isBlank c = true := by simp
  cases anonymous : piece.isAnonymous with
  | true =>
    have start : Uncut bracketWeight [':'] 0 front :=
      uncut_of_not_mem fun member => absurd (before _ member) (by decide)
    have cut := cutConstraints_append start (weigh_blank before)
      (piece.constraints.toList.flatMap fun words => ' ' :: words.toList)
    have spelled : piece.text =
        ':' :: piece.constraints.toList.flatMap fun words => ' ' :: words.toList := by
      rw [Piece.text, anonymous, if_pos rfl]
    have unnamed : piece.input = Tuple.anonymous ∧ piece.output = none := by
      simpa [Piece.isAnonymous] using anonymous
    rw [readPiece, spelled, cut, constraints]
    dsimp only
    rw [readTuples_blank _ before]
    obtain ⟨input, output, constraints⟩ := piece
    obtain ⟨rfl, rfl⟩ := unnamed
    rfl
  | false =>
    cases given : piece.constraints with
    | none =>
      have spelled : front ++ piece.text = front ++ piece.head ++ [] := by
        simp [Piece.text, anonymous, given]
      have uncut := regular.colons.between colon before nothing
      rw [readPiece, spelled, cutConstraints_of_uncut uncut]
      dsimp only
      rw [regular.readTuples _ before nothing, ← given]
      rfl
    | some words =>
      have spelled : front ++ piece.text =
          front ++ piece.head ++ [' '] ++ ':' :: (' ' :: words.toList) := by
        simp [Piece.text, anonymous, given]
      have uncut := regular.colons.between colon before space
      have flat : weigh bracketWeight (front ++ piece.head ++ [' ']) = 0 := by
        rw [weigh_append, weigh_append, (regular.constraints words given).2, weigh_blank before,
          weigh_blank space]
        rfl
      have named : nameOf? (trim (' ' :: words.toList)) = piece.constraints := by
        simpa [given] using constraints
      rw [readPiece, spelled, cutConstraints_append uncut flat, named]
      dsimp only
      rw [regular.readTuples _ before space]
      rfl

/-- Tuples that are read are regular, and writing them keeps the level and the braces. -/
theorem regular_of_readTuples (added : List Char) {piece text : List Char} {input : Tuple}
    {output : Option Tuple} (read : readTuples piece text = .ok (input, output))
    (known : ∀ c ∈ "[],-> ".toList, c ∈ added) :
    (∀ tuple ∈ input :: output.toList, tuple.Regular) ∧
      Separated bracketWeight "->".toList ((input :: output.toList).map Tuple.text) ∧
      Recast added text (join " -> ".toList ((input :: output.toList).map Tuple.text)) := by
  have brackets : ∀ c ∈ ['[', ']', ',', ' '], c ∈ added := by
    have among : ∀ c ∈ ['[', ']', ',', ' '], c ∈ "[],-> ".toList := List.all_iff_forall_prop.1 (by decide)
    exact fun c member => known c (among c member)
  have arrow : ∀ c ∈ " -> ".toList, c ∈ added := by
    have among : ∀ c ∈ " -> ".toList, c ∈ "[],-> ".toList := List.all_iff_forall_prop.1 (by decide)
    exact fun c member => known c (among c member)
  have apart : ∀ c ∈ ['-', '>'], c ∉ ['[', ']', ',', ' '] := List.all_iff_forall_prop.1 (by decide)
  have cut : Separated bracketWeight ['-', '>'] (splitTop ['-', '>'] text) :=
    separated_splitAtLevel rfl text
  have whole : join ['-', '>'] (splitTop ['-', '>'] text) = text := join_splitAtLevel (by simp) 0 0 text
  rw [readTuples] at read
  split at read
  · rename_i inputText parts
    rw [parts] at cut whole
    subst whole
    obtain ⟨tuple, readInput, same⟩ := bind_eq_ok.1 read
    cases same
    obtain ⟨regular, recast⟩ := regular_of_readTuple added readInput brackets
    have arrows := (regular_of_readTuple _ readInput fun _ member => member).2.uncut apart
      (cut.uncut inputText List.mem_cons_self)
    exact ⟨by simpa using regular, separated_singleton arrows, recast⟩
  · rename_i inputText outputText parts
    rw [parts] at cut whole
    subst whole
    obtain ⟨tuple, readInput, rest⟩ := bind_eq_ok.1 read
    obtain ⟨other, readOutput, same⟩ := bind_eq_ok.1 rest
    cases same
    obtain ⟨regular, recast⟩ := regular_of_readTuple added readInput brackets
    obtain ⟨regularOutput, recastOutput⟩ := regular_of_readTuple added readOutput brackets
    obtain ⟨⟨uncut, flat⟩, later⟩ := separated_cons_cons.1 cut
    have arrows := (regular_of_readTuple _ readInput fun _ member => member).2.uncut apart uncut
    have arrowsOutput := (regular_of_readTuple _ readOutput fun _ member => member).2.uncut apart
      (later.uncut outputText List.mem_cons_self)
    refine ⟨by simpa using ⟨regular, regularOutput⟩, ?_, ?_⟩
    · exact separated_cons_cons.2 ⟨⟨arrows, recast.weigh.trans flat⟩, separated_singleton arrowsOutput⟩
    · have glued := recast.glue ['-', '>'] " -> ".toList recastOutput rfl rfl arrow (by simp)
      simpa [join] using glued
  · cases read

/-- Blank text has no effect. -/
theorem effectless_of_blank {text : List Char} (nothing : trim text = []) :
    weigh bracketWeight text = 0 ∧ text.filter isBrace = [] := by
  rw [← weigh_trim, ← filter_trim (fun _ => Recast.isBrace_of_isBlank), nothing]
  exact ⟨rfl, rfl⟩

/-- The tuple of a piece that is not written has no effect. -/
theorem Recast.anonymous {added text : List Char} {piece : Piece}
    (recast : Recast added text piece.head) (anonymous : piece.isAnonymous = true) :
    Recast added text [] := by
  have unnamed : piece.input = Tuple.anonymous ∧ piece.output = none := by
    simpa [Piece.isAnonymous] using anonymous
  have written : piece.head = ['[', ']'] := by
    rw [Piece.head, Piece.tuples, unnamed.1, unnamed.2]
    rfl
  rw [written] at recast
  exact .erase added recast.weigh.symm recast.braces.symm

/-- Writing a piece without constraints keeps the level and the braces. -/
theorem Recast.unconstrained {text rest : List Char} {piece : Piece}
    (recast : Recast "[],->: ".toList text piece.head) (given : piece.constraints = none)
    (flat : Text.weigh bracketWeight rest = 0) (braceless : rest.filter isBrace = []) :
    Recast "[],->: ".toList (text ++ rest) piece.text := by
  cases anonymous : piece.isAnonymous with
  | true =>
    have written : piece.text = [] ++ [':'] := by simp [Piece.text, anonymous, given]
    rw [written]
    exact (recast.anonymous anonymous).ended rest [':'] flat.symm braceless.symm
      (List.all_iff_forall_prop.1 (by decide)) (by simp)
  | false =>
    have written : piece.text = piece.head := by simp [Piece.text, anonymous, given]
    rw [written]
    exact recast.drop flat braceless

/-- Writing a piece with its constraints keeps the level and the braces. -/
theorem Recast.constrained {text rest : List Char} {piece : Piece} {words : String}
    (recast : Recast "[],->: ".toList text piece.head) (given : piece.constraints = some words)
    (spelled : words.toList = Text.trim rest) :
    Recast "[],->: ".toList (text ++ ([':'] ++ rest)) piece.text := by
  have trimmed := Recast.trim "[],->: ".toList rest
  cases anonymous : piece.isAnonymous with
  | true =>
    have written : piece.text = [] ++ ([':', ' '] ++ Text.trim rest) := by
      simp [Piece.text, anonymous, given, spelled]
    rw [written]
    exact (recast.anonymous anonymous).glue [':'] [':', ' '] trimmed rfl rfl
      (List.all_iff_forall_prop.1 (by decide)) (by simp)
  | false =>
    have written : piece.text = piece.head ++ (" : ".toList ++ Text.trim rest) := by
      simp [Piece.text, anonymous, given, spelled]
    rw [written]
    exact recast.glue [':'] " : ".toList trimmed rfl rfl (List.all_iff_forall_prop.1 (by decide))
      (by simp)

theorem readTuples_of_readPiece {text head : List Char} {constraints : Option String} {piece : Piece}
    (cut : cutConstraints text = (head, constraints)) (read : readPiece text = .ok piece) :
    readTuples text head = .ok (piece.input, piece.output) ∧ piece.constraints = constraints := by
  rw [readPiece, cut] at read
  obtain ⟨⟨input, output⟩, readHead, same⟩ := bind_eq_ok.1 read
  cases same
  exact ⟨readHead, rfl⟩

/-- A piece that is read is regular, and writing it keeps the level and the braces and brings no
    semicolon. -/
theorem regular_of_readPiece {text : List Char} {piece : Piece} (read : readPiece text = .ok piece) :
    piece.Regular ∧ Recast "[],->: ".toList text piece.text := by
  have colon : ∀ c ∈ [':'], c ∉ "[],-> ".toList := List.all_iff_forall_prop.1 (by decide)
  rcases cutConstraints_cases text with ⟨uncut, cut⟩ | ⟨head, rest, rfl, uncut, flat, cut⟩
  · obtain ⟨readHead, unconstrained⟩ := readTuples_of_readPiece cut read
    obtain ⟨tuples, arrows, recast⟩ := regular_of_readTuples "[],->: ".toList readHead
      (List.all_iff_forall_prop.1 (by decide))
    have colonless := (regular_of_readTuples _ readHead fun _ member => member).2.2
    refine ⟨⟨tuples, arrows, colonless.uncut colon uncut, by simp [unconstrained]⟩, ?_⟩
    rw [← List.append_nil text]
    exact Recast.unconstrained recast unconstrained rfl rfl
  · obtain ⟨readHead, constrained⟩ := readTuples_of_readPiece cut read
    obtain ⟨tuples, arrows, recast⟩ := regular_of_readTuples "[],->: ".toList readHead
      (List.all_iff_forall_prop.1 (by decide))
    have colonless := (regular_of_readTuples _ readHead fun _ member => member).2.2
    refine ⟨⟨tuples, arrows, colonless.uncut colon uncut, fun words given => ?_⟩, ?_⟩
    · rw [constrained] at given
      exact ⟨(solid_of_nameOf? given).1, recast.weigh.trans flat⟩
    · cases given : nameOf? (trim rest) with
      | none =>
        have nothing : trim rest = [] := by
          have same := toList_nameOf? (trim rest)
          rw [given] at same
          exact same.symm
        obtain ⟨flat, braceless⟩ := effectless_of_blank nothing
        exact Recast.unconstrained recast (constrained.trans given) (by rw [weigh_cons, flat]; rfl)
          (by rw [List.filter_cons_of_neg (by decide), braceless])
      | some words =>
        exact Recast.constrained recast (constrained.trans given) (solid_of_nameOf? given).2

end RegionFlow.Polyhedral
