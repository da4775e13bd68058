/-
Module: RegionFlow.Proofs.Rereading
Purpose: A polyhedral set or map is read back from its written form. Where the brackets of the text
  that it was read from are nested, every piece closes the braces that it opens, so pieces can be
  left out as well.
Main exports: Polyhedral.Writable, Polyhedral.Writable.read, Polyhedral.Piece.Bears,
  Polyhedral.Relation.read_written
-/
import RegionFlow.Proofs.Readers
import RegionFlow.Proofs.Rendering

namespace RegionFlow.Polyhedral

open Text Sequencing

/-! ### Writing and reading back -/

/-- Written form of pieces. -/
def bodyText (pieces : List Piece) : List Char :=
  join "; ".toList (pieces.map Piece.text)

/-- Written form of parameters, with the arrow behind them. -/
def binderText (params : List String) : List Char :=
  if params.isEmpty then [] else '[' :: (dimsText params ++ ']' :: " -> ".toList)

theorem toList_renderParts (params : List String) (pieces : List Piece) :
    (Relation.renderParts params pieces).toList =
      binderText params ++ '\x7b' :: (' ' :: (bodyText pieces ++ [' ']) ++ ['\x7d']) := by
  have binder : (if params.isEmpty then "" else "[" ++ ", ".intercalate params ++ "] -> ").toList =
      binderText params := by
    cases params <;> simp [binderText, dimsText, join_eq_intercalate]
  have body : (if pieces.isEmpty then "\x7b  \x7d"
      else "\x7b " ++ "; ".intercalate (pieces.map Piece.render) ++ " \x7d").toList =
      '\x7b' :: (' ' :: (bodyText pieces ++ [' ']) ++ ['\x7d']) := by
    cases pieces <;> simp [bodyText, join_eq_intercalate, Piece.toList_render, Function.comp_def]
  rw [Relation.renderParts, String.toList_append, binder, body]

/-- Parameters and pieces as the reader finds them in one text. -/
structure Writable (params : List String) (pieces : List Piece) : Prop where
  dims : RegularDims params
  /-- The parameters do not close their list. -/
  binder : ∃ left, depthAfter? '[' ']' 1 (dimsText params) = some left ∧ left ≤ 1
  regular : ∀ piece ∈ pieces, piece.Regular
  /-- Semicolons are seen between the pieces only. -/
  semicolons : Separated bracketWeight [';'] (pieces.map Piece.text)
  /-- The pieces do not close the braces around them. -/
  braces : ∃ left, depthAfter? '\x7b' '\x7d' 1 (bodyText pieces) = some left ∧ left ≤ 1

theorem readPieces_of_forall₂ {texts : List (List Char)} {pieces : List Piece}
    (each : List.Forall₂ (fun text piece => trim text ≠ [] ∧ readPiece text = .ok piece) texts pieces) :
    readPieces texts = .ok pieces := by
  induction each with
  | nil => rfl
  | cons first _ ih =>
    obtain ⟨some, read⟩ := first
    rw [readPieces, if_neg (by simpa using some), read, ih]
    rfl

/-- Written pieces are read one by one, with a blank before all but the first. -/
theorem forall₂_spaced {pieces : List Piece} (regular : ∀ piece ∈ pieces, piece.Regular) :
    List.Forall₂ (fun text piece => trim text ≠ [] ∧ readPiece text = .ok piece)
      (spaced (pieces.map Piece.text)) pieces := by
  have each : ∀ front : List Char, (∀ c ∈ front, isBlank c = true) → ∀ piece ∈ pieces,
      trim (front ++ piece.text) ≠ [] ∧ readPiece (front ++ piece.text) = .ok piece := by
    intro front blank piece listed
    have nothing : ∀ c ∈ ([] : List Char), isBlank c = true := by simp
    have trimmed := (regular piece listed).solid.trim_between blank nothing
    rw [List.append_nil] at trimmed
    exact ⟨by rw [trimmed]; exact (regular piece listed).solid.ne_nil, (regular piece listed).read blank⟩
  cases pieces with
  | nil => exact .nil
  | cons piece pieces =>
    refine .cons (each [] (by simp) piece List.mem_cons_self) ?_
    rw [List.map_map, List.forall₂_map_left_iff, List.forall₂_same]
    intro piece listed
    exact each [' '] (List.forall_mem_singleton.2 rfl) piece (List.mem_cons_of_mem _ listed)

/-- Pieces are read back. -/
theorem readPieces_bodyText {pieces : List Piece} (regular : ∀ piece ∈ pieces, piece.Regular)
    (semicolons : Separated bracketWeight [';'] (pieces.map Piece.text)) :
    readPieces (splitTop [';'] (trim (' ' :: (bodyText pieces ++ [' '])))) = .ok pieces := by
  have space : ∀ c ∈ [' '], isBlank c = true := List.forall_mem_singleton.2 rfl
  cases pieces with
  | nil => rfl
  | cons piece pieces =>
    have solid : Solid (bodyText (piece :: pieces)) := by
      apply solid_join _ (by simp)
      intro part member
      obtain ⟨piece, listed, rfl⟩ := List.mem_map.1 member
      exact (regular piece listed).solid
    have trimmed : trim (' ' :: (bodyText (piece :: pieces) ++ [' '])) = bodyText (piece :: pieces) := by
      simpa using solid.trim_between space space
    have spelled : bodyText (piece :: pieces) = join [';'] (spaced ((piece :: pieces).map Piece.text)) :=
      (join_spaced [';'] _).symm
    have cut := splitAtLevel_join (by simp) rfl (separated_spaced (by decide) semicolons)
      (List.cons_ne_nil _ _)
    rw [trimmed, spelled, splitTop, cut]
    exact readPieces_of_forall₂ (forall₂_spaced regular)

/-- Behind a list in brackets, an arrow with blanks around it is passed. -/
theorem paramsReader_eq {text group rest : List Char}
    (read : Reader.bracketed '[' ']' text = .done group (" -> ".toList ++ '\x7b' :: rest)) :
    paramsReader text = .done group ('\x7b' :: rest) := by
  change Reader.bind (Reader.bracketed '[' ']') _ text = _
  rw [Reader.bind, read]
  rfl

/-- The text inside a group. -/
theorem inner_group (opening closing : Char) (body : List Char) :
    inner (opening :: (body ++ [closing])) = body := by
  simp [inner]

/-- Parameters are read back. -/
theorem cutParams_binderText {params : List String} (dims : RegularDims params)
    (binder : ∃ left, depthAfter? '[' ']' 1 (dimsText params) = some left ∧ left ≤ 1)
    (rest : List Char) : cutParams (binderText params ++ '\x7b' :: rest) = (params, '\x7b' :: rest) := by
  cases params with
  | nil => rfl
  | cons param params =>
    obtain ⟨left, opened, last⟩ := binder
    have spelled : binderText (param :: params) ++ '\x7b' :: rest =
        '[' :: (dimsText (param :: params) ++ ']' :: (" -> ".toList ++ '\x7b' :: rest)) := by
      simp [binderText]
    have group := bracketed_group (by decide) opened last (" -> ".toList ++ '\x7b' :: rest)
    rw [cutParams, spelled, paramsReader_eq group]
    dsimp only
    rw [inner_group, dims.read]

/-- A set or map is read back. -/
theorem Writable.read {params : List String} {pieces : List Piece} (writable : Writable params pieces) :
    Relation.read (Relation.renderParts params pieces) =
      .ok ⟨params, pieces, Relation.renderParts params pieces⟩ := by
  obtain ⟨left, opened, last⟩ := writable.braces
  have padded : depthAfter? '\x7b' '\x7d' 1 (' ' :: (bodyText pieces ++ [' '])) = some left := by
    have kept : isBrace '\x7b' = true ∧ isBrace '\x7d' = true := by decide
    have same : (' ' :: (bodyText pieces ++ [' '])).filter isBrace = (bodyText pieces).filter isBrace := by
      simp [isBrace]
    rw [← depthAfter?_filter kept, same, depthAfter?_filter kept, opened]
  have group := bracketed_group (by decide) padded last []
  have solid : Solid (Relation.renderParts params pieces).toList := by
    rw [toList_renderParts]
    constructor
    · cases params with
      | nil => exact ⟨'\x7b', _, rfl, by decide⟩
      | cons param params => exact ⟨'[', _, rfl, by decide⟩
    · refine ⟨binderText params ++ '\x7b' :: ' ' :: (bodyText pieces ++ [' ']), '\x7d', ?_, by decide⟩
      simp
  rw [Relation.read, solid.trim_eq, toList_renderParts, readTrimmed]
  rw [cutParams_binderText writable.dims writable.binder]
  dsimp only
  rw [group]
  dsimp only
  rw [inner_group, readPieces_bodyText writable.regular writable.semicolons, ← toList_renderParts,
    String.ofList_toList]
  rfl

/-! ### What is read can be written -/

theorem bracketWeight_of_isGaps {gaps : List Char} (isGaps : Reader.IsGaps gaps) :
    ∀ c ∈ gaps, bracketWeight c = 0 := by
  intro c member
  have blank : c = ' ' ∨ c = '\t' := by simpa [isGap] using isGaps c member
  rcases blank with rfl | rfl <;> rfl

/-- No bracket stands between a parameter list and what follows. -/
theorem exists_of_paramsReader {text group rest : List Char}
    (read : paramsReader text = .done group rest) :
    ∃ between, Reader.bracketed '[' ']' text = .done group (between ++ rest) ∧
      ∀ c ∈ between, bracketWeight c = 0 := by
  obtain ⟨_, afterGroup, found, readGap⟩ := Reader.bind_eq_done_iff.1 read
  obtain ⟨_, _, firstGap, readToken⟩ := Reader.bind_eq_done_iff.1 readGap
  obtain ⟨_, _, token, readLast⟩ := Reader.bind_eq_done_iff.1 readToken
  obtain ⟨_, _, secondGap, finished⟩ := Reader.bind_eq_done_iff.1 readLast
  cases finished
  obtain ⟨first, rfl, isGaps, _⟩ := Reader.gap_eq_done_iff.1 firstGap
  have arrow := Reader.token_eq_done_iff.1 token
  subst arrow
  obtain ⟨second, rfl, isGapsLater, _⟩ := Reader.gap_eq_done_iff.1 secondGap
  refine ⟨first ++ (['-', '>'] ++ second), by simpa using found, ?_⟩
  simp only [List.forall_mem_append]
  exact ⟨bracketWeight_of_isGaps isGaps, List.all_iff_forall_prop.1 (by decide),
    bracketWeight_of_isGaps isGapsLater⟩

/-- A parameter list that is read stands in brackets, and no bracket stands between it and what follows. -/
theorem cutParams_cases {text rest : List Char} {params : List String}
    (cut : cutParams text = (params, rest)) :
    (params = [] ∧ rest = text) ∨
    ∃ body left between, text = '[' :: (body ++ ']' :: (between ++ rest)) ∧
      (∀ c ∈ between, bracketWeight c = 0) ∧ depthAfter? '[' ']' 1 body = some left ∧ left ≤ 1 ∧
      params = readDims body := by
  unfold cutParams at cut
  split at cut
  · rename_i group after found
    cases cut
    obtain ⟨between, read, weightless⟩ := exists_of_paramsReader found
    obtain ⟨body, left, rfl, spelled, opened, last⟩ := exists_of_bracketed read
    exact .inr ⟨body, left, between, spelled, weightless, opened, last, by rw [inner_group]⟩
  · cases cut
    exact .inl ⟨rfl, rfl⟩
  · cases cut
    exact .inl ⟨rfl, rfl⟩

/-- What a text consists of that is read. -/
theorem readTrimmed_cases {text : List Char} {relation : Relation}
    (read : readTrimmed text = .ok relation) :
    ∃ body after left, cutParams text = (relation.params, '\x7b' :: (body ++ '\x7d' :: after)) ∧
      trim after = [] ∧ depthAfter? '\x7b' '\x7d' 1 body = some left ∧ left ≤ 1 ∧
      readPieces (splitTop [';'] (trim body)) = .ok relation.pieces := by
  rw [readTrimmed] at read
  obtain ⟨params, rest, cut⟩ : ∃ params rest, cutParams text = (params, rest) := ⟨_, _, rfl⟩
  rw [cut] at read
  dsimp only at read
  split at read
  · cases read
  · cases read
  · rename_i group after found
    obtain ⟨body, left, rfl, rfl, opened, last⟩ := exists_of_bracketed found
    split at read
    · rename_i nothing
      obtain ⟨pieces, readBody, same⟩ := bind_eq_ok.1 read
      cases same
      rw [inner_group] at readBody
      exact ⟨body, after, left, cut, by simpa using nothing, opened, last, readBody⟩
    · cases read

theorem forall₂_of_readPieces {texts : List (List Char)} {pieces : List Piece}
    (read : readPieces texts = .ok pieces) :
    List.Forall₂ (fun text piece => readPiece text = .ok piece)
      (texts.filter fun text => !(trim text).isEmpty) pieces := by
  induction texts generalizing pieces with
  | nil =>
    cases read
    exact .nil
  | cons text texts ih =>
    rw [readPieces] at read
    split at read
    · rename_i nothing
      rw [List.filter_cons_of_neg (by simpa using nothing)]
      exact ih read
    · rename_i some
      obtain ⟨first, readFirst, rest⟩ := bind_eq_ok.1 read
      obtain ⟨others, readOthers, same⟩ := bind_eq_ok.1 rest
      cases same
      rw [List.filter_cons_of_pos (by simpa using some)]
      exact .cons readFirst (ih readOthers)

/-- Parts that are written anew one by one stay separated. -/
theorem separated_recast {added : List Char} {mark : Char} {tail : List Char}
    {texts news : List (List Char)} (separated : Separated bracketWeight (mark :: tail) texts)
    (apart : ∀ c ∈ mark :: tail, c ∉ added) (each : List.Forall₂ (Recast added) texts news) :
    Separated bracketWeight (mark :: tail) news := by
  constructor
  · intro part member
    obtain ⟨text, listed, recast⟩ := exists_partner each.flip member
    exact recast.uncut apart (separated.uncut text listed)
  · have weights := map_eq_map_of_partners (fun recast => recast.weigh) each
    have level := separated.level
    rw [← List.pairwise_map (f := weigh bracketWeight) (R := fun weight _ => weight = 0)] at level ⊢
    rwa [weights]

theorem braces_recast {added : List Char} {texts news : List (List Char)}
    (each : List.Forall₂ (Recast added) texts news) :
    news.flatMap (List.filter isBrace) = texts.flatMap (List.filter isBrace) := by
  induction each with
  | nil => rfl
  | cons recast _ ih => rw [List.flatMap_cons, List.flatMap_cons, recast.braces, ih]

/-- The texts of pieces that are read, blank ones left out. -/
def pieceTexts (body : List Char) : List (List Char) :=
  (splitTop [';'] (trim body)).filter fun text => !(trim text).isEmpty

theorem separated_pieceTexts (body : List Char) : Separated bracketWeight [';'] (pieceTexts body) := by
  have cut : Separated bracketWeight [';'] (splitTop [';'] (trim body)) := separated_splitAtLevel rfl _
  exact cut.sublist List.filter_sublist

/-- Blank texts and semicolons are no braces. -/
theorem braces_pieceTexts (body : List Char) :
    (pieceTexts body).flatMap (List.filter isBrace) = body.filter isBrace := by
  have each : ∀ texts : List (List Char),
      (texts.filter fun text => !(trim text).isEmpty).flatMap (List.filter isBrace) =
        texts.flatMap (List.filter isBrace) := by
    intro texts
    induction texts with
    | nil => rfl
    | cons text texts ih =>
      rw [List.filter_cons, List.flatMap_cons]
      split
      · rw [List.flatMap_cons, ih]
      · rename_i nothing
        rw [(effectless_of_blank (by simpa using nothing)).2, ih, List.nil_append]
  have whole : join [';'] (splitTop [';'] (trim body)) = trim body := join_splitAtLevel (by simp) 0 0 _
  have semicolon : ∀ c ∈ [';'], isBrace c = false := List.forall_mem_singleton.2 rfl
  rw [pieceTexts, each, ← filter_join semicolon, whole, filter_trim fun _ => Recast.isBrace_of_isBlank]

/-- Each piece that is read is regular and is written as its text says. -/
theorem recast_of_readPieces {body : List Char} {pieces : List Piece}
    (read : readPieces (splitTop [';'] (trim body)) = .ok pieces) :
    (∀ piece ∈ pieces, piece.Regular) ∧
      List.Forall₂ (Recast "[],->: ".toList) (pieceTexts body) (pieces.map Piece.text) := by
  have each := (forall₂_of_readPieces read).imp fun _ _ => regular_of_readPiece
  constructor
  · intro piece member
    obtain ⟨text, -, regular, -⟩ := exists_partner each.flip member
    exact regular
  · rw [List.forall₂_map_right_iff]
    exact each.imp fun _ _ both => both.2

/-- Whether a character is a square bracket. -/
def isSquare (c : Char) : Bool :=
  c == '[' || c == ']'

theorem isSquare_of_isBlank {c : Char} (blank : isBlank c = true) : isSquare c = false := by
  rw [Bool.eq_false_iff]
  intro square
  have either : c = '[' ∨ c = ']' := by simpa [isSquare] using square
  rcases either with rfl | rfl
  · exact absurd blank (by decide)
  · exact absurd blank (by decide)

theorem writable_of_readTrimmed {text : List Char} {relation : Relation}
    (read : readTrimmed text = .ok relation) : Writable relation.params relation.pieces := by
  obtain ⟨body, after, left, cut, -, opened, last, readBody⟩ := readTrimmed_cases read
  obtain ⟨regular, each⟩ := recast_of_readPieces readBody
  have kept : isBrace '\x7b' = true ∧ isBrace '\x7d' = true := by decide
  have braces : (bodyText relation.pieces).filter isBrace = body.filter isBrace := by
    rw [bodyText, filter_join (List.all_iff_forall_prop.1 (by decide)), braces_recast each,
      braces_pieceTexts]
  have params : RegularDims relation.params ∧
      ∃ left, depthAfter? '[' ']' 1 (dimsText relation.params) = some left ∧ left ≤ 1 := by
    rcases cutParams_cases cut with ⟨none, -⟩ | ⟨list, left, -, -, -, opened, last, spelled⟩
    · rw [none]
      exact ⟨⟨⟨by simp, by simp⟩, by simp⟩, 1, rfl, Nat.le_refl 1⟩
    · have kept : isSquare '[' = true ∧ isSquare ']' = true := by decide
      have same := filter_dimsText rfl (fun _ => isSquare_of_isBlank) list
      rw [spelled]
      refine ⟨regular_readDims list, left, ?_, last⟩
      rw [← depthAfter?_filter kept, same, depthAfter?_filter kept, opened]
  refine ⟨params.1, params.2, regular, ?_, left, ?_, last⟩
  · exact separated_recast (separated_pieceTexts body) (List.all_iff_forall_prop.1 (by decide)) each
  · rw [← depthAfter?_filter kept, braces, depthAfter?_filter kept, opened]

/-! ### Leaving pieces out -/

/-- Every piece closes the braces that it opens. -/
def Closing (pieces : List Piece) : Prop :=
  ∀ piece ∈ pieces, depthAfter? '\x7b' '\x7d' 1 piece.text = some 1

/-- In a nested text the body is nested. -/
theorem nested_body {text body after : List Char} {params : List String} {left : Nat}
    (nested : IsNested text) (cut : cutParams text = (params, '\x7b' :: (body ++ '\x7d' :: after)))
    (opened : depthAfter? '\x7b' '\x7d' 1 body = some left) (last : left ≤ 1) : IsNested body := by
  have rest : IsNested ('\x7b' :: (body ++ '\x7d' :: after)) := by
    rcases cutParams_cases cut with ⟨-, whole⟩ | ⟨list, depth, between, rfl, weightless, closes, ends, -⟩
    · rw [whole]
      exact nested
    · have behind := (IsNested.group rfl nested closes ends).2
      obtain ⟨pending, passed, rest⟩ := nestAfter?_append.1 behind
      rw [nestAfter?_of_weightless weightless] at passed
      cases passed
      exact rest
  exact (IsNested.group rfl rest opened last).1

theorem closing_of_readTrimmed {text : List Char} {relation : Relation}
    (read : readTrimmed text = .ok relation) (nested : IsNested text) : Closing relation.pieces := by
  obtain ⟨body, after, left, cut, -, opened, last, readBody⟩ := readTrimmed_cases read
  obtain ⟨-, each⟩ := recast_of_readPieces readBody
  have kept : isBrace '\x7b' = true ∧ isBrace '\x7d' = true := by decide
  have inside := (nested_body nested cut opened last).trim
  have whole : join [';'] (splitTop [';'] (trim body)) = trim body := join_splitAtLevel (by simp) 0 0 _
  have separated : Separated bracketWeight [';'] (splitTop [';'] (trim body)) :=
    separated_splitAtLevel rfl _
  have weightless : ∀ c ∈ [';'], bracketWeight c = 0 := List.forall_mem_singleton.2 rfl
  have parts := IsNested.parts weightless separated.level (by rw [whole]; exact inside)
  intro piece member
  obtain ⟨part, listed, recast⟩ := exists_partner each.flip (List.mem_map_of_mem member)
  have nestedPart := parts part (List.mem_of_mem_filter listed)
  rw [← depthAfter?_filter kept, recast.braces, depthAfter?_filter kept]
  exact nestedPart.depthAfter?_eq rfl (Nat.le_refl 1)

/-- Pieces that close their braces can be left out. -/
theorem Writable.sublist {params : List String} {pieces some : List Piece}
    (writable : Writable params pieces) (closing : Closing pieces) (sub : some.Sublist pieces) :
    Writable params some where
  dims := writable.dims
  binder := writable.binder
  regular := fun piece member => writable.regular piece (sub.subset member)
  semicolons := writable.semicolons.sublist (sub.map Piece.text)
  braces := by
    refine ⟨1, depthAfter?_join rfl ?_, Nat.le_refl 1⟩
    intro part member
    obtain ⟨piece, listed, rfl⟩ := List.mem_map.1 member
    exact closing piece (sub.subset listed)

/-- A tuple of the piece has one of the names. -/
def Piece.Bears (names : List String) (piece : Piece) : Prop :=
  ∃ tuple ∈ piece.tuples, ∃ name ∈ tuple.name, name ∈ names

instance (names : List String) (piece : Piece) : Decidable (piece.Bears names) :=
  inferInstanceAs (Decidable (∃ tuple ∈ piece.tuples, _))

theorem pieces_without_eq_filter (relation : Relation) (names : List String) :
    (relation.without names).pieces = relation.pieces.filter fun piece => ¬piece.Bears names := by
  apply List.filter_congr
  intro piece _
  obtain ⟨⟨name, dims⟩, output, constraints⟩ := piece
  rw [Bool.eq_iff_iff]
  cases name <;> cases output <;> simp [Piece.names, Piece.Bears, Piece.tuples]

/-- A set or map that is read can be written and read again. If the brackets of its text are nested,
    so can what is left of it when pieces with certain names are left out, which is the text that is
    kept for it. -/
theorem Relation.read_written {text : String} {relation : Relation}
    (read : Relation.read text = .ok relation) :
    Relation.read relation.render = .ok ⟨relation.params, relation.pieces, relation.render⟩ ∧
    (IsNested text.toList → ∀ names : List String,
      (relation.without names).params = relation.params ∧
      (relation.without names).pieces = relation.pieces.filter (fun piece => ¬piece.Bears names) ∧
      Relation.read (relation.without names).text = .ok (relation.without names)) := by
  have writable := writable_of_readTrimmed read
  refine ⟨writable.read, fun nested names => ⟨rfl, pieces_without_eq_filter relation names, ?_⟩⟩
  have closing := closing_of_readTrimmed read nested.trim
  exact (writable.sublist closing List.filter_sublist).read

/-- A map with two pieces, blanks and an empty dimension to drop, a tuple to complete and brackets in the
    constraints. -/
def mapText : String := "[n,m] -> \x7bS[i , ] -> A[(i)]:i<f[n] ; T->B; \x7d"

theorem mapText_read_written : ∃ relation, Relation.read mapText = .ok relation ∧
    relation.render = "[n, m] -> \x7b S[i] -> A[(i)] : i<f[n]; T[] -> B[] \x7d" ∧
    IsNested mapText.toList ∧
    (relation.without ["S"]).text = "[n, m] -> \x7b T[] -> B[] \x7d" ∧
    Relation.read relation.render = .ok ⟨relation.params, relation.pieces, relation.render⟩ ∧
    Relation.read (relation.without ["S"]).text = .ok (relation.without ["S"]) := by
  have read : ∃ relation, Relation.read mapText = .ok relation ∧
      relation.render = "[n, m] -> \x7b S[i] -> A[(i)] : i<f[n]; T[] -> B[] \x7d" ∧
      (relation.without ["S"]).text = "[n, m] -> \x7b T[] -> B[] \x7d" :=
    ⟨⟨["n", "m"], [⟨⟨some "S", ["i"]⟩, some ⟨some "A", ["(i)"]⟩, some "i<f[n]"⟩,
      ⟨⟨some "T", []⟩, some ⟨some "B", []⟩, none⟩], mapText⟩, by decide +kernel⟩
  obtain ⟨relation, read, rendered, left⟩ := read
  have nested : IsNested mapText.toList := by decide +kernel
  obtain ⟨again, without⟩ := Relation.read_written read
  exact ⟨relation, read, rendered, nested, left, again, (without nested ["S"]).2.2⟩

end RegionFlow.Polyhedral
