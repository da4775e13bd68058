/-
Module: RegionFlow.Text.Reader
Purpose: Readers of a text from its front. A reader succeeds with a value and the rest of the text,
  misses, which leaves other readings open, or is stuck, which closes them. Both failures say what
  was left of the text where reading stopped. A choice tries its second reader where the first
  missed, so a failed choice stops where its last alternative stopped.
Main exports: Outcome, Reader, Reader.many, Reader.sepBy1, Reader.sepBy, Reader.run1
-/
import RegionFlow.Text.Blank

namespace RegionFlow.Text

/-- What a reader makes of a text. -/
inductive Outcome (α : Type) where
  /-- A value was read; `rest` follows it. -/
  | done (value : α) (rest : List Char)
  /-- Nothing was read; another reading may be tried. -/
  | miss (rest : List Char)
  /-- Nothing was read and no other reading is tried. -/
  | stuck (rest : List Char)
deriving DecidableEq, Repr, Inhabited

/-- A reader of values of type `α` from the front of a text. -/
def Reader (α : Type) : Type := List Char → Outcome α

namespace Reader

variable {α β : Type}

/-- Read nothing. -/
protected def pure (value : α) : Reader α := fun text => .done value text

/-- Read with `first`, then with the reader its value selects. -/
protected def bind (first : Reader α) (next : α → Reader β) : Reader β := fun text =>
  match first text with
  | .done value rest => next value rest
  | .miss rest => .miss rest
  | .stuck rest => .stuck rest

instance : Monad Reader where
  pure := Reader.pure
  bind := Reader.bind

/-- Read with `second` where `first` misses. -/
protected def orElse (first : Reader α) (second : Unit → Reader α) : Reader α := fun text =>
  match first text with
  | .miss _ => second () text
  | other => other

instance : OrElse (Reader α) := ⟨Reader.orElse⟩

/-- Miss, wherever the text stands. -/
def fail : Reader α := fun text => .miss text

/-- Read with `item`, or read nothing where it misses. -/
def optional (item : Reader α) : Reader (Option α) := fun text =>
  match item text with
  | .done value rest => .done (some value) rest
  | .miss _ => .done none text
  | .stuck rest => .stuck rest

/-- Read a value that passes `accept`; where it does not, miss before it. -/
def filterMap (item : Reader α) (accept : α → Option β) : Reader β := fun text =>
  match item text with
  | .done value rest =>
    match accept value with
    | some result => .done result rest
    | none => .miss text
  | .miss rest => .miss rest
  | .stuck rest => .stuck rest

/-- Read items until one misses; `budget` bounds their number. -/
def manyUpTo (item : Reader α) : Nat → Reader (List α)
  | 0 => fun text => .done [] text
  | budget + 1 => fun text =>
    match item text with
    | .done value rest =>
      match manyUpTo item budget rest with
      | .done values rest => .done (value :: values) rest
      | .miss rest => .miss rest
      | .stuck rest => .stuck rest
    | .miss _ => .done [] text
    | .stuck rest => .stuck rest

/-- Read items until one misses. An item takes at least one character, so the length of the text
    bounds their number. -/
def many (item : Reader α) : Reader (List α) := fun text =>
  manyUpTo item text.length text

/-- One or more items with a separator between neighbours. A separator that no item follows is left
    unread. -/
def sepBy1 (separator : Reader Unit) (item : Reader α) : Reader (List α) := do
  let first ← item
  let others ← many (do separator; item)
  return first :: others

/-- Any number of items with a separator between neighbours. -/
def sepBy (separator : Reader Unit) (item : Reader α) : Reader (List α) :=
  sepBy1 separator item <|> pure []

/-- The longest run of characters in a class. -/
def run (accept : Char → Bool) : Reader (List Char) := fun text =>
  .done (text.takeWhile accept) (text.dropWhile accept)

/-- The longest run of characters in a class, which must not be empty. -/
def run1 (accept : Char → Bool) : Reader (List Char) := fun text =>
  match text.takeWhile accept with
  | [] => .miss text
  | chars => .done chars (text.dropWhile accept)

/-- One given character. -/
def char (expected : Char) : Reader Unit := fun text =>
  match text with
  | c :: rest => if c = expected then .done () rest else .miss text
  | [] => .miss text

/-- One given word, whatever follows it. -/
def token (expected : List Char) : Reader Unit := fun text =>
  if expected.isPrefixOf text then .done () (text.drop expected.length) else .miss text

/-- Go on only where no character of a class follows. -/
def notFollowedBy (refuse : Char → Bool) : Reader Unit := fun text =>
  match text with
  | c :: _ => if refuse c then .miss text else .done () text
  | [] => .done () text

/-- Being stuck in place of missing. -/
def committed (item : Reader α) : Reader α := fun text =>
  match item text with
  | .miss rest => .stuck rest
  | other => other

/-- Any number of spaces and tabs. -/
def gap : Reader Unit := do
  let _ ← run isGap

/-- At least one space or tab. -/
def gap1 : Reader Unit := do
  let _ ← run1 isGap

/-- A comma with spaces and tabs around it. -/
def comma : Reader Unit := do
  gap
  char ','
  gap

/-- A text from an opening bracket to the closing bracket that balances it, both included. Only
    this pair of brackets counts. -/
def bracketed (opening closing : Char) : Reader (List Char) := fun text =>
  match text with
  | c :: rest =>
    if c = opening then
      match close 1 rest with
      | some (inner, after) => .done (c :: inner) after
      | none => .miss text
    else .miss text
  | [] => .miss text
where
  /-- The text up to the bracket that closes `depth` open ones, and what follows. -/
  close (depth : Nat) : List Char → Option (List Char × List Char)
    | [] => none
    | c :: rest =>
      if c = opening then (close (depth + 1) rest).map fun (inner, after) => (c :: inner, after)
      else if c = closing then
        if depth ≤ 1 then some ([c], rest)
        else (close (depth - 1) rest).map fun (inner, after) => (c :: inner, after)
      else (close depth rest).map fun (inner, after) => (c :: inner, after)

end Reader

end RegionFlow.Text
