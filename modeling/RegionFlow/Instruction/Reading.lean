/-
Module: RegionFlow.Instruction.Reading
Purpose: Reading one line of a listing. The words of an instruction (references, type spellings,
  literals, flags) have a reader each; an operation selects the reader of its operands; attributes
  after the operands are accepted and ignored. Missing digits after the mark of an exponent are the
  one mistake that closes every other reading of a line.
Main exports: Instruction.read
-/
import RegionFlow.Instruction.Basic
import RegionFlow.Text.Integer
import RegionFlow.Text.Reader

namespace RegionFlow.Instruction

open Text Text.Reader

/-- Letters and digits of the ASCII range. -/
def isAlphanumeric (c : Char) : Bool :=
  ('a' ≤ c && c ≤ 'z') || ('A' ≤ c && c ≤ 'Z') || isDigit c

/-- Characters of the name of a reference. -/
def isNameChar (c : Char) : Bool :=
  isAlphanumeric c || c == '.' || c == '_' || c == '-' || c == '$'

/-- Characters of a bare word. -/
def isWordChar (c : Char) : Bool :=
  isAlphanumeric c || c == '_'

/-- Characters of the body of a hexadecimal literal. -/
def isHexChar (c : Char) : Bool :=
  isDigit c || ('a' ≤ c && c ≤ 'f') || ('A' ≤ c && c ≤ 'F')
    || c == 'K' || c == 'L' || c == 'M' || c == 'H' || c == 'R'

/-- A name behind a sigil, both kept. -/
def sigilName (sigil : Char) : Reader String := do
  char sigil
  let name ← run1 isNameChar
  return String.ofList (sigil :: name)

/-- A local reference such as `%add`. -/
def reference : Reader String := sigilName '%'

/-- A global symbol such as `@exp`. -/
def globalSymbol : Reader String := sigilName '@'

/-- A bare word: an operation, a flag, the name of a type. -/
def word : Reader String := do
  let chars ← run1 isWordChar
  return String.ofList chars

/-- One given word that no name character extends. -/
def keyword (expected : String) : Reader Unit := do
  token expected.toList
  notFollowedBy isNameChar

/-- The target of a branch. -/
def blockLabel : Reader String := do
  keyword "label"
  gap1
  reference

/-- The spelling of a type: a bracketed group or a word, then stars. -/
def typeSpelling : Reader String := do
  let base ← bracketed '[' ']' <|> bracketed '<' '>' <|> bracketed '\x7b' '\x7d'
    <|> run1 isWordChar
  let stars ← run (· == '*')
  return String.ofList (base ++ stars)

/-- Whether a spelling denotes a pointer type. -/
def isPointer (type : String) : Bool :=
  let chars := type.toList
  type == "ptr" || "ptr ".toList.isPrefixOf chars || chars.getLast? == some '*'

/-- Words that are literals. -/
def literalWords : List String :=
  ["true", "false", "undef", "poison", "null", "zeroinitializer"]

/-- A hexadecimal literal. -/
def hexLiteral : Reader (List Char) := do
  token ['0', 'x']
  let body ← run1 isHexChar
  return '0' :: 'x' :: body

/-- One character out of two. -/
def either (left right : Char) : Reader (List Char) :=
  (do char left; return [left]) <|> (do char right; return [right])

/-- A plus or minus sign, if there is one. -/
def optionalSign : Reader (List Char) := do
  let sign ← optional (either '+' '-')
  return sign.getD []

/-- Digits with an optional fraction, or a fraction alone. -/
def mantissa : Reader (List Char) :=
  (do
    let whole ← run1 isDigit
    let fraction ← optional (do char '.'; let digits ← run isDigit; return '.' :: digits)
    return whole ++ fraction.getD [])
  <|> (do
    char '.'
    let digits ← run1 isDigit
    return '.' :: digits)

/-- The exponent of a number. Behind its mark digits must follow. -/
def exponent : Reader (List Char) := do
  let mark ← either 'e' 'E'
  let sign ← optionalSign
  let digits ← committed (run1 isDigit)
  return mark ++ sign ++ digits

/-- A decimal number. -/
def decimalLiteral : Reader (List Char) := do
  let sign ← optionalSign
  let body ← mantissa
  let power ← optional exponent
  return sign ++ body ++ power.getD []

/-- A literal operand. -/
def literal : Reader String :=
  (do return String.ofList (← hexLiteral))
  <|> (do return String.ofList (← decimalLiteral))
  <|> filterMap word fun text => if literalWords.contains text then some text else none

/-- An operand. -/
def operand : Reader Operand :=
  (do return .ref (← reference))
  <|> (do return .ref (← globalSymbol))
  <|> (do return .literal (← literal))

/-- A word of a set, with blanks after it. -/
def flag (set : List String) : Reader Unit := do
  let _ ← filterMap word fun text => if set.contains text then some text else none
  gap1

/-- Any number of words of a set. -/
def flags (set : List String) : Reader Unit := do
  let _ ← many (flag set)

/-- Flags of floating point operations. -/
def fastMathFlags : List String :=
  ["fast", "nnan", "ninf", "nsz", "arcp", "contract", "afn", "reassoc"]

/-- Flags of integer comparisons and conversions. -/
def integerFlags : List String :=
  ["nuw", "nsw", "exact", "disjoint", "samesign", "nneg"]

/-- Flags of two-operand arithmetic. -/
def arithmeticFlags : List String :=
  ["nuw", "nsw", "exact", "disjoint"] ++ fastMathFlags

/-- Attributes between the type of an operand and the operand. -/
def parameterAttributes : List String :=
  ["noundef", "signext", "zeroext", "nonnull", "noalias", "nocapture", "readonly", "immarg",
    "inreg"]

/-- Flags and attributes before the result type of a call. -/
def callAttributes : List String :=
  fastMathFlags ++ ["noundef", "signext", "zeroext", "nonnull", "noalias", "fastcc", "ccc"]

/-- Flags of loads and stores. -/
def memoryFlags : List String :=
  ["volatile", "atomic"]

/-- An operand behind its type. -/
def typedOperand : Reader TypedOperand := do
  let type ← typeSpelling
  gap1
  flags parameterAttributes
  let value ← operand
  return ⟨type, value⟩

/-- One bracketed edge of a merge. -/
def incomingEdge : Reader Incoming := do
  char '['
  gap
  let value ← operand
  comma
  let label ← reference
  gap
  char ']'
  return ⟨value, label⟩

/-- A computation, or an address producer where the result is a pointer. -/
def computing (result type : String) (opcode : Opcode) (operands : List TypedOperand) :
    Instruction :=
  if isPointer type then .address result opcode.name else .compute result type opcode operands

/-- Operands of a merge. -/
def readPhi (result : String) : Reader Instruction := do
  flags fastMathFlags
  let type ← typeSpelling
  gap1
  let incoming ← sepBy1 comma incomingEdge
  return if isPointer type then .address result "phi" else .phi result type incoming

/-- Operands of a jump or a two-way branch. -/
def readBranch : Reader Instruction :=
  (do return .branch (← blockLabel))
  <|> (do
    let condition ← typedOperand
    comma
    let ifTrue ← blockLabel
    comma
    let ifFalse ← blockLabel
    return .branchIf condition.value ifTrue ifFalse)

/-- Operands of a load. -/
def readLoad (result : String) : Reader Instruction := do
  flags memoryFlags
  let type ← typeSpelling
  comma
  let address ← typedOperand
  return if isPointer type then .address result "load" else .load result type address.value

/-- Operands of a store. -/
def readStore : Reader Instruction := do
  flags memoryFlags
  let stored ← typedOperand
  comma
  let address ← typedOperand
  return .store stored.type stored.value address.value

/-- Two operands that share the type written before the first. -/
def operandPair : Reader (String × List TypedOperand) := do
  let left ← typedOperand
  comma
  let right ← operand
  return (left.type, [left, ⟨left.type, right⟩])

/-- Operands of two-operand arithmetic. -/
def readArith (result : String) (op : Arith) : Reader Instruction := do
  flags arithmeticFlags
  let (type, operands) ← operandPair
  return computing result type (.arith op) operands

/-- A word with blanks after it. -/
def spacedWord : Reader String := do
  let text ← word
  gap1
  return text

/-- Operands of an integer comparison. -/
def readIntComparison (result : String) : Reader Instruction := do
  flags integerFlags
  let predicate ← filterMap spacedWord IntPredicate.ofMnemonic?
  let (_, operands) ← operandPair
  return computing result "i1" (.icmp predicate) operands

/-- Operands of a floating point comparison. -/
def readFloatComparison (result : String) : Reader Instruction := do
  flags fastMathFlags
  let predicate ← filterMap spacedWord FloatPredicate.ofMnemonic?
  let (_, operands) ← operandPair
  return computing result "i1" (.fcmp predicate) operands

/-- Operands of a selection. Both choices have the type of the first. -/
def readSelect (result : String) : Reader Instruction := do
  flags fastMathFlags
  let condition ← typedOperand
  comma
  let ifTrue ← typedOperand
  comma
  let ifFalse ← typedOperand
  return computing result ifTrue.type .select
    [condition, ifTrue, ⟨ifTrue.type, ifFalse.value⟩]

/-- Operands of a conversion. -/
def readCast (result : String) (cast : Cast) : Reader Instruction := do
  flags integerFlags
  let source ← typedOperand
  gap1
  keyword "to"
  gap1
  let target ← typeSpelling
  return if isPointer source.type then .address result cast.mnemonic
    else computing result target (.cast cast) [source]

/-- The operand of a one-operand computation. -/
def readUnary (result : String) (opcode : Opcode) : Reader Instruction := do
  flags fastMathFlags
  let source ← typedOperand
  return computing result source.type opcode [source]

/-- Operands of a call. Without a result, or with the result type `void`, a call is an effect. -/
def readCall (result : Option String) : Reader Instruction := do
  flags callAttributes
  let type ← typeSpelling
  gap1
  let callee ← globalSymbol <|> reference
  char '('
  gap
  let arguments ← sepBy comma typedOperand
  gap
  char ')'
  return match result with
    | some result =>
      if type == "void" then .effect "call"
      else computing result type (.call (String.ofList (callee.toList.drop 1))) arguments
    | none => .effect "call"

/-- An instruction of which nothing behind the operation is looked at. -/
def readNothing (instruction : Instruction) : Reader Instruction := fun _ =>
  .done instruction []

/-- The reader of the operands of an operation, by whether the line defines a reference. -/
def operandReader? (result : Option String) (opcode : String) : Option (Reader Instruction) :=
  match result with
  | some result =>
    match opcode with
    | "phi" => some (readPhi result)
    | "load" => some (readLoad result)
    | "getelementptr" | "alloca" | "inttoptr" | "ptrtoint" | "addrspacecast" =>
      some (readNothing (.address result opcode))
    | "icmp" => some (readIntComparison result)
    | "fcmp" => some (readFloatComparison result)
    | "select" => some (readSelect result)
    | "fneg" => some (readUnary result .fneg)
    | "freeze" => some (readUnary result .freeze)
    | "call" => some (readCall (some result))
    | other =>
      match Cast.ofMnemonic? other with
      | some cast => some (readCast result cast)
      | none => (Arith.ofMnemonic? other).map (readArith result)
  | none =>
    match opcode with
    | "br" => some readBranch
    | "store" => some readStore
    | "call" => some (readCall none)
    | "ret" | "unreachable" | "switch" | "fence" | "resume" =>
      some (readNothing (.effect opcode))
    | _ => none

/-- The reference a line defines, with the equals sign behind it. -/
def assignment : Reader String := do
  let result ← reference
  gap
  char '='
  gap
  return result

/-- A word with any blanks after it. -/
def wordAndGap : Reader String := do
  let text ← word
  gap
  return text

/-- Whether what is left of a line is nothing but attributes. -/
def isTrailer (rest : List Char) : Bool :=
  match trim rest with
  | [] => true
  | c :: _ => c == ',' || c == '#' || c == '!'

/-- Words before a call that say how it may be optimised. -/
def tailMarkers : List String :=
  ["tail", "musttail", "notail"]

/-- Read the operands of `opcode` and check what follows them. `text` is the whole line and `named`
    what is left of it from the operation on. -/
def readOperands (text named : List Char) (result : Option String) (opcode : String)
    (rest : List Char) : Except (Located Problem) Instruction :=
  match operandReader? result opcode with
  | none => .error ⟨.unknownOpcode opcode, bytePosition text named⟩
  | some reader =>
    match reader rest with
    | .done instruction rest =>
      if isTrailer rest then .ok instruction
      else .error ⟨.trailing opcode (String.ofList rest), bytePosition text rest⟩
    | .miss rest | .stuck rest => .error ⟨.malformed opcode, bytePosition text rest⟩

/-- Read a line from the operation on; tail markers before a call are passed. -/
def readOperation (text : List Char) (result : Option String) (named : List Char) :
    Except (Located Problem) Instruction :=
  match wordAndGap named with
  | .done opcode rest =>
    if tailMarkers.contains opcode then
      match wordAndGap rest with
      | .done opcode rest => readOperands text named result opcode rest
      | .miss _ | .stuck _ => .error ⟨.expectedCall, bytePosition text rest⟩
    else readOperands text named result opcode rest
  | .miss _ | .stuck _ => .error ⟨.expectedOpcode, bytePosition text named⟩

/-- Read a line without surrounding blanks. -/
def readTrimmed (text : List Char) : Except (Located Problem) Instruction :=
  match assignment text with
  | .done result rest => readOperation text (some result) rest
  | .miss _ | .stuck _ => readOperation text none text

/-- Read one line of a listing. Positions count from the first character that is not blank. -/
def read (line : String) : Except (Located Problem) Instruction :=
  readTrimmed (trim line.toList)

end RegionFlow.Instruction
