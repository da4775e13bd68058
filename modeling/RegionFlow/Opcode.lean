/-
Module: RegionFlow.Opcode
Purpose: Operations of computations. Each family of mnemonics is an enumeration with its list of
  members; a mnemonic is read by looking it up among the members, so reading inverts naming.
  `Opcode.apply` writes an operation applied to operands that are already written out.
Main exports: IntPredicate, FloatPredicate, Cast, Arith, Opcode, Opcode.name, Opcode.apply
-/
import RegionFlow.ScalarType
import RegionFlow.Text.Split

namespace RegionFlow

/-- Comparison of integers. -/
inductive IntPredicate where
  | eq | ne | ugt | uge | ult | ule | sgt | sge | slt | sle
deriving DecidableEq, Repr, Inhabited

namespace IntPredicate

/-- Every integer comparison. -/
def all : List IntPredicate :=
  [eq, ne, ugt, uge, ult, ule, sgt, sge, slt, sle]

/-- Word that names the comparison in a listing. -/
def mnemonic : IntPredicate → String
  | eq => "eq"
  | ne => "ne"
  | ugt => "ugt"
  | uge => "uge"
  | ult => "ult"
  | ule => "ule"
  | sgt => "sgt"
  | sge => "sge"
  | slt => "slt"
  | sle => "sle"

/-- Comparison named by a word. -/
def ofMnemonic? (word : String) : Option IntPredicate :=
  all.find? fun predicate => predicate.mnemonic == word

/-- Operator sign; signedness is not shown. -/
def sign : IntPredicate → String
  | eq => "=="
  | ne => "!="
  | ugt | sgt => ">"
  | uge | sge => ">="
  | ult | slt => "<"
  | ule | sle => "<="

end IntPredicate

/-- Comparison of floating point numbers. -/
inductive FloatPredicate where
  | never | oeq | ogt | oge | olt | ole | one | ord
  | ueq | ugt | uge | ult | ule | une | uno | always
deriving DecidableEq, Repr, Inhabited

namespace FloatPredicate

/-- Every floating point comparison. -/
def all : List FloatPredicate :=
  [never, oeq, ogt, oge, olt, ole, one, ord, ueq, ugt, uge, ult, ule, une, uno, always]

/-- Word that names the comparison in a listing. -/
def mnemonic : FloatPredicate → String
  | never => "false"
  | oeq => "oeq"
  | ogt => "ogt"
  | oge => "oge"
  | olt => "olt"
  | ole => "ole"
  | one => "one"
  | ord => "ord"
  | ueq => "ueq"
  | ugt => "ugt"
  | uge => "uge"
  | ult => "ult"
  | ule => "ule"
  | une => "une"
  | uno => "uno"
  | always => "true"

/-- Comparison named by a word. -/
def ofMnemonic? (word : String) : Option FloatPredicate :=
  all.find? fun predicate => predicate.mnemonic == word

/-- Operator sign; constant and ordering predicates have none. -/
def sign? : FloatPredicate → Option String
  | oeq | ueq => some "=="
  | one | une => some "!="
  | ogt | ugt => some ">"
  | oge | uge => some ">="
  | olt | ult => some "<"
  | ole | ule => some "<="
  | never | ord | uno | always => none

end FloatPredicate

/-- Conversion between types. -/
inductive Cast where
  | trunc | zext | sext | fptrunc | fpext | fptoui | fptosi | uitofp | sitofp | bitcast
deriving DecidableEq, Repr, Inhabited

namespace Cast

/-- Every conversion. -/
def all : List Cast :=
  [trunc, zext, sext, fptrunc, fpext, fptoui, fptosi, uitofp, sitofp, bitcast]

/-- Word that names the conversion in a listing. -/
def mnemonic : Cast → String
  | trunc => "trunc"
  | zext => "zext"
  | sext => "sext"
  | fptrunc => "fptrunc"
  | fpext => "fpext"
  | fptoui => "fptoui"
  | fptosi => "fptosi"
  | uitofp => "uitofp"
  | sitofp => "sitofp"
  | bitcast => "bitcast"

/-- Conversion named by a word. -/
def ofMnemonic? (word : String) : Option Cast :=
  all.find? fun cast => cast.mnemonic == word

end Cast

/-- Arithmetic on two operands. -/
inductive Arith where
  | add | sub | mul | udiv | sdiv | urem | srem | shl | lshr | ashr | and | or | xor
  | fadd | fsub | fmul | fdiv | frem
deriving DecidableEq, Repr, Inhabited

namespace Arith

/-- Every two-operand operation. -/
def all : List Arith :=
  [add, sub, mul, udiv, sdiv, urem, srem, shl, lshr, ashr, and, or, xor,
    fadd, fsub, fmul, fdiv, frem]

/-- Word that names the operation in a listing. -/
def mnemonic : Arith → String
  | add => "add"
  | sub => "sub"
  | mul => "mul"
  | udiv => "udiv"
  | sdiv => "sdiv"
  | urem => "urem"
  | srem => "srem"
  | shl => "shl"
  | lshr => "lshr"
  | ashr => "ashr"
  | and => "and"
  | or => "or"
  | xor => "xor"
  | fadd => "fadd"
  | fsub => "fsub"
  | fmul => "fmul"
  | fdiv => "fdiv"
  | frem => "frem"

/-- Operation named by a word. -/
def ofMnemonic? (word : String) : Option Arith :=
  all.find? fun op => op.mnemonic == word

/-- Operator sign. -/
def sign : Arith → String
  | add | fadd => "+"
  | sub | fsub => "-"
  | mul | fmul => "*"
  | udiv | sdiv | fdiv => "/"
  | urem | srem | frem => "%"
  | shl => "<<"
  | lshr | ashr => ">>"
  | and => "&"
  | or => "|"
  | xor => "^"

end Arith

/-- Operation performed by a computation. -/
inductive Opcode where
  /-- Two-operand arithmetic. -/
  | arith (op : Arith)
  /-- Negation of a floating point number. -/
  | fneg
  /-- Comparison of integers. -/
  | icmp (predicate : IntPredicate)
  /-- Comparison of floating point numbers. -/
  | fcmp (predicate : FloatPredicate)
  /-- Choice between two values by a condition. -/
  | select
  /-- Conversion to the result type. -/
  | cast (op : Cast)
  /-- Call of a function, named without its sigil. -/
  | call (callee : String)
  /-- Fixing of a value that may be poison. -/
  | freeze
deriving DecidableEq, Repr, Inhabited

namespace Opcode

/-- Printed name of an operation. -/
def name : Opcode → String
  | arith op => op.mnemonic
  | fneg => "fneg"
  | icmp predicate => "icmp " ++ predicate.mnemonic
  | fcmp predicate => "fcmp " ++ predicate.mnemonic
  | select => "select"
  | cast op => op.mnemonic
  | call callee => "call @" ++ callee
  | freeze => "freeze"

/-- Operation with a printed name. -/
def ofName? (text : String) : Option Opcode :=
  let chars := text.toList
  match text with
  | "fneg" => some fneg
  | "select" => some select
  | "freeze" => some freeze
  | _ =>
    match Text.after? "icmp ".toList chars with
    | some word => (IntPredicate.ofMnemonic? (String.ofList word)).map icmp
    | none =>
      match Text.after? "fcmp ".toList chars with
      | some word => (FloatPredicate.ofMnemonic? (String.ofList word)).map fcmp
      | none =>
        match Text.after? "call @".toList chars with
        | some callee => some (call (String.ofList callee))
        | none =>
          match Cast.ofMnemonic? text with
          | some op => some (cast op)
          | none => (Arith.ofMnemonic? text).map arith

/-- Operator sign between two operands, for operations written that way. -/
def sign? : Opcode → Option String
  | arith op => some op.sign
  | icmp predicate => some predicate.sign
  | fcmp predicate => predicate.sign?
  | fneg | select | cast _ | call _ | freeze => none

/-- Call form: the name and the operands in parentheses. -/
def callForm (callee : String) (operands : List String) : String :=
  callee ++ "(" ++ ", ".intercalate operands ++ ")"

/-- The operation applied to operands that are already written out. An operation with an
    unexpected number of operands is written in call form, so that no operand is taken for
    another. -/
def apply (opcode : Opcode) (type : ScalarType) (operands : List String) : String :=
  match opcode, operands with
  | fneg, [a] => "(-" ++ a ++ ")"
  | select, [c, t, f] => "(" ++ c ++ " ? " ++ t ++ " : " ++ f ++ ")"
  | cast _, [a] => "((" ++ type.name ++ ") " ++ a ++ ")"
  | freeze, [a] => a
  | call callee, arguments => callForm callee arguments
  | other, [a, b] =>
    match other.sign? with
    | some sign => "(" ++ a ++ " " ++ sign ++ " " ++ b ++ ")"
    | none => callForm other.name [a, b]
  | other, arguments => callForm other.name arguments

end Opcode

end RegionFlow
