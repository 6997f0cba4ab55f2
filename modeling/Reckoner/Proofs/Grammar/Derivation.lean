import Reckoner.Expr.Grammar

/-!
# Derivations

The grammar of expressions as a relation between texts and trees, with no regard to how a text is
read:

    source     := ws expression ws
    expression := operand | operand ws operator ws expression
    operand    := '(' ws expression ws ')' | number | '#' name | 'v[' ws expression ws ']'
                | function '(' ws [expression (ws ',' ws expression)*] ws ')'
    number     := [sign] (digits ['.' digits] | '.' digits) [('e' | 'E') [sign] digits]
    sign       := '-' ws | '+'
    name       := (letter | digit | '_')+
    function   := a name that does not start with a digit

`ws` is any number of spaces. The tree of a chain of operands is built from the right: each operand
is attached to the tree of what follows it. An operation in parentheses is marked as grouped.
-/

namespace Reckoner.Grammar

variable [Alphabet]

/-- Any number of spaces. -/
abbrev blanks (i : Nat) : List Char :=
  List.replicate i ' '

/-- The characters that names are made of. -/
def isNameChar (c : Char) : Bool :=
  isLetter c || c.isDigit || c = '_'

theorem isNameChar_of_ascii {c : Char} (ascii : c.toNat < 128) :
    isNameChar c = (c.isAlpha || c.isDigit || c = '_') := by
  rw [isNameChar, Alphabet.isLetter_of_ascii ascii]

theorem isNameChar_of_isAlpha {c : Char} (h : c.isAlpha = true) : isNameChar c = true := by
  have ascii : c.toNat < 128 := by
    rcases Bool.or_eq_true_iff.mp h with upper | lower
    · have last : c.val ≤ 'Z'.val := (of_decide_eq_true upper).2
      exact Nat.lt_of_le_of_lt (UInt32.le_iff_toNat_le.mp last) (by decide)
    · have last : c.val ≤ 'z'.val := of_decide_eq_true (Bool.and_eq_true_iff.mp lower).2
      exact Nat.lt_of_le_of_lt (UInt32.le_iff_toNat_le.mp last) (by decide)
  rw [isNameChar_of_ascii ascii, h, Bool.true_or, Bool.true_or]

/-- One or more digits. -/
def IsDigits (s : List Char) : Prop :=
  s ≠ [] ∧ ∀ c ∈ s, c.isDigit = true

/-- The name of a variable. -/
def IsName (s : List Char) : Prop :=
  s ≠ [] ∧ ∀ c ∈ s, isNameChar c = true

/-- No digit is at the front. -/
def NoDigit (s : List Char) : Prop :=
  ∀ c ∈ s.head?, c.isDigit = false

/-- The name of a function, which a number cannot be mistaken for. -/
def IsFunctionName (s : List Char) : Prop :=
  IsName s ∧ NoDigit s

/-! ## Numbers -/

/-- An optional sign, and whether it is a minus. -/
inductive Sign : List Char → Bool → Prop
  | absent : Sign [] false
  | plus : Sign ['+'] false
  | minus (i : Nat) : Sign ('-' :: blanks i) true

/-- The factor that a sign stands for. -/
def signValue (negative : Bool) : Float :=
  if negative then -1.0 else 1.0

/-- The part of a number before its exponent. -/
inductive Mantissa : List Char → Prop
  | whole {ds : List Char} : IsDigits ds → Mantissa ds
  | point {ds fs : List Char} : IsDigits ds → IsDigits fs → Mantissa (ds ++ '.' :: fs)
  | fraction {fs : List Char} : IsDigits fs → Mantissa ('.' :: fs)

/-- An optional exponent, and how the numeral of the number writes it: with a lower-case mark, a
minus without spaces and no plus. -/
inductive Exponent : List Char → List Char → Prop
  | absent : Exponent [] []
  | present {mark : Char} {sign ds : List Char} {negative : Bool} :
      mark = 'e' ∨ mark = 'E' → Sign sign negative → IsDigits ds →
      Exponent (mark :: (sign ++ ds)) ((if negative then ['e', '-'] else ['e']) ++ ds)

/-- A number: its sign applied to the value of its numeral. -/
inductive Number : List Char → Float → Prop
  | mk {sign mantissa exponent written : List Char} {negative : Bool} :
      Sign sign negative → Mantissa mantissa → Exponent exponent written →
      Number (sign ++ (mantissa ++ exponent))
        (signValue negative * numeralValue (mantissa ++ written))

/-! ## Expressions -/

/-- Arguments after the first one, each after a comma. -/
inductive FurtherArguments (item : List Char → Expr → Prop) : List Char → List Expr → Prop
  | nil : FurtherArguments item [] []
  | cons {s t : List Char} {e : Expr} {es : List Expr} (i j : Nat) :
      item s e → FurtherArguments item t es →
      FurtherArguments item (blanks i ++ ',' :: (blanks j ++ (s ++ t))) (e :: es)

/-- The arguments of a call. -/
inductive Arguments (item : List Char → Expr → Prop) : List Char → List Expr → Prop
  | none : Arguments item [] []
  | some {s t : List Char} {e : Expr} {es : List Expr} :
      item s e → FurtherArguments item t es → Arguments item (s ++ t) (e :: es)

mutual
/-- An expression and its tree. -/
inductive Expression : List Char → Expr → Prop
  | operand {s : List Char} {a : Expr} : Operand s a → Expression s a
  | operation {s t : List Char} {a e : Expr} (i j : Nat) (o : Operation) :
      Operand s a → Expression t e →
      Expression (s ++ (blanks i ++ (o.symbol.toList ++ (blanks j ++ t)))) (a.attach o e)

/-- An operand and its tree. -/
inductive Operand : List Char → Expr → Prop
  | group {s : List Char} {e : Expr} (i j : Nat) :
      Expression s e → Operand ('(' :: (blanks i ++ (s ++ (blanks j ++ [')'])))) e.group
  | number {s : List Char} {x : Float} : Number s x → Operand s (.number x)
  | var {s : List Char} : IsName s → Operand ('#' :: s) (.var (String.ofList s))
  | reference {s : List Char} {e : Expr} (i j : Nat) :
      Expression s e →
      Operand ('v' :: '[' :: (blanks i ++ (s ++ (blanks j ++ [']'])))) (.external e)
  | call {f s : List Char} {es : List Expr} (i j : Nat) :
      IsFunctionName f → Arguments Expression s es →
      Operand (f ++ '(' :: (blanks i ++ (s ++ (blanks j ++ [')'])))) (.call (String.ofList f) es)
end

/-- A whole source and its tree. -/
inductive Source : List Char → Expr → Prop
  | mk {s : List Char} {e : Expr} (i j : Nat) :
      Expression s e → Source (blanks i ++ (s ++ blanks j)) e

end Reckoner.Grammar
