import Reckoner.Proofs.Grammar.Soundness
import Reckoner.Proofs.Parser.Fuel

/-!
# Fuel does not change what a rule replies

Each rule of the grammar extends its own replies when the fuel grows. A rule with an expression
inside also extends them when the parser of that expression extends its own, so an expression that
is unfolded deeper extends the one that is not.
-/

namespace Reckoner.Grammar

open Reckoner.Parser Reckoner.TextParser

variable {n m : Nat}

/-! ## Rules without expressions inside -/

theorem extends_sign (more : n ≤ m) : sign.Extends n sign m := by
  have minus : (((char '-').seqLeft spaces).seqRight (.pure (-1.0))).Extends n
      (((char '-').seqLeft spaces).seqRight (.pure (-1.0))) m :=
    ((extends_char '-').seqLeft (extends_spaces more)).seqRight (extends_pure _)
  have plus : ((char '+').seqRight (.pure 1.0)).Extends n ((char '+').seqRight (.pure 1.0)) m :=
    (extends_char '+').seqRight (extends_pure _)
  exact minus.firstOf (.cons plus (.cons (extends_pure _) .nil))

theorem extends_digits (more : n ≤ m) : digits.Extends n digits m :=
  (extends_satisfy Char.isDigit "0-9").many1 more

theorem extends_fraction (more : n ≤ m) : fraction.Extends n fraction m :=
  ((extends_char '.').seqRight (extends_digits more)).map _

theorem extends_exponent (more : n ≤ m) : exponent.Extends n exponent m := by
  have mark : ((char 'e').orElse (char 'E')).Extends n ((char 'e').orElse (char 'E')) m :=
    (extends_char 'e').orElse (extends_char 'E')
  exact (mark.seqRight (extends_sign more)).bind fun _ => (extends_digits more).map _

theorem extends_numeral (more : n ≤ m) : numeral.Extends n numeral m := by
  have tail := (extends_fraction more).orDefault []
  refine Extends.bind (Extends.orElse ?_ (extends_fraction more)) fun _ => ?_
  · exact (extends_digits more).bind fun _ => tail.map _
  · exact ((extends_exponent more).orDefault []).map _

theorem extends_magnitude (more : n ≤ m) : magnitude.Extends n magnitude m :=
  (extends_numeral more).map _

theorem extends_number (more : n ≤ m) : number.Extends n number m :=
  ((extends_sign more).bind fun _ => (extends_magnitude more).map _).mapError _

theorem extends_numberOperand (more : n ≤ m) : numberOperand.Extends n numberOperand m :=
  (extends_number more).map _

theorem extends_operator : operator.Extends n operator m := by
  have signs (o : Operation) : (operatorSign o).Extends n (operatorSign o) m :=
    (extends_ofStep _).map _
  have others : ExtendsAll ((Operation.all.drop 1).map operatorSign) n
      ((Operation.all.drop 1).map operatorSign) m :=
    List.forall₂_map_left_iff.mpr (List.forall₂_map_right_iff.mpr
      (List.forall₂_same.mpr fun o _ => signs o))
  exact ((signs .add).firstOf others).mapError _

section

variable [Alphabet]

theorem extends_nameChar :
    (alphanumeric.orElse (char '_')).Extends n (alphanumeric.orElse (char '_')) m :=
  (((extends_satisfy _ _).orElse (extends_satisfy _ _)).mapError _).orElse (extends_char '_')

theorem extends_name (more : n ≤ m) : name.Extends n name m :=
  ((extends_nameChar.many1 more).map _).mapError _

theorem extends_variableOperand (more : n ≤ m) : variableOperand.Extends n variableOperand m :=
  ((extends_char '#').seqRight (extends_name more)).map _

end

/-! ## Rules with an expression inside -/

section Nested

variable {inner inner' : TextParser Expr}

theorem extends_bracketed {α β : Type} {opening opening' : TextParser β} {body body' : TextParser α}
    (close : Char) (hopen : opening.Extends n opening' m) (hbody : body.Extends n body' m)
    (more : n ≤ m) :
    ((((opening.seqRight spaces).seqRight body).seqLeft spaces).seqLeft (char close)).Extends n
      ((((opening'.seqRight spaces).seqRight body').seqLeft spaces).seqLeft (char close)) m :=
  have opened := (hopen.seqRight (extends_spaces more)).seqRight hbody
  (opened.seqLeft (extends_spaces more)).seqLeft (extends_char close)

theorem extends_referenceOperand (h : inner.Extends n inner' m) (more : n ≤ m) :
    (referenceOperand inner).Extends n (referenceOperand inner') m :=
  (extends_bracketed ']' ((extends_char 'v').seqRight (extends_char '[')) h more).map _

theorem extends_separator (more : n ≤ m) :
    ((spaces.seqLeft (char ',')).seqLeft spaces).Extends n
      ((spaces.seqLeft (char ',')).seqLeft spaces) m :=
  ((extends_spaces more).seqLeft (extends_char ',')).seqLeft (extends_spaces more)

theorem extends_arguments (h : inner.Extends n inner' m) (more : n ≤ m) :
    (arguments inner).Extends n (arguments inner') m :=
  extends_bracketed ')' (extends_char '(') (h.sepBy (extends_separator more) more) more

theorem extends_groupOperand (h : inner.Extends n inner' m) (more : n ≤ m) :
    (groupOperand inner).Extends n (groupOperand inner') m :=
  (extends_bracketed ')' (extends_char '(') h more).map _

theorem extends_rightHandSide (o : Operation) (left : Expr) (h : inner.Extends n inner' m)
    (more : n ≤ m) : (rightHandSide inner o left).Extends n (rightHandSide inner' o left) m :=
  ((extends_spaces more).seqRight h).map _

theorem extends_continuation (left : Expr) (h : inner.Extends n inner' m) (more : n ≤ m) :
    (continuation inner left).Extends n (continuation inner' left) m := by
  have sign := ((extends_spaces more).seqRight extends_operator).map some
  refine (sign.orDefault none).bind fun found => ?_
  cases found with
  | none => exact extends_pure left
  | some o => exact extends_rightHandSide o left h more

variable [Alphabet]

theorem extends_boundOperand (h : inner.Extends n inner' m) (more : n ≤ m) :
    (boundOperand inner).Extends n (boundOperand inner') m :=
  (extends_variableOperand more).farthestOf (.cons (extends_referenceOperand h more) .nil)

theorem extends_callOperand (h : inner.Extends n inner' m) (more : n ≤ m) :
    (callOperand inner).Extends n (callOperand inner') m :=
  ((extends_name more).both (extends_arguments h more)).map _

theorem extends_operand (h : inner.Extends n inner' m) (more : n ≤ m) :
    (operand inner).Extends n (operand inner') m := by
  refine (extends_ofStep _).bind fun start => Extends.mapError _ ?_
  refine (extends_groupOperand h more).farthestOf (.cons (extends_numberOperand more) ?_)
  exact .cons (extends_callOperand h more) (.cons (extends_boundOperand h more) .nil)

theorem extends_expressionLevel (h : inner.Extends n inner' m) (more : n ≤ m) :
    (expressionLevel inner).Extends n (expressionLevel inner') m :=
  (extends_operand h more).bind fun left => extends_continuation left h more

end Nested

variable [Alphabet]

theorem extends_expressionAt {depth depth' : Nat} (deeper : depth ≤ depth') (more : n ≤ m) :
    (expressionAt depth).Extends n (expressionAt depth') m :=
  extends_unfolded (fun _ _ h => extends_expressionLevel h more) deeper

theorem extends_expression (more : n ≤ m) : expression.Extends n expression m :=
  extends_fix more fun _ _ h => extends_expressionLevel h more

theorem extends_source (more : n ≤ m) : source.Extends n source m := by
  have start := (extends_spaces more).seqRight (extends_expression more)
  exact (start.seqLeft (extends_spaces more)).seqLeft (extends_ofLook _)

end Reckoner.Grammar
