import Reckoner.Proofs.Parser.Relocation
import Reckoner.Text.Letter

/-!
# Reading on behind more text

The rules of the grammar are relocatable, up to operands. An operand asks for its place, to see
whether an error was met there, where no operand of any kind starts. Places that are equal are moved
to places that are equal. So that choice of words is moved as well, and an expression that is read
where some text ends is read as if it stood alone.
-/

namespace Reckoner.Grammar

open Reckoner.Parser Reckoner.TextParser

variable {known : KnownMatching} {front text : List Char}

/-! ## Rules without a place -/

theorem relocatable_sign : Relocatable known TextError.Moved sign := by
  refine .firstOf ((Relocatable.seqLeft (.char _) .spaces).seqRight (.pure _)) ?_
  exact List.forall_mem_cons.mpr
    ⟨(Relocatable.char _).seqRight (.pure _), List.forall_mem_singleton.mpr (.pure _)⟩

theorem relocatable_digits : Relocatable known TextError.Moved digits :=
  .many1 .digit

theorem relocatable_fraction : Relocatable known TextError.Moved fraction :=
  .map _ ((Relocatable.char _).seqRight relocatable_digits)

theorem relocatable_exponent : Relocatable known TextError.Moved exponent := by
  have mark : Relocatable known TextError.Moved ((char 'e').orElse (char 'E')) :=
    .orElse (.char _) (.char _)
  exact .bind (mark.seqRight relocatable_sign) fun _ => .map _ relocatable_digits

theorem relocatable_number : Relocatable known TextError.Moved number := by
  have integral : Relocatable known TextError.Moved (digits.bind fun text =>
      (fraction.orDefault []).map fun tail => text ++ tail) :=
    .bind relocatable_digits fun _ => .map _ (.orDefault _ relocatable_fraction)
  have numeral : Relocatable known TextError.Moved numeral :=
    .bind (.orElse integral relocatable_fraction) fun _ =>
      .map _ (.orDefault _ relocatable_exponent)
  exact .expecting _ (.bind relocatable_sign fun _ => .map _ (.map _ numeral))

theorem relocatable_operator : Relocatable known TextError.Moved operator := by
  have signs (o : Operation) : Relocatable known TextError.Moved (operatorSign o) :=
    .map _ (.literal _)
  refine .expecting _ (.firstOf (signs _) fun q hq => ?_)
  obtain ⟨o, -, rfl⟩ := List.mem_map.mp hq
  exact signs o

theorem relocatable_name [Alphabet] : Relocatable known TextError.Moved name :=
  .expecting _ (.map _ (.many1 (.orElse .alphanumeric (.char _))))

/-! ## Rules around an expression -/

section Nested

variable {inner : TextParser Expr}

theorem relocatable_bracketed {α β : Type} {opening : TextParser β} {body : TextParser α}
    (ho : Relocatable known TextError.Moved opening) (hb : Relocatable known TextError.Moved body)
    (close : Char) :
    Relocatable known TextError.Moved
      ((((opening.seqRight spaces).seqRight body).seqLeft spaces).seqLeft (char close)) :=
  (((ho.seqRight .spaces).seqRight hb).seqLeft .spaces).seqLeft (.char close)

theorem relocatable_continuation (h : Relocatable known TextError.Moved inner) (left : Expr) :
    Relocatable known TextError.Moved (continuation inner left) := by
  refine .bind (.orDefault _ (.map _ (Relocatable.spaces.seqRight relocatable_operator))) ?_
  intro o?
  cases o? with
  | none => exact .pure _
  | some o => exact .map _ (Relocatable.spaces.seqRight h)

/-- Whether an error was met where the operand starts is the same behind more text. -/
theorem moved_operandError {start start' : Position} {e e' : TextError}
    (hs : start.Moved front text start') (he : e.Moved front text e') :
    (operandError start e).Moved front text (operandError start' e') := by
  have same : e.position? = some start ↔ e'.position? = some start' := by
    have places := he.position?
    generalize e.position? = place at places ⊢
    generalize e'.position? = place' at places ⊢
    cases places with
    | none => exact iff_of_false nofun nofun
    | some place => rw [Option.some_inj, Option.some_inj, place.eq_iff hs]
  unfold operandError
  by_cases here : e.position? = some start
  · rw [if_pos here, if_pos (same.mp here)]
    exact he.expecting _
  · rw [if_neg here, if_neg fun here' => here (same.mpr here')]
    exact he

variable [Alphabet]

theorem relocatable_callOperand (h : Relocatable known TextError.Moved inner) :
    Relocatable known TextError.Moved (callOperand inner) := by
  have separator : Relocatable known TextError.Moved
      ((spaces.seqLeft (char ',')).seqLeft spaces) :=
    (Relocatable.spaces.seqLeft (.char _)).seqLeft .spaces
  exact .map _ (.both relocatable_name (relocatable_bracketed (.char _) (.sepBy h separator) _))

theorem relocatable_boundOperand (h : Relocatable known TextError.Moved inner) :
    Relocatable known TextError.Moved (boundOperand inner) := by
  have reference : Relocatable known TextError.Moved (referenceOperand inner) :=
    .map _ (relocatable_bracketed ((Relocatable.char _).seqRight (.char _)) h _)
  exact .farthestOf ranked_moved (.map _ ((Relocatable.char _).seqRight relocatable_name))
    (List.forall_mem_singleton.mpr reference)

theorem relocates_operand (h : Relocates TextError.Moved inner) :
    Relocates TextError.Moved (operand inner) := by
  have known : Relocatable (fun _ _ E p => Relocates E p) TextError.Moved inner := .known h
  have anyKind := Relocatable.farthestOf ranked_moved
    (.map Expr.group (relocatable_bracketed (.char '(') known ')'))
    (List.forall_mem_cons.mpr ⟨.map Expr.number relocatable_number,
      List.forall_mem_cons.mpr ⟨relocatable_callOperand known,
        List.forall_mem_singleton.mpr (relocatable_boundOperand known)⟩⟩)
  intro front text n
  refine moved_position.bind ?_
  intro start start' place
  exact (anyKind.relocates (fun _ _ _ _ h => h) front text n).mapError
    fun e e' he => moved_operandError place he

end Nested

section

variable [Alphabet]

theorem relocates_expression : Relocates TextError.Moved expression := by
  refine relocates_fix _ fun inner h => ?_
  have operand : Relocatable (fun _ _ E p => Relocates E p) TextError.Moved (operand inner) :=
    .known (relocates_operand h)
  have level := operand.bind (relocatable_continuation (.known h))
  exact level.relocates fun _ _ _ _ h => h

/-! ## Runs behind more text -/

/-- A relocatable parser, started where some text in front ends, answers what it answers on the text
alone: it succeeds with the same value, fails with an error that expected and found the same, or
halts with it. So does an expression. The place reached and the place of the error, if there is one,
have their indices raised by the length of the text in front, and the numbers of these indices in
the whole text. -/
theorem resumes_behind_text :
    (∀ {α : Type} {p : TextParser α}, Relocatable (fun _ _ _ _ => False) TextError.Moved p →
      ∀ n front text, (p.parse n text .start).Moved front text Eq (TextError.Moved front text)
        (p.parse n (front ++ text) (Position.start.after front))) ∧
    (∀ n front text, (expression.parse n text .start).Moved front text Eq
      (TextError.Moved front text)
      (expression.parse n (front ++ text) (Position.start.after front))) ∧
    ∀ front text q q', Position.Moved front text q q' →
      q'.index = front.length + q.index ∧
      ∃ j, j ≤ (front ++ text).length ∧
        q' = ⟨j, 1 + ((front ++ text).take j).count '\n',
          1 + (lastLine ((front ++ text).take j)).length⟩ := by
  refine ⟨?parsers, ?expressions, ?numbers⟩
  case parsers =>
    intro α p relocatable n front text
    exact relocatable.relocates (fun _ _ _ _ none => none.elim) front text n _ _
      Position.moved_start
  case expressions =>
    intro n front text
    exact relocates_expression front text n _ _ Position.moved_start
  case numbers =>
    intro front text q q' moved
    refine ⟨moved.index_eq, ?_⟩
    obtain ⟨i, inside, -, place⟩ := moved
    have within : front.length + i ≤ (front ++ text).length := by
      rw [List.length_append]
      exact Nat.add_le_add_left inside _
    exact ⟨front.length + i, within, place.trans (ofIndex_eq within)⟩

end

/-- Digits between commas, none of them a zero, on the second line of a text. -/
theorem resumes_behind_text_digits :
    let nonzero := digit.filter (· ≠ '0') fun c => ⟨"1-9", String.singleton c, none⟩
    let p := sepBy nonzero (char ',')
    ∃ q', p.parse 5 ['x', '\n', '1', ',', '2', ';'] (Position.start.after ['x', '\n']) =
        .success ['1', '2'] ['x', '\n', '1', ',', '2', ';'] q' ∧
      Position.Moved ['x', '\n'] ['1', ',', '2', ';'] ⟨3, 1, 4⟩ q' ∧ q'.index = 5 := by
  intro nonzero p
  obtain ⟨parsers, -, numbers⟩ := resumes_behind_text
  have relocatable : Relocatable (fun _ _ _ _ => False) TextError.Moved p :=
    .sepBy (.filter (fun _ _ _ _ => TextError.moved_of_unplaced rfl) .digit) (.char ',')
  have alone : p.parse 5 ['1', ',', '2', ';'] .start =
    .success ['1', '2'] ['1', ',', '2', ';'] ⟨3, 1, 4⟩ := rfl
  have moved := parsers relocatable 5 ['x', '\n'] ['1', ',', '2', ';']
  rw [alone] at moved
  generalize behind : p.parse 5 (['x', '\n'] ++ ['1', ',', '2', ';']) _ = reply at moved
  cases moved with
  | success same place =>
    cases same
    exact ⟨_, behind, place, (numbers _ _ _ _ place).1⟩

/-- An error with a place of its own making stays where it is. -/
theorem made_place_not_moved :
    let e : TextError := ⟨"x", TextError.endMark, some .start⟩
    let p := (char 'b').filter (fun _ => false) fun _ => e
    p.parse 0 ['b'] .start = .failure e ['b'] .start ∧
      p.parse 0 ['a', 'b'] (Position.start.after ['a']) =
        .failure e ['a', 'b'] (Position.start.after ['a']) ∧
      ¬ e.Moved ['a'] ['b'] e := by
  intro e p
  refine ⟨rfl, rfl, ?_⟩
  intro moved
  cases moved.position? with
  | some place => exact absurd place.index_eq (by decide)

end Reckoner.Grammar
