import Reckoner.Proofs.Eval.Dependence
import Reckoner.Proofs.Grammar.Edges
import Reckoner.Session.Answer

/-!
# Sources in lines

A source that is entered as a line is taken for an expression, and a definition after `:let ` for a
line that binds its name. The blanks around a line are lost on the way, and what is left of the
source has the same tree. So the answer is the value of that tree in the variables of the session,
whatever else the line might have been taken for.
-/

namespace Reckoner

open Reckoner.Grammar

/-! ## Lines as commands -/

namespace Command

variable {line text source : String} {code rest spelt : List Char} {e : Expr}

theorem after?_append (word : String) (rest : List Char) :
    after? word (word.toList ++ rest) = some rest := by
  unfold after?
  rw [if_pos (by simp), List.drop_left]

/-- A line that binds a name, without the blanks around it. -/
theorem ofLine_let (h : trim line.toList = ":let ".toList ++ rest) :
    ofLine line = ofBinding rest := by
  have stays : String.ofList (":let ".toList ++ rest) ∉ farewells := by
    intro farewell
    have start : ∀ word ∈ farewells, ¬ ":let ".toList <+: word.toList := by decide +kernel
    exact start _ farewell ⟨rest, String.toList_ofList.symm⟩
  have no_tree : after? ":parse " (":let ".toList ++ rest) = none := rfl
  have no_list : ":let ".toList ++ rest ≠ ":vars".toList := by
    rintro ⟨⟩
  unfold ofLine
  dsimp only
  rw [h, if_neg (by simpa using stays), no_tree, if_neg no_list, after?_append]
  rfl

variable [Alphabet]

/-- No word that starts with a colon is at the start of an expression. -/
theorem not_prefix_of_expression {word : String} (colon : word.toList.head? = some ':')
    (h : Expression code e) : ¬ word.toList <+: code := by
  rintro ⟨tail, rfl⟩
  obtain ⟨c, front, -, other⟩ := h.edge
  rw [List.head?_append, colon, Option.some_or] at front
  exact other (Option.some.inj front).symm

theorem after?_of_expression {word : String} (colon : word.toList.head? = some ':')
    (h : Expression code e) : after? word code = none :=
  if_neg fun isPrefix => not_prefix_of_expression colon h (List.isPrefixOf_iff_prefix.mp isPrefix)

theorem ne_of_expression {word : String} (colon : word.toList.head? = some ':')
    (h : Expression code e) : code ≠ word.toList :=
  fun same => not_prefix_of_expression colon h (same ▸ List.prefix_refl _)

theorem not_farewell_of_expression (h : Expression code e) : String.ofList code ∉ farewells := by
  intro farewell
  have plain : ∀ word ∈ farewells, word.toList.all (!IsOperandMark ·) = true := by decide
  obtain ⟨c, mem, mark⟩ := h.has_mark
  have other := List.all_eq_true.mp (plain _ farewell) c (by rwa [String.toList_ofList])
  rw [mark] at other
  cases other

/-- A line that is a source is evaluated. -/
theorem ofLine_of_read? (h : Expr.read? line = .ok e) :
    ∃ source, ofLine line = .evaluate source ∧ Expr.read? source = .ok e := by
  have trimmed := (source_of_read? h).trim
  obtain ⟨c, front, -, other⟩ := trimmed.edge
  refine ⟨String.ofList (trim line.toList), ?_, read?_of_source ?_⟩
  · have colon : (trim line.toList).head? ≠ some ':' := by simpa [front] using other
    have some' : (trim line.toList).isEmpty = false := by
      cases code : trim line.toList with
      | nil => simp [code] at front
      | cons => rfl
    -- a command starts with a colon or is a farewell, and neither is an expression
    unfold ofLine
    dsimp only
    rw [if_neg (by simpa using not_farewell_of_expression trimmed), some',
      after?_of_expression rfl trimmed, if_neg (ne_of_expression rfl trimmed),
      after?_of_expression rfl trimmed, if_neg (ne_of_expression rfl trimmed), if_neg colon]
    rfl
  · simpa using Source.mk 0 0 trimmed

/-- A definition after `:let ` binds its name. -/
theorem ofLine_let_of_read? (h : splitDefinition text = (spelt, some source)) (named : spelt ≠ [])
    (hr : Expr.read? source = .ok e) : ∃ source', ofLine (":let " ++ text) =
      .bind (String.ofList spelt) source' ∧ Expr.read? source' = .ok e := by
  unfold splitDefinition at h
  generalize cut : cutAt '=' text.toList = parts at h
  obtain ⟨left, right?⟩ := parts
  obtain ⟨rfl, right⟩ := Prod.mk.inj h
  obtain ⟨right, rfl, rfl⟩ := Option.map_eq_some_iff.mp right
  obtain ⟨whole, plain⟩ := append_of_cutAt cut
  have derived := source_of_read? hr
  rw [String.toList_ofList] at derived
  cases derived with
  | @mk s _ i j he =>
    -- the line ends where the expression does, and the spaces `i` before it are left
    refine ⟨String.ofList (blanks i ++ s), ?_, read?_of_source ?_⟩
    · have solid : Solid (":let ".toList ++ (left ++ '=' :: (blanks i ++ s))) := by
        refine ⟨⟨':', rfl, by decide⟩, last_append _ (last_append _ ?_)⟩
        exact last_append ('=' :: blanks i) he.solid.last
      have trimmed : trim (":let " ++ text).toList =
          ":let ".toList ++ (left ++ '=' :: (blanks i ++ s)) := by
        have trimmed := trim_append solid (isBlank_blanks j)
        rw [String.toList_append, whole]
        simpa using trimmed
      rw [ofLine_let trimmed, ofBinding, splitDefinition, String.toList_ofList, cutAt_append plain]
      exact if_neg (by simpa using named)
    · simpa using Source.mk i 0 he

end Command

/-! ## Interpretations -/

section Interpretations

variable {debug : Bool} {env : Environment} {source : String} {e : Expr} {value : Float}
  {draws : Draws}

theorem ok_of_toOption {ε α : Type} {x : Except ε α} {v : α} (h : x.toOption = some v) :
    x = .ok v := by
  cases x with
  | error _ => cases h
  | ok w => exact congrArg Except.ok (Option.some.inj h)

variable [Alphabet]

theorem outcome_interpret (h : Expr.read? source = .ok e) :
    (interpret debug env source draws).outcome =
      (e.evaluate debug env draws).outcome.mapError Stop.toFailure := by
  unfold interpret Expr.readTraced
  rw [h]
  rfl

theorem draws_interpret (h : Expr.read? source = .ok e) :
    (interpret debug env source draws).draws = (e.evaluate debug env draws).draws := by
  unfold interpret Expr.readTraced
  rw [h]
  rfl

theorem interpret_eq_ok (h : (interpret debug env source draws).outcome = .ok value) :
    ∃ e, Expr.read? source = .ok e ∧ (e.evaluate debug env draws).outcome = .ok value := by
  cases read : Expr.read? source with
  | error err =>
    unfold interpret Expr.readTraced at h
    rw [read] at h
    cases h
  | ok e =>
    refine ⟨e, rfl, ?_⟩
    rw [outcome_interpret read] at h
    cases evaluated : (e.evaluate debug env draws).outcome with
    | error stop =>
      rw [evaluated] at h
      cases h
    | ok v =>
      rw [evaluated] at h
      cases h
      rfl

/-- Without `debug` nothing is traced. -/
theorem trace_interpret (env : Environment) (source : String) (draws : Draws) :
    (interpret false env source draws).trace = [] := by
  unfold interpret Expr.readTraced
  cases Expr.read? source with
  | error err => rfl
  | ok e => exact Expr.quiet_evaluate env e draws

end Interpretations

/-! ## Answers -/

namespace Session

variable [Alphabet] {debug debug' : Bool} {vars : Variables} {line text source : String}
  {spelt : List Char} {e : Expr} {value : Float} {draws : Draws}

/-- A line that is a source is answered by what becomes of its tree, behind the trace. -/
theorem answer_of_read? (h : Expr.read? line = .ok e) : ∃ trace, (debug = false → trace = []) ∧
    answer debug vars line draws =
      ⟨true, trace ++ [resultLine (fun value => "=> " ++ valueText value)
        ((e.evaluate debug (.ofVariables vars) draws).outcome.mapError Stop.toFailure)], vars,
        (e.evaluate debug (.ofVariables vars) draws).draws⟩ := by
  obtain ⟨source, command, read⟩ := Command.ofLine_of_read? h
  refine ⟨(interpret debug (.ofVariables vars) source draws).trace, ?_, ?_⟩
  · rintro rfl
    exact trace_interpret _ source draws
  · unfold answer
    rw [command, perform, shown, outcome_interpret read, draws_interpret read]

/-- A definition after `:let ` binds its name, if it has a value, and draws what its value draws. -/
theorem answer_let (h : splitDefinition text = (spelt, some source)) (named : spelt ≠ [])
    (hv : (interpret debug' (.ofVariables vars) source draws).outcome = .ok value) :
    (answer debug vars (":let " ++ text) draws).vars = vars.set (String.ofList spelt) value ∧
      (answer debug vars (":let " ++ text) draws).draws =
        (interpret debug' (.ofVariables vars) source draws).draws := by
  obtain ⟨e, read, evaluated⟩ := interpret_eq_ok hv
  obtain ⟨source', command, read'⟩ := Command.ofLine_let_of_read? h named read
  have alike := Expr.evaluate_alike debug debug' e (.refl _ _ (.ofVariables vars)) draws
  have outcome : (interpret debug (.ofVariables vars) source' draws).outcome = .ok value := by
    rw [outcome_interpret read', alike.outcome, evaluated]
    rfl
  have left : (interpret debug (.ofVariables vars) source' draws).draws =
      (interpret debug' (.ofVariables vars) source draws).draws := by
    rw [draws_interpret read', draws_interpret read]
    exact alike.draws
  unfold answer
  rw [command, perform]
  dsimp only
  rw [outcome]
  exact ⟨rfl, left⟩

/-- With or without a value, the session goes on. -/
theorem more_answer_let (h : splitDefinition text = (spelt, some source)) (named : spelt ≠ [])
    (hr : Expr.read? source = .ok e) : (answer debug vars (":let " ++ text) draws).more = true := by
  obtain ⟨source', command, -⟩ := Command.ofLine_let_of_read? h named hr
  unfold answer
  rw [command]
  rfl

end Session

/-! ## Definitions -/

section Definitions

variable {debug : Bool} {vars vars' : Variables} {text : String} {texts : List String}
  {draws draws' : Draws}

theorem exists_draws_of_vars {ε : Type} {x : Except ε (Variables × Draws)}
    (h : x.toOption.map Prod.fst = some vars) : ∃ draws, x = .ok (vars, draws) := by
  obtain ⟨⟨_, draws⟩, accepted, rfl⟩ := Option.map_eq_some_iff.mp h
  exact ⟨draws, ok_of_toOption accepted⟩

variable [Alphabet]

/-- A definition that is accepted gives a name of its own to a value. -/
theorem define_eq_ok (h : (define debug vars text draws).2 = .ok (vars', draws')) :
    ∃ spelt source value, splitDefinition text = (spelt, some source) ∧ isDefinable spelt = true ∧
      (interpret debug (.ofVariables vars) source draws).outcome = .ok value ∧
      vars' = vars.set (String.ofList spelt) value ∧
      draws' = (interpret debug (.ofVariables vars) source draws).draws := by
  unfold define at h
  split at h
  · next spelt source parts =>
    split at h
    · next definable =>
      dsimp only at h
      split at h
      · next value outcome =>
        cases h
        exact ⟨spelt, source, value, parts, definable, outcome, rfl, rfl⟩
      · cases h
    · cases h
  · cases h

theorem defineAll_cons_eq_ok
    (h : (defineAll debug vars draws (text :: texts)).2 = .ok (vars', draws')) :
    ∃ vars₁ draws₁, (define debug vars text draws).2 = .ok (vars₁, draws₁) ∧
      (defineAll debug vars₁ draws₁ texts).2 = .ok (vars', draws') := by
  unfold defineAll at h
  split at h
  · next trace vars₁ draws₁ first => exact ⟨vars₁, draws₁, by rw [first], h⟩
  · cases h

end Definitions

end Reckoner
