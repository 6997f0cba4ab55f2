import Reckoner.Proofs.Grammar.Inlining
import Reckoner.Proofs.Session.Commands
import Reckoner.Text.Letter

/-!
# Binding a name and writing out its source

A session that binds a name to the value of a source answers later lines as it would have answered
them before, with the source written out in parentheses wherever the name is referred to. The tree
of the line that is written out is the tree of the line with the tree of the source in place of the
variable, and evaluation does not tell that from the variable bound to its value. What a host gives
is a function of what it is asked for, so it makes no difference how often the source is evaluated,
unless it draws random numbers: these are drawn anew each time.
-/

namespace Reckoner

open Reckoner.Grammar

variable {debug : Bool} {env : Environment} {vars : Variables} {name source : String} {e₁ : Expr}
  {value : Float} {draws : Draws}

/-- An expression that draws nothing and has a value does what the value does. -/
theorem Expr.equivalent_of_value (nothing : e₁.draws env = 0)
    (hv : (e₁.evaluate debug env draws).outcome = .ok value) :
    (e₁.evaluate debug env).Equivalent (.of (.ok value)) :=
  (e₁.still_evaluate nothing).equivalent_of hv

theorem equivalent_inline_group (nothing : e₁.draws (.ofVariables vars) = 0)
    (hv : (e₁.evaluate debug (.ofVariables vars) draws).outcome = .ok value)
    (name : String) (e : Expr) :
    ((Expr.inline name e₁.group e).evaluate debug (.ofVariables vars)).Equivalent
      (e.evaluate debug (.ofVariables (vars.set name value))) := by
  have grouped := Expr.equivalent_of_value nothing hv
  rw [← Expr.evaluate_group] at grouped
  rw [← Environment.bind_ofVariables]
  exact Expr.equivalent_inline grouped e

section

variable [Alphabet]

theorem definedName_of_isName {s : List Char} (h : IsName s) : definedName (s ++ [' ']) = s := by
  have trimmed : trim (s ++ [' ']) = s := trim_append h.solid (isBlank_blanks 1)
  have sign : '#' ∉ s := h.not_mem (isNameChar_reserved (by decide))
  unfold definedName
  rw [trimmed]
  refine List.dropWhile_eq_self_iff.mpr fun some' front => sign ?_
  rw [← of_decide_eq_true front]
  exact List.getElem_mem some'

theorem splitDefinition_of_isName (h : IsName name.toList) (source : String) :
    splitDefinition (name ++ " = " ++ source) = (name.toList, some (" " ++ source)) := by
  have plain : '=' ∉ name.toList ++ [' '] := by
    simpa using h.not_mem (isNameChar_reserved (by decide))
  have whole : (name ++ " = " ++ source).toList =
      name.toList ++ [' '] ++ '=' :: (" " ++ source).toList := by
    simp
  unfold splitDefinition
  rw [whole, cutAt_append plain]
  dsimp only
  rw [definedName_of_isName h, Option.map_some, String.ofList_toList]

/-- A line that gives a name the value of a source. -/
theorem answer_binding (h : IsName name.toList) (hr : Expr.read? source = .ok e₁)
    (hv : (e₁.evaluate debug (.ofVariables vars) draws).outcome = .ok value) :
    (Session.answer debug vars (":let " ++ (name ++ " = " ++ source)) draws).more = true ∧
      (Session.answer debug vars (":let " ++ (name ++ " = " ++ source)) draws).vars =
        vars.set name value ∧
      (Session.answer debug vars (":let " ++ (name ++ " = " ++ source)) draws).draws =
        (e₁.evaluate debug (.ofVariables vars) draws).draws := by
  have read : Expr.read? (" " ++ source) = .ok e₁ := by
    refine read?_of_source ?_
    rw [String.toList_append]
    exact (source_of_read? hr).space
  have outcome : (interpret debug (.ofVariables vars) (" " ++ source) draws).outcome =
      .ok value := by
    rw [outcome_interpret read, hv]
    rfl
  have parts := splitDefinition_of_isName h source
  obtain ⟨set, left⟩ := @Session.answer_let _ debug debug _ _ _ _ _ _ parts h.1 outcome
  rw [String.ofList_toList] at set
  exact ⟨Session.more_answer_let parts h.1 read, set, left.trans (draws_interpret read)⟩

/-- Whether a variable is bound to the value of an expression that draws no random numbers or the
expression is written out in its place, an expression has the same value or error and draws the same
random numbers. The same goes for lines of a session: what is answered to a source after a name has
been bound to the value of another is what is answered before to the source with the other, in
parentheses, in place of each reference to the name. -/
theorem binding_agrees_with_inlining (debug : Bool) :
    (∀ env name e e₁ value draws, e₁.draws env = 0 →
      (e₁.evaluate debug env draws).outcome = .ok value →
      ((Expr.inline name e₁ e).evaluate debug env).Equivalent
        (e.evaluate debug (env.bind name value))) ∧
    ∀ vars name source line e₁ e value draws, IsName name.toList →
      Expr.read? source = .ok e₁ → e₁.draws (.ofVariables vars) = 0 →
      (e₁.evaluate debug (.ofVariables vars) draws).outcome = .ok value →
      Expr.read? line = .ok e →
      let bound := Session.answer debug vars (":let " ++ (name ++ " = " ++ source)) draws
      let after := Session.answer debug bound.vars line bound.draws
      let before := Session.answer debug vars (inlineText name source line) draws
      bound.more = true ∧ bound.vars = vars.set name value ∧ bound.draws = draws ∧
        after.lines.getLast? = before.lines.getLast? ∧
        (debug = false → after.lines = before.lines) ∧ after.draws = before.draws := by
  refine ⟨?trees, ?lines⟩
  case trees =>
    intro env name e e₁ value draws nothing evaluated
    exact Expr.equivalent_inline (Expr.equivalent_of_value nothing evaluated) e
  case lines =>
    intro vars name source line e₁ e value draws isName read nothing evaluated hr
    obtain ⟨more, bound, left⟩ := answer_binding isName read evaluated
    have kept := left.trans ((e₁.still_evaluate nothing).draws draws)
    have written : Expr.read? (inlineText name source line) = .ok (Expr.inline name e₁.group e) :=
      read?_inlineText read hr
    have same := equivalent_inline_group nothing evaluated name e draws
    -- the two traces show different sources, so only what stands behind them is the same
    dsimp only
    rw [bound, kept]
    obtain ⟨trace, quiet, after⟩ :=
      @Session.answer_of_read? _ debug (vars.set name value) _ _ draws hr
    obtain ⟨trace', quiet', before⟩ := @Session.answer_of_read? _ debug vars _ _ draws written
    rw [after, before, same.1, same.2]
    refine ⟨more, rfl, rfl, by simp, fun silent => ?_, rfl⟩
    rw [quiet silent, quiet' silent]

end

/-- The value of a reference in place of a variable of a call that draws, and a sum in place of a
name. -/
theorem binding_agrees_with_inlining_sum :
    let lookup : Lookup := fun i => .ok (.real (2.0 * i))
    let env : Environment := { lookup? := some lookup }
    let e : Expr := .call "max" [.var "x", .call "rand" []]
    let draws : Draws := fun _ => 0x10000000000000#53
    let after := Session.answer false [("xy", 2.0), ("x", 3.0)] "#xy * #x + rand()" draws
    ((Expr.inline "x" (.external (.number 1.0)) e).evaluate false env).Equivalent
        (e.evaluate false (env.bind "x" 2.0)) ∧
      after.lines = (Session.answer false [("xy", 2.0)] "#xy * (1 + 2) + rand()" draws).lines ∧
      after.lines = ["=> 6.5"] := by
  intro lookup env e draws after
  have found : ((Expr.external (.number 1.0)).evaluate false env draws).outcome = .ok 2.0 :=
    ok_of_toOption (by decide +kernel)
  have isName : IsName "x".toList := ⟨by decide, List.all_eq_true.mp (by decide +kernel)⟩
  let sum : Expr := .binary "+" (.number 1.0) (.number 2.0) false
  let product : Expr := .binary "*" (.var "xy") (.var "x") false
  have source : Expr.read? "1 + 2" = .ok sum := ok_of_toOption (by decide +kernel)
  have value : (sum.evaluate false (.ofVariables [("xy", 2.0)]) draws).outcome = .ok 3.0 :=
    ok_of_toOption (by decide +kernel)
  have read : Expr.read? "#xy * #x + rand()" = .ok (.binary "+" product (.call "rand" []) false) :=
    ok_of_toOption (by decide +kernel)
  have text : inlineText "x" "1 + 2" "#xy * #x + rand()" = "#xy * (1 + 2) + rand()" := by
    decide +kernel
  obtain ⟨trees, texts⟩ := binding_agrees_with_inlining false
  obtain ⟨-, bound, left, -, same, -⟩ := texts _ "x" _ _ _ _ _ _ isName source rfl value read
  rw [text, bound, left] at same
  exact ⟨trees env "x" e _ _ draws rfl found, same rfl, by decide +kernel⟩

end Reckoner
