import Reckoner.Proofs.Session.Commands
import Reckoner.Text.Letter

/-!
# Names of a session

A variable is bound by a definition or by a line of a session, and is referred to by the grammar.
Each of the three has an idea of its own what a name is: the grammar admits letters, the digits `0`
to `9` and underscores, a definition admits all numerals, and a line admits any text at all. So a
bound name is kept track of to the definition or line that it comes from, and can be referred to
exactly when it is a name of the grammar.
-/

namespace Reckoner

open Reckoner.Grammar

/-! ## References to names -/

section References

variable {a e : Expr} {s : List Char} {name : String}

theorem attach?_ne_var {symbol : String} {r : Expr} (h : Expr.attach? symbol a r = some e) :
    e ≠ .var name := by
  rintro rfl
  unfold Expr.attach? at h
  split at h
  · simp only [Option.bind_eq_bind, Option.bind_eq_some_iff] at h
    obtain ⟨first, -, h⟩ := h
    split at h
    · obtain ⟨_, -, made⟩ := Option.bind_eq_some_iff.mp h
      cases made
    · cases h
  · cases h

theorem attach_ne_var (o : Operation) : a.attach o e ≠ .var name := by
  unfold Expr.attach
  cases attached : Expr.attach? o.symbol a e with
  | none => nofun
  | some t => exact attach?_ne_var attached

variable [Alphabet]

/-- Among the texts that start with `#` only the sign and a name stand for a variable. -/
theorem isName_of_expression {rest text : List Char} (h : Expression s e) (he : e = .var name)
    (hash : s ++ rest = '#' :: text) : IsName name.toList := by
  cases h with
  | operation i j o _ _ => exact absurd he (attach_ne_var o)
  | operand operand =>
    cases operand with
    | group i j _ => cases hash
    | number _ => cases he
    | var isName =>
      cases he
      rwa [String.toList_ofList]
    | reference i j _ => cases he
    | call i j _ _ => cases he

/-- A name can be referred to exactly when it is one of the grammar. -/
theorem read?_reference_iff :
    Expr.read? ("#" ++ name) = .ok (.var name) ↔ IsName name.toList := by
  have text : ("#" ++ name).toList = '#' :: name.toList := String.toList_append
  constructor
  · intro read
    have derived := source_of_read? read
    generalize whole : ("#" ++ name).toList = t at derived
    cases derived with
    | mk i j expression =>
      rw [text] at whole
      cases i with
      | zero => exact isName_of_expression expression rfl whole.symm
      | succ i => cases whole
  · intro isName
    have derived := Source.mk 0 0 (.operand (.var isName))
    rw [String.ofList_toList] at derived
    refine read?_of_source ?_
    rw [text]
    simpa using derived

end References

/-! ## Where bound names come from -/

theorem bound_of_set {vars : Variables} {name other : String} {value : Float}
    (h : (vars.set other value).get? name ≠ none) : vars.get? name ≠ none ∨ name = other := by
  by_cases same : name = other
  · exact .inr same
  · rw [Bindings.get?_set_of_ne same] at h
    exact .inl h

section

variable [Alphabet]

/-- A definition that is accepted binds a name. -/
def Defines (text name : String) : Prop :=
  ∃ spelt source, splitDefinition text = (spelt, some source) ∧ isDefinable spelt = true ∧
    name = String.ofList spelt

/-- A line of a session asks to bind a name. -/
def Lets (line name : String) : Prop :=
  ∃ source, Command.ofLine line = .bind name source

/-- The variables of a session after some lines, and the random numbers that are left. -/
def Session.after (debug : Bool) (vars : Variables) (draws : Draws) :
    List String → Variables × Draws
  | [] => (vars, draws)
  | line :: lines =>
    let answer := Session.answer debug vars line draws
    Session.after debug answer.vars answer.draws lines

variable {debug : Bool} {vars vars' : Variables} {draws draws' : Draws} {name : String}

theorem bound_of_define {text : String} (h : (define debug vars text draws).2 = .ok (vars', draws'))
    (bound : vars'.get? name ≠ none) : vars.get? name ≠ none ∨ Defines text name := by
  obtain ⟨spelt, source, value, parts, definable, -, rfl, -⟩ := define_eq_ok h
  exact (bound_of_set bound).imp_right fun same => ⟨spelt, source, parts, definable, same⟩

theorem bound_of_defineAll {texts : List String}
    (h : (defineAll debug vars draws texts).2 = .ok (vars', draws'))
    (bound : vars'.get? name ≠ none) :
    vars.get? name ≠ none ∨ ∃ text ∈ texts, Defines text name := by
  induction texts generalizing vars draws with
  | nil =>
    cases h
    exact .inl bound
  | cons text texts ih =>
    obtain ⟨vars₁, draws₁, one, more⟩ := defineAll_cons_eq_ok h
    rcases ih more with earlier | ⟨text', mem, defines⟩
    · exact (bound_of_define one earlier).imp_right fun defines =>
        ⟨text, List.mem_cons_self, defines⟩
    · exact .inr ⟨text', List.mem_cons_of_mem _ mem, defines⟩

theorem bound_of_answer {line : String}
    (bound : (Session.answer debug vars line draws).vars.get? name ≠ none) :
    vars.get? name ≠ none ∨ Lets line name := by
  unfold Session.answer at bound
  cases command : Command.ofLine line with
  | bind other source =>
    rw [command, Session.perform] at bound
    dsimp only at bound
    split at bound
    · refine (bound_of_set bound).imp_right fun same => ⟨source, ?_⟩
      rw [same]
      exact command
    · exact .inl bound
  | blank | leave | tree _ | vars | bindIncomplete | help | unknown _ | evaluate _ =>
    rw [command] at bound
    exact .inl bound

theorem bound_of_after {lines : List String}
    (bound : (Session.after debug vars draws lines).1.get? name ≠ none) :
    vars.get? name ≠ none ∨ ∃ line ∈ lines, Lets line name := by
  induction lines generalizing vars draws with
  | nil => exact .inl bound
  | cons line lines ih =>
    rcases ih bound with earlier | ⟨line', mem, lets⟩
    · exact (bound_of_answer earlier).imp_right fun lets => ⟨line, List.mem_cons_self, lets⟩
    · exact .inr ⟨line', List.mem_cons_of_mem _ mem, lets⟩

/-! ## Bound names can be referred to -/

/-- The name of a definition is one of the grammar if its numerals are. -/
theorem isName_of_isDefinable {spelt : List Char} (h : isDefinable spelt = true)
    (plain : ∀ c ∈ spelt, isNumeral c = true → isNameChar c = true) : IsName spelt := by
  unfold isDefinable at h
  obtain ⟨some', all⟩ := Bool.and_eq_true_iff.mp h
  refine ⟨by simpa using some', fun c mem => ?_⟩
  have kind := List.all_eq_true.mp all c mem
  unfold isAlphanumeric at kind
  rw [Bool.or_assoc, Bool.or_eq_true, Bool.or_eq_true] at kind
  rcases kind with letter | numeral | underscore
  · simp [isNameChar, letter]
  · exact plain c mem numeral
  · unfold isNameChar
    rw [underscore, Bool.or_true]

/-- Every name that is bound after some definitions and some lines of a session is the name of one
of them, and can be referred to exactly when it is a name of the grammar. So all bound names can be
referred to when definitions have no numerals but `0` to `9` in their names, or such as are letters,
and lines bind names of the grammar. -/
theorem bound_names_referable {debug debug' : Bool} {texts lines : List String}
    {vars : Variables} {draws draws' draws'' : Draws}
    (h : (defineAll debug [] draws texts).2 = .ok (vars, draws')) :
    (∀ name, (Session.after debug' vars draws'' lines).1.get? name ≠ none →
      ((∃ text ∈ texts, Defines text name) ∨ ∃ line ∈ lines, Lets line name) ∧
        (Expr.read? ("#" ++ name) = .ok (.var name) ↔ IsName name.toList)) ∧
      ((∀ text ∈ texts, ∀ c ∈ (splitDefinition text).1, isNumeral c = true → isNameChar c = true) →
        (∀ line ∈ lines, ∀ name, Lets line name → IsName name.toList) →
        ∀ name, (Session.after debug' vars draws'' lines).1.get? name ≠ none →
          Expr.read? ("#" ++ name) = .ok (.var name)) := by
  have origin name (bound : (Session.after debug' vars draws'' lines).1.get? name ≠ none) :
      (∃ text ∈ texts, Defines text name) ∨ ∃ line ∈ lines, Lets line name := by
    rcases bound_of_after bound with before | lets
    · rcases bound_of_defineAll h before with fresh | defines
      · exact absurd rfl fresh
      · exact .inl defines
    · exact .inr lets
  refine ⟨fun name bound => ⟨origin name bound, read?_reference_iff⟩,
    fun plain grammatical name bound => read?_reference_iff.mpr ?_⟩
  rcases origin name bound with
    ⟨text, mem, spelt, source, parts, definable, rfl⟩ | ⟨line, mem, lets⟩
  · have numerals := plain text mem
    rw [parts] at numerals
    rw [String.toList_ofList]
    exact isName_of_isDefinable definable numerals
  · exact grammatical line mem name lets

end

/-- A definition and a line that binds a name with signs before it. -/
theorem bound_names_referable_pair :
    let draws : Draws := fun _ => 0x10000000000000#53
    ∃ draws', (defineAll false [] draws ["x_1=2"]).2 = .ok ([("x_1", 2.0)], draws') ∧
      ∀ name, (Session.after false [("x_1", 2.0)] draws' [":let ##y = #x_1 * rand()",
          ":vars"]).1.get? name ≠ none →
        Expr.read? ("#" ++ name) = .ok (.var name) := by
  intro draws
  obtain ⟨draws', defined⟩ : ∃ draws', (defineAll false [] draws ["x_1=2"]).2 =
      .ok ([("x_1", 2.0)], draws') := exists_draws_of_vars (by decide +kernel)
  have spelt : ∀ c ∈ (splitDefinition "x_1=2").1, isNameChar c = true :=
    List.all_eq_true.mp (by decide +kernel)
  have first : Command.ofLine ":let ##y = #x_1 * rand()" = .bind "y" " #x_1 * rand()" := by
    decide +kernel
  have second : Command.ofLine ":vars" = .vars := by decide +kernel
  refine ⟨draws', defined, (bound_names_referable defined).2
    (List.forall_mem_singleton.mpr fun c mem _ => spelt c mem)
    (List.forall_mem_cons.mpr ⟨?_, List.forall_mem_singleton.mpr ?_⟩)⟩
  · rintro name ⟨source, command⟩
    rw [first] at command
    cases command
    exact ⟨by decide, List.all_eq_true.mp (by decide +kernel)⟩
  · rintro name ⟨source, command⟩
    rw [second] at command
    cases command

/-- A line binds a name with a space in it, and a definition one with a fraction. The grammar has
neither. -/
theorem bound_names_beyond_grammar :
    let draws : Draws := fun _ => 0x10000000000000#53
    (Session.after false [] draws [":let a b = 1"]).1.get? "a b" = some 1.0 ∧
      Expr.read? "#a b" ≠ .ok (.var "a b") ∧
      (∃ draws', (defineAll false [] draws ["½=1"]).2 = .ok ([("½", 1.0)], draws')) ∧
      Expr.read? "#½" ≠ .ok (.var "½") :=
  ⟨by decide +kernel, by decide +kernel, exists_draws_of_vars (by decide +kernel),
    by decide +kernel⟩

end Reckoner
