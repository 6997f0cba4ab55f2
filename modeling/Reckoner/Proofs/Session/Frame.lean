import Reckoner.Proofs.Eval.Defects
import Reckoner.Proofs.Session.Commands
import Reckoner.Text.Letter

/-!
# What a line changes

A line of a session changes the variables when it asks to bind a name, with an equals sign and a
source that has a value in the variables so far. Then this one name is set: its value is replaced in
its place, or the name is added behind the others. Every other line leaves the variables as they
are, one whose source is malformed or cannot be evaluated included, and only the farewells end the
session.

Whatever the source, reading it does not halt, and the values of a session are doubles, so that no
fault of a host stops an evaluation. A line is always answered. Recursion has no limit here, however
deep a source is nested: a stack that runs out is not modelled.
-/

namespace Reckoner

open Reckoner.Grammar

/-! ## One binding set -/

namespace Bindings

variable {α : Type} {name : String} {value : α} {bound : Bindings α}

/-- One name is set to a value and everything else stays: the value is replaced in its place, or the
name is added at the end. -/
inductive SetTo (name : String) (value : α) : Bindings α → Bindings α → Prop
  | replaced {before after : Bindings α} (old : α) : (∀ pair ∈ before, pair.1 ≠ name) →
      SetTo name value (before ++ (name, old) :: after) (before ++ (name, value) :: after)
  | added {bound : Bindings α} : (∀ pair ∈ bound, pair.1 ≠ name) →
      SetTo name value bound (bound ++ [(name, value)])

theorem SetTo.cons {bound' : Bindings α} {other : String} (different : other ≠ name) (v : α)
    (h : SetTo name value bound bound') :
    SetTo name value ((other, v) :: bound) ((other, v) :: bound') := by
  cases h with
  | replaced old before => exact .replaced old (List.forall_mem_cons.mpr ⟨different, before⟩)
  | added fresh => exact .added (List.forall_mem_cons.mpr ⟨different, fresh⟩)

theorem setTo_set (name : String) (value : α) (bound : Bindings α) :
    SetTo name value bound (bound.set name value) := by
  induction bound with
  | nil => exact .added nofun
  | cons pair rest ih =>
    obtain ⟨other, v⟩ := pair
    rw [set]
    split
    · next same =>
      subst same
      exact @SetTo.replaced _ other value [] rest v nofun
    · next different => exact ih.cons different v

end Bindings

/-! ## Lines that bind a name -/

namespace Command

variable {line name source : String} {code rest : List Char}

theorem eq_append_of_after? {word : String} (h : after? word code = some rest) :
    code = word.toList ++ rest := by
  unfold after? at h
  split at h
  · next isPrefix =>
    obtain ⟨tail, rfl⟩ := List.isPrefixOf_iff_prefix.mp isPrefix
    rw [List.drop_left] at h
    rw [Option.some.inj h]
  · cases h

theorem ofBinding_eq_bind (h : ofBinding rest = .bind name source) : ∃ left right,
    rest = left ++ '=' :: right ∧ '=' ∉ left ∧ definedName left = name.toList ∧ name ≠ "" ∧
      source = String.ofList right := by
  unfold ofBinding splitDefinition at h
  rw [String.toList_ofList] at h
  generalize cut : cutAt '=' rest = parts at h
  obtain ⟨left, right?⟩ := parts
  cases right? with
  | none => cases h
  | some right =>
    obtain ⟨whole, plain⟩ := append_of_cutAt cut
    dsimp only [Option.map_some] at h
    split at h
    · cases h
    · next named =>
      cases h
      refine ⟨left, right, whole, plain, String.toList_ofList.symm, ?_, rfl⟩
      intro empty
      refine named (List.isEmpty_iff.mpr ?_)
      rw [← String.toList_ofList (l := definedName left), empty]
      rfl

theorem ofLine_eq_bind (h : ofLine line = .bind name source) : ∃ left right,
    trim line.toList = ":let ".toList ++ (left ++ '=' :: right) ∧ '=' ∉ left ∧
      definedName left = name.toList ∧ name ≠ "" ∧ source = String.ofList right := by
  unfold ofLine at h
  dsimp only at h
  split at h
  · cases h
  split at h
  · cases h
  split at h
  · cases h
  split at h
  · cases h
  split at h
  · next rest asks =>
    obtain ⟨left, right, rfl, parts⟩ := ofBinding_eq_bind h
    exact ⟨left, right, eq_append_of_after? asks, parts⟩
  split at h
  · cases h
  split at h
  · cases h
  · cases h

theorem ofLine_of_written {left right : List Char} {name : String}
    (written : trim line.toList = ":let ".toList ++ (left ++ '=' :: right)) (plain : '=' ∉ left)
    (spelt : definedName left = name.toList) (named : name ≠ "") :
    ofLine line = .bind name (String.ofList right) := by
  have nonempty : name.toList.isEmpty = false := by
    rw [List.isEmpty_eq_false_iff]
    intro none
    exact named (String.toList_eq_nil_iff.mp none)
  rw [ofLine_let written, ofBinding, splitDefinition, String.toList_ofList, cutAt_append plain]
  dsimp only [Option.map_some]
  rw [spelt, nonempty, String.ofList_toList]
  rfl

theorem ofBinding_ne_leave : ofBinding rest ≠ .leave := by
  unfold ofBinding
  split
  · split
    · nofun
    · nofun
  · nofun

theorem ofLine_eq_leave_iff :
    ofLine line = .leave ↔ String.ofList (trim line.toList) ∈ farewells := by
  unfold ofLine
  dsimp only
  split
  · next farewell => exact iff_of_true rfl (by simpa using farewell)
  · next other =>
    refine iff_of_false ?_ (by simpa using other)
    split
    · nofun
    split
    · nofun
    split
    · nofun
    split
    · exact ofBinding_ne_leave
    split
    · nofun
    split
    · nofun
    · nofun

end Command

section

variable [Alphabet]

/-- Without the blanks around it, a line is `:let `, a text in which the name stands, an equals sign
and a source that has the value in the variables and with the random numbers there are. The name
stands between blanks and behind any number of `#`, and is not empty. -/
inductive Binds (vars : Variables) (draws : Draws) (line name : String) (value : Float) : Prop
  | intro {left right : List Char} {e : Expr} :
      trim line.toList = ":let ".toList ++ (left ++ '=' :: right) → '=' ∉ left →
      definedName left = name.toList → name ≠ "" → Expr.read? (String.ofList right) = .ok e →
      (e.evaluate false (.ofVariables vars) draws).outcome = .ok value →
      Binds vars draws line name value

end

section Lines

variable [Alphabet] {debug : Bool} {vars : Variables} {draws : Draws}
  {line name source : String} {value : Float}

theorem binds_iff (debug : Bool) : Binds vars draws line name value ↔ ∃ source,
    Command.ofLine line = .bind name source ∧
      (interpret debug (.ofVariables vars) source draws).outcome = .ok value := by
  constructor
  · rintro ⟨written, plain, spelt, named, read, evaluated⟩
    refine ⟨_, Command.ofLine_of_written written plain spelt named, ?_⟩
    rw [outcome_interpret read, Expr.outcome_evaluate debug false, evaluated]
    rfl
  · rintro ⟨source, command, outcome⟩
    obtain ⟨left, right, written, plain, spelt, named, rfl⟩ := Command.ofLine_eq_bind command
    obtain ⟨e, read, evaluated⟩ := interpret_eq_ok outcome
    rw [Expr.outcome_evaluate debug false] at evaluated
    exact .intro written plain spelt named read evaluated

/-- What is bound after a command. -/
theorem vars_perform (debug : Bool) (vars : Variables) (draws : Draws) (command : Command) :
    (∃ name source value, command = .bind name source ∧
      (interpret debug (.ofVariables vars) source draws).outcome = .ok value ∧
      (Session.perform debug vars draws command).vars = vars.set name value) ∨
    (∀ name source value, command = .bind name source →
      (interpret debug (.ofVariables vars) source draws).outcome ≠ .ok value) ∧
      (Session.perform debug vars draws command).vars = vars := by
  cases command with
  | bind name source =>
    rw [Session.perform]
    cases outcome : (interpret debug (.ofVariables vars) source draws).outcome with
    | ok value => exact .inl ⟨name, source, value, rfl, outcome, by simp⟩
    | error failure =>
      refine .inr ⟨?_, by simp⟩
      intro _ _ value command
      cases command
      rw [outcome]
      intro same
      cases same
  | blank | leave | tree _ | vars | bindIncomplete | help | unknown _ | evaluate _ =>
    refine .inr ⟨?_, rfl⟩
    intro _ _ _ command
    cases command

theorem more_perform_iff (command : Command) :
    (Session.perform debug vars draws command).more = false ↔ command = .leave := by
  cases command with
  | leave => exact iff_of_true rfl rfl
  | blank | tree _ | vars | bind _ _ | bindIncomplete | help | unknown _ | evaluate _ =>
    exact iff_of_false nofun nofun

end Lines

/-! ## Lines are always answered -/

theorem Bindings.get?_mapValues {α β : Type} (f : α → β) (name : String) (bound : Bindings α) :
    (bound.mapValues f).get? name = (bound.get? name).map f := by
  induction bound with
  | nil => rfl
  | cons pair rest ih =>
    obtain ⟨other, v⟩ := pair
    unfold mapValues at ih ⊢
    rw [List.map_cons, get?, get?]
    split
    · rfl
    · exact ih

theorem Environment.obliging_ofVariables (vars : Variables) : (ofVariables vars).Obliging where
  vars name value h := by
    rw [ofVariables, Bindings.get?_mapValues] at h
    obtain ⟨x, -, rfl⟩ := Option.map_eq_some_iff.mp h
    exact ⟨x, rfl⟩
  functions _ _ h := by cases h
  lookup _ h := by cases h

section

variable [Alphabet]

/-- In the variables of a session no evaluation is stopped by a host. -/
theorem interpret_ne_host (debug : Bool) (vars : Variables) (source : String) (draws : Draws)
    (cause : HostFault) :
    (interpret debug (.ofVariables vars) source draws).outcome ≠ .error (.host cause) := by
  cases read : Expr.read? source with
  | error err =>
    unfold interpret Expr.readTraced
    rw [read]
    nofun
  | ok e =>
    rw [outcome_interpret read, ← Draws.drop_zero draws]
    have obliging := Environment.obliging_ofVariables vars
    have follows : (e.evaluate debug _).Follows debug _ draws 0 (e.needs _ 0) :=
      Expr.follows_evaluate obliging e 0
    cases follows with
    | returns _ _ returned =>
      rw [returned]
      nofun
    | stops _ _ _ _ _ stopped =>
      rw [stopped]
      nofun

theorem run_ne_halted (text : List Char) (cause : Halt) :
    Grammar.source.run (enoughFuel text) text ≠ .halted cause := by
  rcases run_source_cases text with ⟨e, derived⟩ | ⟨err, failed⟩
  · rw [run_of_source derived]
    nofun
  · rw [failed]
    nofun

/-- A line that binds a name to a value sets this name to it and leaves the other bindings as they
are, in their places. All other lines leave the variables as they are, and the farewells are the
lines that end the session. Whatever a line has to read and evaluate, reading does not halt and no
fault of a host is left. There is no limit on the depth of recursion, so nothing is said of a stack
that runs out on a source that is nested too deep. -/
theorem answer_frame (debug : Bool) (vars : Variables) (line : String) (draws : Draws) :
    (∀ name value, Binds vars draws line name value →
      Bindings.SetTo name value vars (Session.answer debug vars line draws).vars ∧
      (Session.answer debug vars line draws).vars.get? name = some value ∧
      ∀ other, other ≠ name →
        (Session.answer debug vars line draws).vars.get? other = vars.get? other) ∧
    ((¬ ∃ name value, Binds vars draws line name value) →
      (Session.answer debug vars line draws).vars = vars) ∧
    ((Session.answer debug vars line draws).more = false ↔
      String.ofList (trim line.toList) ∈ ["exit", "exit.", ":quit"]) ∧
    ∀ source : String,
      (∀ cause, Grammar.source.run (enoughFuel source.toList) source.toList ≠ .halted cause) ∧
      ∀ cause, (interpret debug (.ofVariables vars) source draws).outcome ≠
        .error (.host cause) := by
  refine ⟨?binds, ?others, ?leaves, ?answered⟩
  case binds =>
    intro name value binds
    obtain ⟨source, command, outcome⟩ := (binds_iff debug).mp binds
    have after : (Session.answer debug vars line draws).vars = vars.set name value := by
      unfold Session.answer
      rcases vars_perform debug vars draws (.ofLine line) with
        ⟨name', source', value', command', outcome', after⟩ | ⟨none, -⟩
      · rw [command, Command.bind.injEq] at command'
        obtain ⟨rfl, rfl⟩ := command'
        rw [outcome, Except.ok.injEq] at outcome'
        rw [after, outcome']
      · exact absurd outcome (none name source value command)
    rw [after]
    refine ⟨Bindings.setTo_set name value vars, Bindings.get?_set_self name value vars, ?_⟩
    intro other different
    exact Bindings.get?_set_of_ne different value vars
  case others =>
    intro none
    unfold Session.answer
    rcases vars_perform debug vars draws (.ofLine line) with
      ⟨name, source, value, command, outcome, -⟩ | ⟨-, same⟩
    · exact absurd ⟨name, value, (binds_iff debug).mpr ⟨source, command, outcome⟩⟩ none
    · exact same
  case leaves => exact (more_perform_iff _).trans Command.ofLine_eq_leave_iff
  case answered =>
    intro source
    exact ⟨run_ne_halted source.toList, interpret_ne_host debug vars source draws⟩

end

/-- A name is set in its place to a value that is computed from another one and a number that is
drawn, and stays as it is when its source breaks off. -/
theorem answer_frame_xy :
    let draws : Draws := fun _ => 0x10000000000000#53
    let vars : Variables := [("x", 1.0), ("y", 2.0)]
    let answer := Session.answer false vars "  :let #x = #y + rand() " draws
    Bindings.SetTo "x" 2.5 vars answer.vars ∧ answer.vars.get? "y" = some 2.0 ∧
      (Session.answer false [("x", 1.0)] ":let x = 1 +" draws).vars = [("x", 1.0)] := by
  intro draws vars answer
  have value : (interpret false (.ofVariables vars) " #y + rand()" draws).outcome = .ok 2.5 :=
    ok_of_toOption (by decide +kernel)
  have command : Command.ofLine "  :let #x = #y + rand() " = .bind "x" " #y + rand()" := by
    decide +kernel
  have unfinished : Command.ofLine ":let x = 1 +" = .bind "x" " 1 +" := by decide +kernel
  have none : (interpret false (.ofVariables [("x", 1.0)]) " 1 +" draws).outcome.toOption =
      none := by
    decide +kernel
  obtain ⟨binds, -⟩ := answer_frame false vars "  :let #x = #y + rand() " draws
  obtain ⟨-, others, -⟩ := answer_frame false [("x", 1.0)] ":let x = 1 +" draws
  obtain ⟨set, -, kept⟩ := binds "x" 2.5 ((binds_iff false).mpr ⟨_, command, value⟩)
  refine ⟨set, kept "y" (by decide), others ?_⟩
  rintro ⟨name, value, bound⟩
  obtain ⟨source, command, outcome⟩ := (binds_iff false).mp bound
  rw [unfinished, Command.bind.injEq] at command
  obtain ⟨rfl, rfl⟩ := command
  rw [outcome] at none
  cases none

end Reckoner
