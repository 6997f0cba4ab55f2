import Reckoner.Eval.Function
import Reckoner.Proofs.Number.Digits

/-!
# Counts of arguments in words

A call is checked against the signature, and the error of a count that is not accepted says in words
which counts are. There are three phrases for that, and different phrases have different words, so
the words state one set of counts. For a signature without a variadic end and without names these
are the counts accepted. With a variadic end any number of arguments is said to be taken, though the
arguments that must be given still must be. Arguments by name are counted in words, though no call
gives them.
-/

namespace Reckoner

/-- What can be said of a number of arguments. -/
inductive CountPhrase where
  | exactly (count : Nat)
  | between (least most : Nat)
  | any

namespace CountPhrase

/-- The phrase in words. -/
def text : CountPhrase → String
  | exactly count => argumentCount count
  | between least most => s!"{least} to {most} arguments"
  | any => "any number of arguments"

/-- The phrase speaks of this count. -/
def includes : CountPhrase → Nat → Bool
  | exactly count, n => n = count
  | between least most, n => least ≤ n && n ≤ most
  | any, _ => true

/-! ## Different phrases have different words -/

theorem toList_exactly (count : Nat) :
    (exactly count).text.toList =
      Nat.toDigits 10 count ++ ' ' :: ("argument" ++ if count = 1 then "" else "s").toList := by
  simp [text, argumentCount, toString]

theorem toList_between (least most : Nat) :
    (between least most).text.toList =
      Nat.toDigits 10 least ++ ' ' :: 't' :: 'o' :: ' ' ::
        (Nat.toDigits 10 most ++ ' ' :: "arguments".toList) := by
  simp [text, toString]

/-- A number in front of a space is read off in one way. -/
theorem toDigits_append_inj {a b : Nat} {s t : List Char}
    (same : Nat.toDigits 10 a ++ ' ' :: s = Nat.toDigits 10 b ++ ' ' :: t) : a = b ∧ s = t := by
  have stops : ∀ r : List Char, ∀ c ∈ (' ' :: r).head?, c.isDigit = false := by
    rintro r c ⟨⟩
    rfl
  have digits := congrArg (List.takeWhile Char.isDigit) same
  have rests := congrArg (List.dropWhile Char.isDigit) same
  rw [takeWhile_digits isDigit_toDigits (stops s), takeWhile_digits isDigit_toDigits (stops t)]
    at digits
  rw [dropWhile_digits isDigit_toDigits (stops s), dropWhile_digits isDigit_toDigits (stops t)]
    at rests
  have values := congrArg digitsValue digits
  rw [digitsValue_toDigits, digitsValue_toDigits] at values
  exact ⟨values, (List.cons.inj rests).2⟩

/-- A number is not what the words for any number start with. -/
theorem toList_any_ne (n : Nat) (rest : List Char) :
    Nat.toDigits 10 n ++ rest ≠ any.text.toList := by
  intro same
  obtain ⟨d, ds, digits⟩ := List.exists_cons_of_ne_nil (Nat.toDigits_ne_nil (b := 10) (n := n))
  have digit : d.isDigit = true :=
    isDigit_toDigits (n := n) d (by rw [digits]; exact List.mem_cons_self)
  rw [digits, List.cons_append] at same
  obtain rfl : d = 'a' := (List.cons.inj same).1
  exact absurd digit (by decide)

theorem text_exactly_ne_between (count least most : Nat) :
    (exactly count).text ≠ (between least most).text := by
  intro same
  have letters := congrArg String.toList same
  rw [toList_exactly, toList_between] at letters
  have words := (toDigits_append_inj letters).2
  simp at words

theorem text_exactly_ne_any (count : Nat) : (exactly count).text ≠ any.text := by
  intro same
  have letters := congrArg String.toList same
  rw [toList_exactly] at letters
  exact toList_any_ne count _ letters

theorem text_between_ne_any (least most : Nat) : (between least most).text ≠ any.text := by
  intro same
  have letters := congrArg String.toList same
  rw [toList_between] at letters
  exact toList_any_ne least _ letters

theorem text_injective : Function.Injective text := by
  intro p q same
  cases p with
  | exactly a =>
    cases q with
    | exactly b =>
      have letters := congrArg String.toList same
      rw [toList_exactly, toList_exactly] at letters
      rw [(toDigits_append_inj letters).1]
    | between l m => exact absurd same (text_exactly_ne_between a l m)
    | any => exact absurd same (text_exactly_ne_any a)
  | between l m =>
    cases q with
    | exactly b => exact absurd same.symm (text_exactly_ne_between b l m)
    | between l' m' =>
      have letters := congrArg String.toList same
      rw [toList_between, toList_between] at letters
      obtain ⟨rfl, words⟩ := toDigits_append_inj letters
      simp only [List.cons.injEq, true_and] at words
      rw [(toDigits_append_inj words).1]
    | any => exact absurd same (text_between_ne_any l m)
  | any =>
    cases q with
    | exactly b => exact absurd same.symm (text_exactly_ne_any b)
    | between l m => exact absurd same.symm (text_between_ne_any l m)
    | any => rfl

end CountPhrase

/-! ## What a description states -/

/-- The description says that a call may have `count` arguments. -/
def States (description : String) (count : Nat) : Prop :=
  ∃ phrase : CountPhrase, phrase.text = description ∧ phrase.includes count = true

namespace Signature

variable {s : Signature} {count : Nat}

/-- A call with `count` arguments leaves no argument out that must be given, and has none too
many. -/
def Takes (s : Signature) (count : Nat) : Prop :=
  s.requiredNamed = 0 ∧ s.required ≤ count ∧
    (s.variadic = true ∨ count ≤ s.required + s.defaulted)

/-- No argument is taken by name. -/
structure Positional (s : Signature) : Prop where
  required : s.requiredNamed = 0
  defaulted : s.defaultedNamed = 0
  variadic : s.variadicNamed = false

theorem accepts_iff : s.accepts count = true ↔ s.Takes count := by
  simp only [accepts, Takes, Bool.and_eq_true, Bool.or_eq_true, decide_eq_true_eq, and_assoc]

theorem not_takes_iff :
    ¬ s.Takes count ↔ 0 < s.requiredNamed ∨
      count < s.required ∨ s.variadic = false ∧ s.required + s.defaulted < count := by
  unfold Takes
  rw [not_and_or, not_and_or, not_le, not_or, Bool.not_eq_true, not_le, Nat.pos_iff_ne_zero]

/-- The phrase that a signature is described by. -/
def phrase (s : Signature) : CountPhrase :=
  if s.variadic then .any
  else if s.withDefault = 0 then .exactly s.withoutDefault
  else .between s.withoutDefault (s.withoutDefault + s.withDefault)

theorem text_phrase (s : Signature) : s.phrase.text = s.describe := by
  unfold phrase describe
  split
  · rfl
  · split
    · rfl
    · rfl

theorem states_describe_iff : States s.describe count ↔ s.phrase.includes count = true := by
  constructor
  · rintro ⟨phrase, words, included⟩
    obtain rfl := CountPhrase.text_injective (words.trans s.text_phrase.symm)
    exact included
  · intro included
    exact ⟨s.phrase, s.text_phrase, included⟩

theorem states_of_variadic (h : s.variadic = true) (count : Nat) : States s.describe count := by
  rw [states_describe_iff, phrase, if_pos h]
  rfl

/-- Without a variadic end the counts stated are those between all parameters without a default
value and all parameters. -/
theorem states_iff_between (h : s.variadic = false) : States s.describe count ↔
    s.withoutDefault ≤ count ∧ count ≤ s.withoutDefault + s.withDefault := by
  have closed : ¬ s.variadic = true := by rw [h]; exact Bool.false_ne_true
  rw [states_describe_iff, phrase, if_neg closed]
  split
  case isTrue none =>
    rw [none, Nat.add_zero, CountPhrase.includes, decide_eq_true_eq]
    omega
  case isFalse =>
    simp only [CountPhrase.includes, Bool.and_eq_true, decide_eq_true_eq]

theorem withoutDefault_of_positional (h : s.Positional) : s.withoutDefault = s.required := by
  simp [withoutDefault, h.required, h.variadic]

theorem withDefault_of_positional (h : s.Positional) : s.withDefault = s.defaulted := by
  simp [withDefault, h.defaulted]

/-- Without a variadic end and without names the counts stated are the counts taken. -/
theorem states_iff_takes (closed : s.variadic = false) (h : s.Positional) :
    States s.describe count ↔ s.Takes count := by
  rw [states_iff_between closed, withoutDefault_of_positional h, withDefault_of_positional h]
  simp only [Takes, h.required, closed, Bool.false_eq_true, false_or, true_and]

/-- A parameter for arguments by name shows in the counts stated and not in those taken. -/
theorem positional_of_states_iff_takes (closed : s.variadic = false)
    (same : ∀ m, States s.describe m ↔ s.Takes m) : s.Positional := by
  simp only [states_iff_between closed, Takes, closed, Bool.false_eq_true, false_or] at same
  obtain ⟨named, -, low⟩ := (same s.withoutDefault).mp ⟨Nat.le_refl _, Nat.le_add_right _ _⟩
  obtain ⟨-, -, high⟩ := (same _).mp ⟨Nat.le_add_right _ _, Nat.le_refl _⟩
  have least := ((same s.required).mpr ⟨named, Nat.le_refl _, Nat.le_add_right _ _⟩).1
  unfold withoutDefault withDefault at high
  unfold withoutDefault at least
  rw [named] at high least
  refine ⟨named, by omega, ?_⟩
  cases all : s.variadicNamed with
  | false => rfl
  | true =>
    rw [all, if_pos rfl] at least
    omega

end Signature

/-! ## The error of a call -/

variable {f : Function} {s : Signature}

theorem Function.check_eq_error_iff (h : f.signature? = some s) (name : String) (count : Nat)
    (e : EvalError) :
    f.check name count = .error e ↔ e = .arity name s count ∧ ¬ s.Takes count := by
  unfold check
  rw [h]
  by_cases fits : s.accepts count = true
  · simp only [fits, if_true, Signature.accepts_iff.mp fits, not_true, and_false]
    exact iff_of_false nofun id
  · have refused : ¬ s.Takes count := fun takes => fits (Signature.accepts_iff.mpr takes)
    simp only [fits, refused, not_false_iff, and_true]
    exact ⟨fun same => (Except.error.inj same).symm, fun same => congrArg Except.error same.symm⟩

/-- A call is refused exactly when an argument is missing that must be given, by name or by place,
or when there are more than the signature has and it has no variadic end. The error names the
function and the count, and describes what the function takes. The description states exactly the
counts that are taken when the signature has no variadic end and no names, and then only. Without
names it states the count refused when there is a variadic end, which is said to take every count,
and then only. -/
theorem arity_error_states_counts (h : f.signature? = some s) (name : String) (count : Nat) :
    (∀ e, f.check name count = .error e ↔ e = .arity name s count ∧
      (0 < s.requiredNamed ∨
        count < s.required ∨ s.variadic = false ∧ s.required + s.defaulted < count)) ∧
    (EvalError.arity name s count).message =
      name ++ " requires " ++ s.describe ++ ", got " ++ argumentCount count ∧
    (f.check name count = .error (.arity name s count) →
      ((∀ m, States s.describe m ↔ s.Takes m) ↔ s.variadic = false ∧ s.Positional) ∧
      (s.Positional → (States s.describe count ↔ s.variadic = true))) := by
  refine ⟨fun e => ?_, rfl, fun refused => ?_⟩
  · rw [f.check_eq_error_iff h, Signature.not_takes_iff]
  have none : ¬ s.Takes count := ((f.check_eq_error_iff h name count _).mp refused).2
  cases variadic : s.variadic with
  | false =>
    refine ⟨⟨fun same => ⟨rfl, Signature.positional_of_states_iff_takes variadic same⟩,
      fun ⟨_, plain⟩ m => Signature.states_iff_takes variadic plain⟩, fun plain => ?_⟩
    exact iff_of_false (fun states => none ((Signature.states_iff_takes variadic plain).mp states))
      nofun
  | true =>
    have states := Signature.states_of_variadic variadic count
    refine ⟨iff_of_false (fun same => none ((same count).mp states)) ?_, fun _ => ?_⟩
    · rintro ⟨⟨⟩, -⟩
    · exact iff_of_true states rfl

/-- A function of one argument that may be given a second one, called with three. -/
theorem arity_error_states_counts_default :
    let s : Signature := { required := 1, defaulted := 1 }
    let f : Function := { signature? := some s, apply := fun _ xs => .ok (xs.headD 0) }
    f.check "f" 3 = .error (.arity "f" s 3) ∧
      (EvalError.arity "f" s 3).message = "f requires 1 to 2 arguments, got 3 arguments" ∧
      (∀ m, States s.describe m ↔ s.Takes m) ∧ ¬ States s.describe 3 := by
  intro s f
  obtain ⟨refuses, words, states⟩ := arity_error_states_counts (f := f) (s := s) rfl "f" 3
  have refused := (refuses _).mpr ⟨rfl, .inr (.inr (by decide))⟩
  have plain : s.Positional := ⟨rfl, rfl, rfl⟩
  obtain ⟨taken, stated⟩ := states refused
  exact ⟨refused, words.trans (by decide +kernel), taken.mpr ⟨rfl, plain⟩,
    fun three => absurd ((stated plain).mp three) (by decide)⟩

/-- A function of one argument and any number of further ones, called with none, is said to take any
number of arguments. -/
theorem variadic_states_refused :
    let s : Signature := { required := 1, variadic := true }
    let lead : Function := { signature? := some s, apply := fun _ xs => .ok (xs.headD 0) }
    lead.check "lead" 0 = .error (.arity "lead" s 0) ∧
      (EvalError.arity "lead" s 0).message =
        "lead requires any number of arguments, got 0 arguments" ∧
      States s.describe 0 ∧ ¬ s.Takes 0 :=
  ⟨rfl, rfl, ⟨.any, rfl, rfl⟩, fun takes => absurd takes.2.1 (by decide)⟩

end Reckoner
