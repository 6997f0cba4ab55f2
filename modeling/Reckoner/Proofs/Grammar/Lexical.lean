import Reckoner.Proofs.Grammar.Derivation
import Reckoner.Proofs.Parser.Primitives

/-!
# What the rules of numbers, names and operators read

Each rule has three lemmas: what it derives is read when nothing that could be part of it follows,
whatever it reads is derived, and it fails before a character that it cannot start with.
-/

namespace Reckoner.Grammar

open Reckoner.Parser Reckoner.TextParser

variable {n : Nat} {before ahead rest s : List Char} {bad : TextError → Prop}

theorem noDigit_cons {c : Char} : NoDigit (c :: s) ↔ c.isDigit = false := by
  simp [NoDigit]

/-- No character at the front of `rest` can go on with a number. -/
structure EndsNumber (rest : List Char) : Prop where
  noDigit : NoDigit rest
  stops : rest.head? ≠ some '.' ∧ rest.head? ≠ some 'e' ∧ rest.head? ≠ some 'E'

section

variable [Alphabet]

/-- No character at the front of `rest` can go on with a name or a number. -/
def Separated (rest : List Char) : Prop :=
  ∀ c ∈ rest.head?, isNameChar c = false ∧ c ≠ '.'

theorem Separated.noDigit (h : Separated rest) : NoDigit rest := by
  intro c hc
  have := (h c hc).1
  simp only [isNameChar, Bool.or_eq_false_iff] at this
  exact this.1.2

theorem Separated.head_ne {c : Char} (h : Separated rest) (hc : isNameChar c = true ∨ c = '.') :
    rest.head? ≠ some c := by
  intro he
  have := h c he
  simp_all

theorem Separated.endsNumber (h : Separated rest) : EndsNumber rest where
  noDigit := h.noDigit
  stops := ⟨h.head_ne (.inr rfl), h.head_ne (.inl (isNameChar_of_isAlpha rfl)),
    h.head_ne (.inl (isNameChar_of_isAlpha rfl))⟩

end

/-! ## Signs and digits -/

theorem reads_sign {negative : Bool} (h : Sign s negative)
    (stops : rest.head? ≠ some ' ' ∧ rest.head? ≠ some '+' ∧ rest.head? ≠ some '-')
    (enough : s.length ≤ n) : sign.Reads n before s rest (signValue negative) := by
  cases h with
  | absent =>
    refine Fails.firstOf_reads ?_ (Fails.firstOf_reads ?_ reads_pure)
    · exact ((fails_char stops.2.2).bind).bind
    · exact (fails_char stops.2.1).bind
  | plus =>
    refine Fails.firstOf_reads ?_ (Reads.firstOf ?_)
    · exact ((fails_char (by simp)).bind).bind
    · exact (reads_char '+').seqRight reads_pure
  | minus i =>
    refine Reads.firstOf ?_
    rw [List.length_cons, List.length_replicate] at enough
    have minus : ((char '-').seqLeft spaces).Reads n before (['-'] ++ blanks i) rest '-' :=
      (reads_char '-').seqLeft (reads_spaces stops.1 (by omega))
    have whole := minus.seqRight (q := .pure (-1.0)) (b := []) reads_pure
    rw [List.append_nil] at whole
    exact whole

theorem rest_le {a : List Char} (split : ahead = a ++ rest) (enough : ahead.length ≤ n) :
    rest.length ≤ n := by
  rw [split, List.length_append] at enough
  omega

theorem answers_sign (enough : ahead.length ≤ n) :
    sign.Answers n before ahead
      (fun s _ v => ∃ negative, Sign s negative ∧ v = signValue negative) bad := by
  have minus : (((char '-').seqLeft spaces).seqRight (.pure (-1.0))).Answers n before ahead
      (fun s _ v => ∃ negative, Sign s negative ∧ v = signValue negative) fun _ => True := by
    have padded : ((char '-').seqLeft spaces).Answers n before ahead
        (fun s _ _ => ∃ i, s = '-' :: blanks i) fun _ => True := by
      refine (answers_char '-').bind fun a rest v split ha => ?_
      refine Answers.map _ ((answers_spaces (rest_le split enough)).mono ?_ fun _ h => h)
      rintro piece rest v - ⟨⟨i, rfl⟩, -⟩
      exact ⟨i, by rw [ha]; rfl⟩
    refine padded.bind fun a rest v _ ha => ?_
    obtain ⟨i, rfl⟩ := ha
    refine answers_pure ⟨true, ?_, rfl⟩
    rw [List.append_nil]
    exact .minus i
  have plus : ((char '+').seqRight (.pure 1.0)).Answers n before ahead
      (fun s _ v => ∃ negative, Sign s negative ∧ v = signValue negative) fun _ => True := by
    refine (answers_char '+').bind fun a rest v _ ha => ?_
    subst ha
    exact answers_pure ⟨false, .plus, rfl⟩
  refine (minus.orElse fun _ _ => plus).orElse fun _ _ => ?_
  exact answers_pure ⟨false, .absent, rfl⟩

theorem reads_digits (h : IsDigits s) (stops : NoDigit rest)
    (enough : s.length ≤ n) : digits.Reads n before s rest s :=
  readsChar_digit.many1 h.1 h.2 stops enough

theorem answers_digits (enough : ahead.length ≤ n) :
    digits.Answers n before ahead (fun s _ v => v = s ∧ IsDigits s) fun _ => NoDigit ahead :=
  (readsChar_digit.answers_many1 enough).mono (fun _ _ _ _ h => ⟨h.1, h.2.1, h.2.2.1⟩)
    fun _ h => h

theorem fails_digits (h : NoDigit ahead) : digits.Fails n before ahead :=
  (readsChar_digit.fails h).many1

/-! ## Fractions and exponents -/

theorem reads_fraction (h : IsDigits s) (stops : NoDigit rest)
    (enough : s.length ≤ n) : fraction.Reads n before ('.' :: s) rest ('.' :: s) :=
  ((reads_char '.').seqRight (reads_digits h stops enough)).map _

theorem answers_fraction (enough : ahead.length ≤ n) :
    fraction.Answers n before ahead (fun s _ v => v = s ∧ ∃ fs, s = '.' :: fs ∧ IsDigits fs)
      fun _ => True := by
  refine Answers.map _ ((answers_char '.').bind fun a rest _ split ha => ?_)
  refine (answers_digits (rest_le split enough)).mono ?_ fun _ _ => trivial
  rintro piece rest v - ⟨rfl, hv⟩
  subst ha
  exact ⟨rfl, v, rfl, hv⟩

theorem fails_fraction (h : ahead.head? ≠ some '.') : fraction.Fails n before ahead :=
  ((fails_char h).bind).map _

theorem signValue_lt_zero (negative : Bool) : signValue negative < 0 ↔ negative = true := by
  cases negative <;> decide

theorem IsDigits.head (h : IsDigits s) (rest : List Char) :
    ∃ c, (s ++ rest).head? = some c ∧ c.isDigit = true := by
  obtain ⟨c, s, rfl⟩ := List.exists_cons_of_ne_nil h.1
  exact ⟨c, rfl, h.2 c List.mem_cons_self⟩

/-- Digits stop a sign: they are no spaces and no signs. -/
theorem IsDigits.stops_sign (h : IsDigits s) :
    (s ++ rest).head? ≠ some ' ' ∧ (s ++ rest).head? ≠ some '+' ∧
      (s ++ rest).head? ≠ some '-' := by
  obtain ⟨c, hc, digit⟩ := h.head rest
  rw [hc]
  refine ⟨?_, ?_, ?_⟩ <;>
  · intro he
    rw [Option.some.inj he] at digit
    exact absurd digit (by decide)

theorem reads_exponent {written : List Char} (h : Exponent s written) (some : s ≠ [])
    (stops : NoDigit rest) (enough : s.length ≤ n) :
    exponent.Reads n before s rest written := by
  cases h with
  | absent => exact absurd rfl some
  | @present mark sg ds negative hmark hsign hdigits =>
    simp only [List.length_cons, List.length_append] at enough
    have reads_mark : ((char 'e').orElse (char 'E')).Reads n before [mark]
        (sg ++ (ds ++ rest)) mark := by
      rcases hmark with rfl | rfl
      · exact (reads_char 'e').orElse
      · exact (fails_char (by simp)).orElse_reads (reads_char 'E')
    have front : (((char 'e').orElse (char 'E')).seqRight sign).Reads n before ([mark] ++ sg)
        (ds ++ rest) (signValue negative) :=
      reads_mark.seqRight (reads_sign hsign hdigits.stops_sign (by omega))
    have whole : exponent.Reads n before ([mark] ++ sg ++ ds) rest
        (if signValue negative < 0 then 'e' :: '-' :: ds else 'e' :: ds) :=
      front.bind ((reads_digits hdigits stops (by omega)).map _)
    simp only [signValue_lt_zero] at whole
    cases negative <;> simpa using whole

theorem answers_exponent (enough : ahead.length ≤ n) :
    exponent.Answers n before ahead (fun s _ v => Exponent s v) fun _ => True := by
  have mark : ((char 'e').orElse (char 'E')).Answers n before ahead
      (fun s _ _ => ∃ mark, s = [mark] ∧ (mark = 'e' ∨ mark = 'E')) fun _ => True := by
    refine ((answers_char 'e').mono ?_ fun _ h => h).orElse
      fun _ _ => (answers_char 'E').mono ?_ fun _ h => h
    · exact fun _ _ _ _ h => ⟨'e', h, .inl rfl⟩
    · exact fun _ _ _ _ h => ⟨'E', h, .inr rfl⟩
  have front : (((char 'e').orElse (char 'E')).seqRight sign).Answers n before ahead
      (fun s _ v => ∃ mark sg negative, s = mark :: sg ∧ (mark = 'e' ∨ mark = 'E') ∧
        Sign sg negative ∧ v = signValue negative) fun _ => True := by
    refine mark.bind fun a rest _ split ha => ?_
    obtain ⟨c, rfl, hc⟩ := ha
    refine (answers_sign (rest_le split enough)).mono ?_ fun _ h => h
    rintro sg _ v - ⟨negative, hsign, hv⟩
    exact ⟨c, sg, negative, rfl, hc, hsign, hv⟩
  refine front.bind fun a rest v split ha => ?_
  obtain ⟨c, sg, negative, rfl, hc, hsign, rfl⟩ := ha
  refine Answers.map _ ((answers_digits (rest_le split enough)).mono ?_ fun _ _ => trivial)
  rintro ds _ v - ⟨rfl, hdigits⟩
  have whole := Exponent.present hc hsign hdigits
  simp only [signValue_lt_zero]
  cases negative <;> simpa using whole

theorem fails_exponent (h : ahead.head? ≠ some 'e' ∧ ahead.head? ≠ some 'E') :
    exponent.Fails n before ahead :=
  (((fails_char h.1).orElse (fails_char h.2)).bind).bind

/-! ## Numbers -/

/-- What follows the digits of a mantissa is no digit. -/
theorem Exponent.noDigit {written : List Char} (h : Exponent s written) (hr : EndsNumber rest) :
    NoDigit (s ++ rest) := by
  cases h with
  | absent => exact hr.noDigit
  | present hmark _ _ =>
    rintro c hc
    obtain rfl : _ = c := Option.some.inj hc
    rcases hmark with rfl | rfl <;> decide

theorem Exponent.not_point {written : List Char} (h : Exponent s written) (hr : EndsNumber rest) :
    (s ++ rest).head? ≠ some '.' := by
  cases h with
  | absent => exact hr.stops.1
  | present hmark _ _ => rcases hmark with rfl | rfl <;> simp

theorem reads_mantissa {m : List Char} (h : Mantissa m)
    (stops : NoDigit rest) (point : rest.head? ≠ some '.')
    (enough : m.length ≤ n) :
    ((digits.bind fun text => (fraction.orDefault []).map fun tail => text ++ tail).orElse
      fraction).Reads n before m rest m := by
  cases h with
  | @whole ds hds =>
    refine Reads.orElse ?_
    have whole : (digits.bind fun text =>
        (fraction.orDefault []).map fun tail => text ++ tail).Reads
          n before (m ++ []) rest (m ++ []) :=
      (reads_digits hds stops enough).bind ((fails_fraction point).orDefault.map _)
    rw [List.append_nil] at whole
    exact whole
  | @point ds fs hds hfs =>
    simp only [List.length_append, List.length_cons] at enough
    refine Reads.orElse ?_
    refine Reads.bind (reads_digits hds (noDigit_cons.mpr rfl) (by omega)) ?_
    exact ((reads_fraction hfs stops (by omega)).orDefault).map _
  | @fraction fs hfs =>
    rw [List.length_cons] at enough
    refine Fails.orElse_reads (Fails.bind (fails_digits (noDigit_cons.mpr rfl))) ?_
    exact reads_fraction hfs stops (by omega)

theorem answers_mantissa (enough : ahead.length ≤ n) :
    ((digits.bind fun text => (fraction.orDefault []).map fun tail => text ++ tail).orElse
      fraction).Answers n before ahead (fun s _ v => v = s ∧ Mantissa s)
      fun _ => NoDigit ahead := by
  refine Answers.orElse ((answers_digits enough).bind fun a rest v split ha => ?_)
    fun _ noDigit => (answers_fraction enough).mono ?_ fun _ _ => noDigit
  · obtain ⟨rfl, hds⟩ := ha
    refine Answers.map _ ((answers_fraction (rest_le split enough)).orDefault.mono ?_ fun _ h => h)
    rintro tail _ w - (⟨rfl, fs, rfl, hfs⟩ | ⟨rfl, rfl⟩)
    · exact ⟨rfl, .point hds hfs⟩
    · rw [List.append_nil]
      exact ⟨rfl, .whole hds⟩
  · rintro s _ v - ⟨rfl, fs, rfl, hfs⟩
    exact ⟨rfl, .fraction hfs⟩

theorem reads_numeral {m x written : List Char} (hm : Mantissa m) (hx : Exponent x written)
    (hr : EndsNumber rest) (enough : (m ++ x).length ≤ n) :
    numeral.Reads n before (m ++ x) rest (m ++ written) := by
  rw [List.length_append] at enough
  refine Reads.bind
    (reads_mantissa hm (hx.noDigit hr) (hx.not_point hr) (by omega)) (Reads.map _ ?_)
  by_cases some : x = []
  · subst some
    cases hx
    exact (fails_exponent hr.stops.2).orDefault
  · exact (reads_exponent hx some hr.noDigit (by omega)).orDefault

theorem answers_numeral (enough : ahead.length ≤ n) :
    numeral.Answers n before ahead
      (fun s _ v => ∃ m x written, s = m ++ x ∧ Mantissa m ∧ Exponent x written ∧
        v = m ++ written) fun _ => NoDigit ahead := by
  refine (answers_mantissa enough).bind fun a rest v split ha => ?_
  obtain ⟨rfl, hm⟩ := ha
  refine Answers.map _ ((answers_exponent (rest_le split enough)).orDefault.mono ?_ fun _ h => h)
  rintro x _ w - (hx | ⟨rfl, rfl⟩)
  · exact ⟨v, x, w, rfl, hm, hx, rfl⟩
  · exact ⟨v, [], [], rfl, hm, .absent, rfl⟩

theorem Mantissa.head (h : Mantissa s) (rest : List Char) :
    ∃ c, (s ++ rest).head? = some c ∧ (c.isDigit = true ∨ c = '.') := by
  cases h with
  | whole hds =>
    obtain ⟨c, hc, digit⟩ := hds.head rest
    exact ⟨c, hc, .inl digit⟩
  | @point ds fs hds _ =>
    obtain ⟨c, hc, digit⟩ := hds.head ('.' :: (fs ++ rest))
    exact ⟨c, by rw [← hc]; simp, .inl digit⟩
  | fraction _ => exact ⟨'.', rfl, .inr rfl⟩

theorem Mantissa.stops_sign (h : Mantissa s) :
    (s ++ rest).head? ≠ some ' ' ∧ (s ++ rest).head? ≠ some '+' ∧
      (s ++ rest).head? ≠ some '-' := by
  obtain ⟨c, hc, kind⟩ := h.head rest
  rw [hc]
  refine ⟨?_, ?_, ?_⟩ <;>
  · intro he
    rw [Option.some.inj he] at kind
    exact absurd kind (by decide)

theorem reads_number {x : Float} (h : Number s x) (hr : EndsNumber rest) (enough : s.length ≤ n) :
    number.Reads n before s rest x := by
  cases h with
  | @mk sg m ex written negative hsign hm hex =>
    rw [List.length_append] at enough
    refine Reads.mapError _ (Reads.bind (reads_sign hsign ?_ (by omega)) ?_)
    · rw [List.append_assoc]
      exact hm.stops_sign
    · exact ((reads_numeral hm hex hr (by omega)).map _).map _

theorem Sign.noDigit {negative : Bool} (h : Sign s negative) (hr : NoDigit rest) :
    NoDigit (s ++ rest) := by
  cases h with
  | absent => exact hr
  | plus => rintro c ⟨⟩; decide
  | minus i => rintro c ⟨⟩; decide

/-- A number is always found at a digit. -/
theorem answers_number (enough : ahead.length ≤ n) :
    number.Answers n before ahead (fun s _ x => Number s x) fun _ => NoDigit ahead := by
  refine Answers.mapError _ ((answers_sign enough).bind fun a rest v split ha => ?_)
  obtain ⟨negative, hsign, rfl⟩ := ha
  refine Answers.map _ (Answers.map _ ((answers_numeral (rest_le split enough)).mono ?_ ?_))
  · rintro _ _ _ - ⟨m, x, written, rfl, hm, hx, rfl⟩
    exact .mk hsign hm hx
  · intro _ noDigit
    rw [split]
    exact hsign.noDigit noDigit

/-- A number starts with a sign, a digit or a point. -/
theorem misses_number (h : ∀ c ∈ ahead.head?, c.isDigit = false ∧ c ≠ '.' ∧ c ≠ '+' ∧ c ≠ '-') :
    number.Misses n before ahead
      (errorAt "number" (Position.start.after before) ahead.head?) := by
  have head_ne : ∀ c, c = '.' ∨ c = '+' ∨ c = '-' → ahead.head? ≠ some c := by
    intro c hc he
    have := h c he
    rcases hc with rfl | rfl | rfl <;> simp at this
  have no_digits : digits.Fails n before ahead := fails_digits fun c hc => (h c hc).1
  have no_fraction : fraction.Misses n before ahead
      (errorAt (String.singleton '.') (Position.start.after before) ahead.head?) :=
    (misses_char (head_ne '.' (.inl rfl))).bind.map _
  have no_numeral : numeral.Misses n before ahead
      (errorAt (String.singleton '.') (Position.start.after before) ahead.head?) :=
    (no_digits.bind.orElse_misses no_fraction).bind
  have no_sign : sign.Reads n before [] ahead 1.0 :=
    Fails.firstOf_reads (((fails_char (head_ne '-' (.inr (.inr rfl)))).bind).bind)
      (Fails.firstOf_reads ((fails_char (head_ne '+' (.inr (.inl rfl)))).bind) reads_pure)
  have begun : (sign.bind fun bit => magnitude.map fun value => bit * value).Misses n before ahead
      (errorAt (String.singleton '.') (Position.start.after before) ahead.head?) := by
    refine Reads.bind_misses no_sign ?_
    rw [List.append_nil]
    exact (no_numeral.map _).map _
  exact begun.mapError (TextError.expecting "number")

theorem fails_number (h : ∀ c ∈ ahead.head?, c.isDigit = false ∧ c ≠ '.' ∧ c ≠ '+' ∧ c ≠ '-') :
    number.Fails n before ahead :=
  ⟨_, misses_number h⟩

/-! ## Characters of names and numbers -/

section Characters

variable {c : Char}

/-- Characters that have a use of their own, or end a line, and are in no name. -/
def reserved : List Char :=
  [' ', '(', ')', '[', ']', ',', '.', '+', '-', '*', '/', '^', '#', '=', ':', '\n']

theorem Sign.not_mem {negative : Bool} (h : Sign s negative) (other : c ∉ [' ', '+', '-', '.']) :
    c ∉ s := by
  cases h <;> simp_all

variable [Alphabet]

theorem isNameChar_reserved (h : c ∈ reserved) : isNameChar c = false := by
  have plain : ∀ c ∈ reserved,
      (decide (c.toNat < 128) && !(c.isAlpha || c.isDigit || c = '_')) = true :=
    List.all_eq_true.mp (by decide)
  obtain ⟨ascii, other⟩ := Bool.and_eq_true_iff.mp (plain c h)
  rw [isNameChar_of_ascii (of_decide_eq_true ascii)]
  exact (Bool.not_eq_true' _).mp other

theorem ne_of_isNameChar {d : Char} (h : isNameChar c = true) (hd : d ∈ reserved) : c ≠ d := by
  rintro rfl
  rw [isNameChar_reserved hd] at h
  exact nomatch h

theorem IsName.not_mem (h : IsName s) (name : isNameChar c = false) : c ∉ s := by
  intro found
  rw [h.2 c found] at name
  cases name

theorem IsDigits.not_mem (h : IsDigits s) (name : isNameChar c = false) : c ∉ s := by
  intro found
  simp [isNameChar, h.2 c found] at name

theorem Mantissa.not_mem (h : Mantissa s) (name : isNameChar c = false)
    (other : c ∉ [' ', '+', '-', '.']) : c ∉ s := by
  have point : c ≠ '.' := by simp_all
  cases h with
  | whole hds => exact hds.not_mem name
  | point hds hfs => simp [hds.not_mem name, hfs.not_mem name, point]
  | fraction hfs => simp [hfs.not_mem name, point]

theorem Exponent.not_mem {written : List Char} (h : Exponent s written)
    (name : isNameChar c = false) (other : c ∉ [' ', '+', '-', '.']) : c ∉ s := by
  cases h with
  | absent => exact List.not_mem_nil
  | @present mark sg ds negative hmark hsign hds =>
    have front : c ≠ mark := by
      rintro rfl
      have letter : c.isAlpha = true := by rcases hmark with rfl | rfl <;> rfl
      rw [isNameChar_of_isAlpha letter] at name
      cases name
    simp [front, hsign.not_mem other, hds.not_mem name]

/-- A number has no characters but those of names, signs, spaces and a point. -/
theorem Number.not_mem {x : Float} (h : Number s x) (name : isNameChar c = false)
    (other : c ∉ [' ', '+', '-', '.']) : c ∉ s := by
  cases h with
  | mk hsign hm hx => simp [hsign.not_mem other, hm.not_mem name other, hx.not_mem name other]

end Characters

/-! ## Names -/

section

variable [Alphabet]

theorem readsChar_nameChar : (alphanumeric.orElse (char '_')).ReadsChar isNameChar :=
  readsChar_alphanumeric.orElse (readsChar_char '_')

theorem reads_name (h : IsName s) (stops : ∀ c ∈ rest.head?, isNameChar c = false)
    (enough : s.length ≤ n) : name.Reads n before s rest (String.ofList s) :=
  ((readsChar_nameChar.many1 h.1 h.2 stops enough).map _).mapError _

theorem answers_name (enough : ahead.length ≤ n) :
    name.Answers n before ahead (fun s _ v => IsName s ∧ v = String.ofList s) fun _ => True := by
  refine Answers.mapError _ (Answers.map _ ((readsChar_nameChar.answers_many1 enough).mono ?_
    fun _ _ => trivial))
  rintro s _ v - ⟨rfl, some, hs, -⟩
  exact ⟨⟨some, hs⟩, rfl⟩

theorem misses_name (h : ∀ c ∈ ahead.head?, isNameChar c = false) :
    name.Misses n before ahead (errorAt "name" (Position.start.after before) ahead.head?) := by
  have none : (alphanumeric.orElse (char '_')).Misses n before ahead
      (errorAt (String.singleton '_') (Position.start.after before) ahead.head?) := by
    refine (readsChar_alphanumeric.fails fun c hc => ?_).orElse_misses (misses_char fun hc => ?_)
    · exact (Bool.or_eq_false_iff.mp (h c hc)).1
    · have own : isNameChar '_' = true := by simp [isNameChar]
      rw [h '_' hc] at own
      cases own
  exact ((none.many1).map _).mapError (TextError.expecting "name")

end

/-! ## Operators -/

/-- A text does not start with the signs of two operations. -/
theorem eq_of_symbol_front {o p : Operation} (h : p.symbol.toList <+: o.symbol.toList ++ rest) :
    o = p := by
  cases o <;> cases p <;> first | rfl | simp [Operation.symbol] at h

theorem noBreak_symbol (o : Operation) : '\n' ∉ o.symbol.toList := by
  cases o <;> decide

theorem reads_operatorSign (o : Operation) :
    (operatorSign o).Reads n before o.symbol.toList rest o :=
  (reads_literal o.symbol).map _

theorem reads_firstOf_sign {o p : Operation} {others : List Operation} (h : o ∈ p :: others) :
    (firstOf (operatorSign p) (others.map operatorSign)).Reads n before o.symbol.toList rest o := by
  induction others generalizing p with
  | nil =>
    obtain rfl := List.mem_singleton.mp h
    exact reads_operatorSign o
  | cons q others ih =>
    by_cases first : o = p
    · subst first
      exact (reads_operatorSign o).firstOf
    · have later : o ∈ q :: others := (List.mem_cons.mp h).resolve_left first
      refine Fails.firstOf_reads ?_ (ih later)
      exact (fails_literal fun found => first (eq_of_symbol_front found)).map _

theorem mem_all (o : Operation) : o ∈ Operation.add :: Operation.all.drop 1 := by
  cases o <;> simp [Operation.all]

theorem reads_operator (o : Operation) : operator.Reads n before o.symbol.toList rest o :=
  (reads_firstOf_sign (mem_all o)).mapError _

theorem answers_operator :
    operator.Answers n before ahead (fun s _ o => s = o.symbol.toList) fun _ => True := by
  have each : ∀ o, (operatorSign o).Answers n before ahead (fun s _ v => s = v.symbol.toList)
      fun _ => True := by
    intro o
    refine Answers.map _ ((answers_literal o.symbol).mono ?_ fun _ h => h)
    exact fun _ _ _ _ h => h.1
  refine Answers.mapError _ ((each .add).firstOf fun q hq => ?_)
  obtain ⟨o, -, rfl⟩ := List.mem_map.mp hq
  exact each o

theorem fails_operator (h : ∀ o : Operation, ¬ o.symbol.toList <+: ahead) :
    operator.Fails n before ahead := by
  have each : ∀ o, (operatorSign o).Fails n before ahead := fun o => (fails_literal (h o)).map _
  refine Fails.mapError _ ((each .add).firstOf fun q hq => ?_)
  obtain ⟨o, -, rfl⟩ := List.mem_map.mp hq
  exact each o

end Reckoner.Grammar
