import Reckoner.Proofs.Grammar.Lexical
import Reckoner.Proofs.Parser.Munching

/-!
# The longest number

The numbers as a language, with the parts of

    number := (- *|+)? (D+ (.D+)? | .D+) ([eE] (- *|+)? D+)?

where `D` is a digit. The rules read the parts one after the other, each as far as it goes. What
comes next in a number always starts with a character that is not in the part before it: after a
sign a digit or a point, after the digits a point, after a mantissa a mark, after the mark a sign or
a digit. So the rules read the longest number there is, and leave a point or a mark alone that no
digits follow.
-/

namespace Reckoner.Grammar

open Reckoner.Parser Reckoner.TextParser

/-! ## The language of numbers -/

/-- The signs, or none. -/
def signs : Language Char :=
  oneOf (fun c => c = '-') * manyOf (fun c => c = ' ') + oneOf (fun c => c = '+') + 1

/-- Runs of digits. -/
def digitRuns : Language Char :=
  someOf Char.isDigit

/-- A point and the digits after it. -/
def fractions : Language Char :=
  oneOf (fun c => c = '.') * digitRuns

/-- What stands before an exponent. -/
def mantissas : Language Char :=
  digitRuns * (fractions + 1) + fractions

/-- Exponents with their marks. -/
def exponents : Language Char :=
  oneOf (fun c => decide (c = 'e') || decide (c = 'E')) * signs * digitRuns

/-- Numbers with their signs. -/
def numbers : Language Char :=
  signs * (mantissas * (exponents + 1))

variable {s : List Char}

theorem mem_signs : s ∈ signs ↔ ∃ negative, Sign s negative := by
  constructor
  · intro hs
    rcases (Language.mem_add ..).mp hs with hs | hs
    · rcases (Language.mem_add ..).mp hs with hs | ⟨c, rfl, hc⟩
      · obtain ⟨_, ⟨c, rfl, hc⟩, t, ht, rfl⟩ := Language.mem_mul.mp hs
        rw [of_decide_eq_true hc, eq_replicate_blank ht]
        exact ⟨true, .minus t.length⟩
      · rw [of_decide_eq_true hc]
        exact ⟨false, .plus⟩
    · rw [(Language.mem_one s).mp hs]
      exact ⟨false, .absent⟩
  · rintro ⟨negative, h⟩
    cases h with
    | absent => exact (Language.mem_add ..).mpr (.inr ((Language.mem_one _).mpr rfl))
    | plus =>
      have plus : ['+'] ∈ oneOf fun c => c = '+' := ⟨'+', rfl, rfl⟩
      exact (Language.mem_add ..).mpr (.inl ((Language.mem_add ..).mpr (.inr plus)))
    | minus i =>
      have blank : blanks i ∈ manyOf fun c => c = ' ' :=
        fun c hc => decide_eq_true (List.eq_of_mem_replicate hc)
      have minus : ['-'] ∈ oneOf fun c => c = '-' := ⟨'-', rfl, rfl⟩
      have signed := Language.append_mem_mul minus blank
      exact (Language.mem_add ..).mpr (.inl ((Language.mem_add ..).mpr (.inl signed)))

theorem mem_fractions : s ∈ fractions ↔ ∃ fs, IsDigits fs ∧ s = '.' :: fs := by
  constructor
  · intro hs
    obtain ⟨_, ⟨c, rfl, hc⟩, fs, hfs, rfl⟩ := Language.mem_mul.mp hs
    exact ⟨fs, hfs, by rw [of_decide_eq_true hc]; rfl⟩
  · rintro ⟨fs, hfs, rfl⟩
    have point : ['.'] ∈ oneOf fun c => c = '.' := ⟨'.', rfl, rfl⟩
    exact Language.append_mem_mul point hfs

theorem mem_mantissas : s ∈ mantissas ↔ Mantissa s := by
  constructor
  · intro hs
    rcases (Language.mem_add ..).mp hs with hs | hs
    · obtain ⟨ds, hds, tail, htail, rfl⟩ := Language.mem_mul.mp hs
      rcases (Language.mem_add ..).mp htail with htail | htail
      · obtain ⟨fs, hfs, rfl⟩ := mem_fractions.mp htail
        exact .point hds hfs
      · rw [(Language.mem_one tail).mp htail, List.append_nil]
        exact .whole hds
    · obtain ⟨fs, hfs, rfl⟩ := mem_fractions.mp hs
      exact .fraction hfs
  · intro h
    refine (Language.mem_add ..).mpr ?_
    cases h with
    | whole hds =>
      have none : ([] : List Char) ∈ fractions + 1 :=
        (Language.mem_add ..).mpr (.inr ((Language.mem_one _).mpr rfl))
      exact .inl (Language.mem_mul.mpr ⟨s, hds, [], none, List.append_nil s⟩)
    | @point ds fs hds hfs =>
      have tail : '.' :: fs ∈ fractions + 1 :=
        (Language.mem_add ..).mpr (.inl (mem_fractions.mpr ⟨fs, hfs, rfl⟩))
      exact .inl (Language.append_mem_mul hds tail)
    | fraction hfs => exact .inr (mem_fractions.mpr ⟨_, hfs, rfl⟩)

theorem mem_exponents_add_one : s ∈ exponents + 1 ↔ ∃ written, Exponent s written := by
  constructor
  · intro hs
    rcases (Language.mem_add ..).mp hs with hs | hs
    · obtain ⟨_, front, ds, hds, rfl⟩ := Language.mem_mul.mp hs
      obtain ⟨_, ⟨mark, rfl, hmark⟩, sg, hsg, rfl⟩ := Language.mem_mul.mp front
      obtain ⟨negative, hsign⟩ := mem_signs.mp hsg
      have marked : mark = 'e' ∨ mark = 'E' := by simpa using hmark
      have whole := Exponent.present marked hsign hds
      rw [List.append_assoc]
      exact ⟨_, whole⟩
    · rw [(Language.mem_one s).mp hs]
      exact ⟨[], .absent⟩
  · rintro ⟨written, h⟩
    refine (Language.mem_add ..).mpr ?_
    cases h with
    | absent => exact .inr ((Language.mem_one _).mpr rfl)
    | @present mark sg ds negative hmark hsign hds =>
      have marked : [mark] ∈ oneOf fun c => decide (c = 'e') || decide (c = 'E') :=
        ⟨mark, rfl, by simpa using hmark⟩
      have front := Language.append_mem_mul marked (mem_signs.mpr ⟨negative, hsign⟩)
      have run : ds ∈ digitRuns := hds
      have whole := Language.append_mem_mul front run
      rw [List.append_assoc] at whole
      exact .inl whole

theorem mem_numbers : s ∈ numbers ↔ ∃ x, Number s x := by
  constructor
  · intro hs
    obtain ⟨sg, hsg, _, hbody, rfl⟩ := Language.mem_mul.mp hs
    obtain ⟨m, hm, x, hx, rfl⟩ := Language.mem_mul.mp hbody
    obtain ⟨negative, hsign⟩ := mem_signs.mp hsg
    obtain ⟨written, hx⟩ := mem_exponents_add_one.mp hx
    exact ⟨_, .mk hsign (mem_mantissas.mp hm) hx⟩
  · rintro ⟨x, h⟩
    cases h with
    | mk hsign hm hx =>
      have body := Language.append_mem_mul (mem_mantissas.mpr hm)
        (mem_exponents_add_one.mpr ⟨_, hx⟩)
      exact Language.append_mem_mul (mem_signs.mpr ⟨_, hsign⟩) body

/-! ## The characters of the parts -/

/-- The characters of signs. -/
def IsSignChar (c : Char) : Prop :=
  c = '-' ∨ c = ' ' ∨ c = '+'

/-- The characters of mantissas. -/
def IsMantissaChar (c : Char) : Prop :=
  c.isDigit = true ∨ c = '.'

/-- The characters that mark an exponent. -/
def IsMark (c : Char) : Prop :=
  c = 'e' ∨ c = 'E'

theorem isSignChar_ne_digit {c : Char} (h : IsSignChar c) : ¬ c.isDigit = true := by
  rcases h with rfl | rfl | rfl <;> decide

theorem isMark_ne_digit {c : Char} (h : IsMark c) : ¬ c.isDigit = true := by
  rcases h with rfl | rfl <;> decide

theorem isSignChar_ne_mantissa {c : Char} (h : IsSignChar c) : ¬ IsMantissaChar c := by
  rintro (digit | rfl)
  · exact isSignChar_ne_digit h digit
  · exact absurd h (by simp [IsSignChar])

theorem isMantissaChar_ne_mark {c : Char} (h : IsMantissaChar c) : ¬ IsMark c := by
  intro mark
  rcases h with digit | rfl
  · exact isMark_ne_digit mark digit
  · exact absurd mark (by simp [IsMark])

theorem madeOf_signs : MadeOf signs IsSignChar := by
  have minus := madeOf_oneOf.mono (L := oneOf fun c => c = '-') (Q := IsSignChar)
    fun c hc => .inl (of_decide_eq_true hc)
  have spaces := madeOf_manyOf.mono (L := manyOf fun c => c = ' ') (Q := IsSignChar)
    fun c hc => .inr (.inl (of_decide_eq_true hc))
  have plus := madeOf_oneOf.mono (L := oneOf fun c => c = '+') (Q := IsSignChar)
    fun c hc => .inr (.inr (of_decide_eq_true hc))
  exact ((minus.mul spaces).add plus).add madeOf_one

theorem madeOf_points : MadeOf (oneOf fun c => c = '.') (· = '.') :=
  madeOf_oneOf.mono fun _ hc => of_decide_eq_true hc

theorem startsIn_fractions : StartsIn fractions (· = '.') :=
  madeOf_points.startsIn.mul nil_notMem_oneOf

theorem madeOf_mantissas : MadeOf mantissas IsMantissaChar := by
  have digits := madeOf_someOf.mono (L := digitRuns) (Q := IsMantissaChar) fun c hc => .inl hc
  have points := madeOf_points.mono (Q := IsMantissaChar) fun c hc => .inr hc
  have fractions : MadeOf fractions IsMantissaChar := points.mul digits
  exact (digits.mul (fractions.add madeOf_one)).add fractions

theorem nil_notMem_mantissas : [] ∉ mantissas :=
  nil_notMem_add (nil_notMem_mul nil_notMem_someOf) (nil_notMem_mul nil_notMem_oneOf)

theorem madeOf_marks : MadeOf (oneOf fun c => decide (c = 'e') || decide (c = 'E')) IsMark :=
  madeOf_oneOf.mono fun c hc => by simpa [IsMark] using hc

theorem startsIn_exponents : StartsIn exponents IsMark :=
  (madeOf_marks.startsIn.mul nil_notMem_oneOf).mul (nil_notMem_mul nil_notMem_oneOf)

theorem nil_notMem_exponents : [] ∉ exponents :=
  nil_notMem_mul (nil_notMem_mul nil_notMem_oneOf)

/-! ## What the rules munch -/

theorem munches_sign : sign.Munches signs := by
  have padded : ((char '-').seqLeft spaces).Munches
      (oneOf (fun c => c = '-') * manyOf (fun c => c = ' ')) := by
    refine (readsChar_char '-').munches.seqLeft (readsChar_char ' ').munches_many ?_
    refine madeOf_oneOf.parted madeOf_manyOf.startsIn fun c hc blank => ?_
    rw [of_decide_eq_true hc] at blank
    exact absurd blank (by decide)
  have minus := padded.seqRight (munches_pure (-1.0)) parted_one
  have plus : ((char '+').seqRight (.pure 1.0)).Munches (oneOf (fun c => c = '+') * 1) :=
    (readsChar_char '+').munches.seqRight (munches_pure 1.0) parted_one
  rw [mul_one] at minus plus
  have notNil : [] ∉ oneOf (fun c => c = '-') * manyOf (fun c => c = ' ') :=
    nil_notMem_mul nil_notMem_oneOf
  have signed := minus.orElse plus (by
    refine (madeOf_oneOf.startsIn.mul nil_notMem_oneOf).apart notNil madeOf_oneOf.startsIn ?_
    intro c hc other
    rw [of_decide_eq_true hc] at other
    exact absurd other (by decide))
  exact signed.orElse (munches_pure 1.0) (apart_one (nil_notMem_add notNil nil_notMem_oneOf))

theorem munches_digits : digits.Munches digitRuns :=
  readsChar_digit.munches_many1

theorem munches_fraction : fraction.Munches fractions := by
  refine ((readsChar_char '.').munches.seqRight munches_digits ?_).map _
  refine madeOf_points.parted madeOf_someOf.startsIn ?_
  rintro c rfl
  decide

theorem munches_mantissa :
    ((digits.bind fun text => (fraction.orDefault []).map fun tail => text ++ tail).orElse
      fraction).Munches mantissas := by
  have tail := munches_fraction.orDefault [] (apart_one (nil_notMem_mul nil_notMem_oneOf))
  have integral := munches_digits.bind (fun text => tail.map fun tail => text ++ tail) (by
    refine madeOf_someOf.parted (startsIn_fractions.add madeOf_one.startsIn) ?_
    rintro c digit rfl
    exact absurd digit (by decide))
  refine integral.orElse munches_fraction ?_
  refine (madeOf_someOf.startsIn.mul nil_notMem_someOf).apart
    (nil_notMem_mul nil_notMem_someOf) startsIn_fractions ?_
  rintro c digit rfl
  exact absurd digit (by decide)

theorem munches_exponent : exponent.Munches exponents := by
  have mark := ((readsChar_char 'e').orElse (readsChar_char 'E')).munches
  have front := mark.seqRight munches_sign (by
    refine madeOf_marks.parted madeOf_signs.startsIn ?_
    rintro c (rfl | rfl) <;> simp [IsSignChar])
  refine front.bind (fun _ => munches_digits.map _) ?_
  refine MadeOf.parted (P := fun c => IsMark c ∨ IsSignChar c) ?_ madeOf_someOf.startsIn ?_
  · exact (madeOf_marks.mono fun _ => .inl).mul (madeOf_signs.mono fun _ => .inr)
  · rintro c (mark | sign)
    · exact isMark_ne_digit mark
    · exact isSignChar_ne_digit sign

theorem munches_numeral : numeral.Munches (mantissas * (exponents + 1)) := by
  have tail := munches_exponent.orDefault [] (apart_one nil_notMem_exponents)
  refine munches_mantissa.bind (fun _ => tail.map _) ?_
  exact madeOf_mantissas.parted (startsIn_exponents.add madeOf_one.startsIn)
    fun _ => isMantissaChar_ne_mark

theorem munches_signed :
    (sign.bind fun bit => magnitude.map fun value => bit * value).Munches numbers := by
  refine munches_sign.bind (fun _ => (munches_numeral.map _).map _) ?_
  exact madeOf_signs.parted (madeOf_mantissas.startsIn.mul nil_notMem_mantissas)
    fun _ => isSignChar_ne_mantissa

/-! ## Numbers of a text -/

/-- `s` is the longest number that `ahead` starts with, and `x` is its value. -/
structure LongestNumber (ahead s : List Char) (x : Float) : Prop where
  value : Number s x
  front : s <+: ahead
  longest : ∀ t y, Number t y → t <+: ahead → t <+: s

variable {n : Nat} {before ahead : List Char}

theorem answers_longestNumber (enough : ahead.length ≤ n) :
    number.Answers n before ahead (fun s _ x => LongestNumber ahead s x)
      fun e => e.expected = "number" ∧ ∀ s x, Number s x → ¬ s <+: ahead := by
  have munched : number.Answers n before ahead (fun s _ _ => Longest numbers ahead s)
      fun e => e.expected = "number" ∧ Unmatched numbers ahead :=
    Answers.mapError _ ((munches_signed n before ahead enough).mono (fun _ _ _ _ hs => hs)
      fun _ none => ⟨rfl, none⟩)
  refine ((answers_number enough).and munched).mono ?_ ?_
  · rintro s _ x - ⟨value, found⟩
    exact ⟨value, found.front, fun t y ht => found.longest t (mem_numbers.mpr ⟨y, ht⟩)⟩
  · rintro e ⟨-, expected, none⟩
    exact ⟨expected, fun s x hs => none s (mem_numbers.mpr ⟨x, hs⟩)⟩

/-- A number has one value. -/
theorem Number.unique {s : List Char} {x y : Float} (h : Number s x) (h' : Number s y) : x = y := by
  have ends : EndsNumber [] := ⟨nofun, nofun, nofun, nofun⟩
  have reads : number.Reads s.length [] s [] x := reads_number h ends (Nat.le_refl _)
  have reads' : number.Reads s.length [] s [] y := reads_number h' ends (Nat.le_refl _)
  exact (reads.unique rfl reads').2.2

/-- At any index of a text a number is found just when what is left of the text starts with one. The
longest is read, with its value, up to the index where it ends. When there is none, a number was
expected, and the place is the one given. -/
theorem number_reads_longest (text : List Char) (i n : Nat) (enough : text.length ≤ n) :
    ((∃ x rest q, number.parse n text (.ofIndex text i) = .success x rest q) ↔
      ∃ s x, Number s x ∧ s <+: text.drop i) ∧
    (∀ x rest q, number.parse n text (.ofIndex text i) = .success x rest q →
      ∃ s, LongestNumber (text.drop i) s x ∧ (∀ y, Number s y → y = x) ∧
        rest = text ∧ q = .ofIndex text (i + s.length)) ∧
    ((¬ ∃ s x, Number s x ∧ s <+: text.drop i) →
      ∃ e, e.expected = "number" ∧
        number.parse n text (.ofIndex text i) = .failure e text (.ofIndex text i)) := by
  have whole : text.take i ++ text.drop i = text := List.take_append_drop i text
  have enough' : (text.drop i).length ≤ n := by
    rw [List.length_drop]
    omega
  have answers : number.Answers n (text.take i) (text.drop i) _ _ := answers_longestNumber enough'
  rcases answers with ⟨s, rest, x, split, reads, found⟩ | ⟨e, misses, expected, none⟩
  · have place : Position.start.after (text.take i ++ s) = .ofIndex text (i + s.length) := by
      rw [Position.ofIndex, List.take_add, split, List.take_left]
    rw [Reads, ← split, whole, place] at reads
    have some : ∃ s x, Number s x ∧ s <+: text.drop i := ⟨s, x, found.value, found.front⟩
    refine ⟨iff_of_true ⟨x, text, _, reads⟩ some, ?_, fun none => absurd some none⟩
    intro y rest' q run
    obtain ⟨rfl, rfl, rfl⟩ := Reply.success.inj (reads.symm.trans run)
    exact ⟨s, found, fun y hy => hy.unique found.value, rfl, rfl⟩
  · rw [Misses, whole] at misses
    refine ⟨iff_of_false ?_ ?_, ?_, fun _ => ⟨e, expected, misses⟩⟩
    · rintro ⟨x, rest, q, run⟩
      cases misses.symm.trans run
    · rintro ⟨s, x, hs, front⟩
      exact none s x hs front
    · intro x rest q run
      cases misses.symm.trans run

/-- A mark and a sign that no digits follow are left alone, and no number starts there. -/
theorem number_reads_longest_marked :
    let text := ['-', ' ', ' ', '2', '.', '5', 'e', '-', 'x']
    (∃ s x, LongestNumber text s x ∧ Position.ofIndex text s.length = ⟨6, 1, 7⟩ ∧
      number.parse 9 text .start = .success x text ⟨6, 1, 7⟩) ∧
    ∃ e, e.expected = "number" ∧ number.parse 9 text ⟨6, 1, 7⟩ = .failure e text ⟨6, 1, 7⟩ := by
  intro text
  obtain ⟨-, reads, -⟩ := number_reads_longest text 0 9 (by decide)
  obtain ⟨finds, -, misses⟩ := number_reads_longest text 6 9 (by decide)
  have place : Position.ofIndex text 6 = ⟨6, 1, 7⟩ := rfl
  constructor
  · have run : number.parse 9 text (.ofIndex text 0) = .success _ text ⟨6, 1, 7⟩ := rfl
    obtain ⟨s, found, -, -, ending⟩ := reads _ _ _ run
    rw [Nat.zero_add] at ending
    exact ⟨s, _, found, ending.symm, run⟩
  · rw [place] at finds misses
    have run : number.parse 9 text ⟨6, 1, 7⟩ = .failure _ text ⟨6, 1, 7⟩ := rfl
    refine misses fun some => ?_
    obtain ⟨x, rest, q, found⟩ := finds.mpr some
    cases run.symm.trans found

end Reckoner.Grammar
