import Reckoner.Expr.Grammar
import Reckoner.Proofs.Parser.Built
import Reckoner.Proofs.Parser.Ends
import Reckoner.Proofs.Parser.Primitives

/-!
# Places along a text

A place has three numbers, and the primitives move them in different ways. `Composed` are the
parsers that leave moving to the primitives: they are made by combinators that set no context and
make no errors of their own, and what they do to an error is to name another expectation. Such a
parser, started at the place of some index, ends at the place of an index not before it, and its
error is met at the place of such an index. The proof describes each primitive once and carries the
description through every combinator, recursive rules included.

An error shows what was found through a window as wide as what was looked for. A parser whose
patterns are single characters therefore finds one character, or the end of the text.
-/

namespace Reckoner

/-- What is found at an index through a window of some width. -/
def seenThrough (width : Nat) (text : List Char) (index : Nat) : String :=
  if ((text.drop index).take width).isEmpty then TextError.endMark
  else String.ofList ((text.drop index).take width)

theorem seenThrough_one_of_char {text : List Char} {index : Nat} {c : Char}
    (h : text[index]? = some c) : seenThrough 1 text index = String.singleton c := by
  obtain ⟨inside, rfl⟩ := List.getElem?_eq_some_iff.mp h
  rw [seenThrough, List.drop_eq_getElem_cons inside]
  rfl

theorem seenThrough_one_eq_endMark {text : List Char} {index : Nat} (h : index ≤ text.length) :
    seenThrough 1 text index = TextError.endMark ↔ index = text.length := by
  rcases Nat.lt_or_eq_of_le h with inside | rfl
  · rw [seenThrough_one_of_char (List.getElem?_eq_getElem inside)]
    have shown := TextParser.singleton_ne_endMark text[index]
    exact ⟨fun same => absurd same shown, fun same => absurd same inside.ne⟩
  · rw [seenThrough, List.drop_length]
    exact ⟨fun _ => rfl, fun _ => rfl⟩

namespace Parser

open TextParser

/-! ## The parsers that leave moving to the primitives -/

/-- The primitives of texts, with literals among `patterns`. -/
inductive Primitive (patterns : String → Prop) : Known
  | satisfy (accepts : Char → Bool) (expected : String) :
      Primitive patterns TextError Char (satisfy accepts expected)
  | codePoint (n : Int) : Primitive patterns TextError Char (codePoint n)
  | literal {pattern : String} :
      patterns pattern → Primitive patterns TextError String (literal pattern)
  | endOfText : Primitive patterns TextError Unit endOfText
  | position : Primitive patterns TextError Position position

/-- An error keeps what was found and where; the expectation may be another one. -/
def KeepsFinding (f : TextError → TextError) : Prop :=
  ∀ e, (f e).actual = e.actual ∧ (f e).position? = e.position?

/-- The parsers that are composed of known ones. The other combinators are made of these. -/
inductive Composed : Known → ∀ {α : Type}, TextParser α → Prop
  | known {known : Known} {α : Type} {p : TextParser α} :
      known TextError α p → Composed known p
  | pure {known : Known} {α : Type} (v : α) : Composed known (.pure v)
  | map {known : Known} {α β : Type} {p : TextParser α} (f : α → β) :
      Composed known p → Composed known (p.map f)
  | bind {known : Known} {α β : Type} {p : TextParser α} {f : α → TextParser β} :
      Composed known p → (∀ v, Composed known (f v)) → Composed known (p.bind f)
  | orElse {known : Known} {α : Type} {p q : TextParser α} :
      Composed known p → Composed known q → Composed known (p.orElse q)
  | mapError {known : Known} {α : Type} {p : TextParser α} {f : TextError → TextError} :
      KeepsFinding f → Composed known p → Composed known (p.mapError f)
  | farthestOf {known : Known} {α : Type} {p : TextParser α} {others : List (TextParser α)} :
      Composed known p → (∀ q ∈ others, Composed known q) → Composed known (farthestOf p others)
  | many1 {known : Known} {α : Type} {p : TextParser α} :
      Composed known p → Composed known p.many1
  | defer {known : Known} {α : Type} {provider : Unit → TextParser α} :
      Composed known (provider ()) → Composed known (defer provider)
  | rules {known : Known} {R : Type} {α : R → Type}
      (start? : R → Option (Unit → Except Fault Position))
      {bodies : (∀ r, TextParser (α r)) → ∀ r, TextParser (α r)} :
      (∀ rules r, Composed (known.With rules) (bodies rules r)) →
      ∀ r, Composed known (fixRules start? bodies r)

namespace Composed

variable {known : Known} {α β : Type} {p : TextParser α}

theorem seqRight {q : TextParser β} (h : Composed known p) (hq : Composed known q) :
    Composed known (p.seqRight q) :=
  .bind h fun _ => hq

theorem seqLeft {q : TextParser β} (h : Composed known p) (hq : Composed known q) :
    Composed known (p.seqLeft q) :=
  .bind h fun _ => .map _ hq

theorem both {q : TextParser β} (h : Composed known p) (hq : Composed known q) :
    Composed known (p.both q) :=
  .bind h fun _ => .map _ hq

theorem transform (f : TextParser α → TextParser β) (h : Composed known (f p)) :
    Composed known (p.transform f) :=
  h

theorem orDefault (v : α) (h : Composed known p) : Composed known (p.orDefault v) :=
  .orElse h (.pure v)

theorem many (h : Composed known p) : Composed known p.many :=
  .orElse (.many1 h) (.pure [])

theorem sepBy {separator : TextParser β} (h : Composed known p)
    (hs : Composed known separator) : Composed known (sepBy p separator) :=
  .orElse (.bind h fun _ => .map _ (hs.seqRight h).many) (.pure [])

theorem firstOf {others : List (TextParser α)} (h : Composed known p)
    (hs : ∀ q ∈ others, Composed known q) : Composed known (firstOf p others) := by
  induction others generalizing p with
  | nil => exact h
  | cons q others ih =>
    exact ih (.orElse h (hs q List.mem_cons_self)) fun r hr => hs r (List.mem_cons_of_mem q hr)

theorem foldl_bind {step : TextParser β → TextParser α → TextParser β} {ps : List (TextParser α)}
    (hstep : ∀ done q, Composed known done → Composed known q → Composed known (step done q))
    (h : ∀ q ∈ ps, Composed known q) {done : TextParser β} (hd : Composed known done) :
    Composed known (ps.foldl step done) := by
  induction ps generalizing done with
  | nil => exact hd
  | cons q ps ih =>
    have hq := h q List.mem_cons_self
    exact ih (fun r hr => h r (List.mem_cons_of_mem q hr)) (hstep done q hd hq)

theorem sequence {ps : List (TextParser α)} (h : ∀ q ∈ ps, Composed known q) :
    Composed known (sequence ps) := by
  cases ps with
  | nil => exact .pure []
  | cons p ps =>
    refine foldl_bind (fun _ _ hd hq => .bind hd fun _ => .map _ hq) (fun q hq => ?_) ?_
    · exact h q (List.mem_cons_of_mem p hq)
    · exact .map _ (h p List.mem_cons_self)

theorem fix (start? : Option (Unit → Except Fault Position))
    {body : TextParser α → TextParser α}
    (h : ∀ q, Composed (known.With fun _ : Unit => q) (body q)) :
    Composed known (Parser.fix start? body) := by
  rw [fix_eq_fixRules]
  exact .rules (R := Unit) _ (fun rules _ => h (rules ())) ()

end Composed

/-! ## What runs do to a place -/

end Parser

namespace Position

/-- The place of an index of `text` that is not before `index`. -/
def FromIndex (text : List Char) (index : Nat) (q : Position) : Prop :=
  ∃ j, index ≤ j ∧ j ≤ text.length ∧ q = .ofIndex text j

variable {text : List Char} {i : Nat} {q : Position}

theorem fromIndex_self (h : i ≤ text.length) : FromIndex text i (.ofIndex text i) :=
  ⟨i, Nat.le_refl i, h, rfl⟩

theorem FromIndex.mono {j : Nat} (h : FromIndex text j q) (hij : i ≤ j) : FromIndex text i q := by
  obtain ⟨k, hjk, hk, rfl⟩ := h
  exact ⟨k, Nat.le_trans hij hjk, hk, rfl⟩

/-- The place after some text is that of its length. -/
theorem ofIndex_append (before ahead : List Char) :
    ofIndex (before ++ ahead) before.length = start.after before := by
  rw [ofIndex, List.take_left]

theorem index_ofIndex (h : i ≤ text.length) : (ofIndex text i).index = i := by
  rw [ofIndex, index_start_after, List.length_take_of_le h]

/-- Moving over a piece that stands at an index leads to the index at its end. -/
theorem fromIndex_after (before piece rest : List Char) :
    FromIndex (before ++ (piece ++ rest)) before.length ((start.after before).after piece) := by
  refine ⟨before.length + piece.length, Nat.le_add_right _ _, ?_, ?_⟩
  · rw [← List.append_assoc, List.length_append, List.length_append]
    exact Nat.le_add_right _ _
  · rw [after_append, ← List.append_assoc, ← List.length_append, ofIndex_append]

end Position

namespace TextError

/-- The error of a parser with some patterns, met at an index of `text` not before `index`. -/
def MetFrom (patterns : String → Prop) (text : List Char) (index : Nat) (e : TextError) : Prop :=
  ∃ k, index ≤ k ∧ k ≤ text.length ∧ e.position? = some (.ofIndex text k) ∧
    ∃ width, (width = 1 ∨ ∃ pattern, patterns pattern ∧ pattern.length = width) ∧
      e.actual = seenThrough width text k

variable {patterns : String → Prop} {text : List Char} {i : Nat} {e : TextError}

theorem MetFrom.mono {j : Nat} (h : MetFrom patterns text j e) (hij : i ≤ j) :
    MetFrom patterns text i e := by
  obtain ⟨k, hjk, found⟩ := h
  exact ⟨k, Nat.le_trans hij hjk, found⟩

theorem MetFrom.keepsFinding {f : TextError → TextError} (hf : Parser.KeepsFinding f)
    (h : MetFrom patterns text i e) : MetFrom patterns text i (f e) := by
  obtain ⟨k, hik, hk, place, width, hw, found⟩ := h
  exact ⟨k, hik, hk, (hf e).2.trans place, width, hw, (hf e).1.trans found⟩

/-- An error of one character shows the first character ahead. -/
theorem metFrom_errorAt (expected : String) (before ahead : List Char) :
    MetFrom patterns (before ++ ahead) before.length
      (TextParser.errorAt expected (Position.start.after before) ahead.head?) := by
  refine ⟨before.length, Nat.le_refl _, ?_, ?_, 1, .inl rfl, ?_⟩
  · rw [List.length_append]
    exact Nat.le_add_right _ _
  · rw [Position.ofIndex_append]
    rfl
  · rw [seenThrough, List.drop_left]
    cases ahead <;> rfl

end TextError

namespace Parser

open TextParser

/-- The halts of composed parsers: a repetition or a rule out of fuel, and a number that is no code
point. -/
def MayHalt (h : Halt) : Prop :=
  h = .outOfFuel ∨ h = .fault .notCharacter ∨ h = .fault .codePointTooLarge

/-- Runs that start at the place of an index end at the place of an index not before it, with an
error that is met at the place of such an index. -/
def KeepsPlaces (patterns : String → Prop) {α : Type} (p : TextParser α) : Prop :=
  ∀ n text i, i ≤ text.length → p.Ends n text (.ofIndex text i)
    (fun _ q => q.FromIndex text i) (TextError.MetFrom patterns text i) MayHalt

variable {patterns : String → Prop} {α : Type} {p : TextParser α}

/-- It is enough to look at runs between the text before a place and the text ahead of it. -/
theorem keepsPlaces_of_split (h : ∀ n before ahead,
      p.Ends n (before ++ ahead) (Position.start.after before)
        (fun _ q => q.FromIndex (before ++ ahead) before.length)
        (TextError.MetFrom patterns (before ++ ahead) before.length) MayHalt) :
    KeepsPlaces patterns p := by
  intro n text i hi
  obtain ⟨before, ahead, rfl, rfl⟩ : ∃ before ahead, text = before ++ ahead ∧ i = before.length :=
    ⟨text.take i, text.drop i, (List.take_append_drop i text).symm,
      (List.length_take_of_le hi).symm⟩
  rw [Position.ofIndex_append]
  exact h n before ahead

/-! ## Primitives -/

theorem fromIndex_here (before ahead : List Char) :
    (Position.start.after before).FromIndex (before ++ ahead) before.length := by
  rw [← Position.ofIndex_append before ahead]
  refine Position.fromIndex_self ?_
  rw [List.length_append]
  exact Nat.le_add_right _ _

theorem keepsPlaces_satisfy (accepts : Char → Bool) (expected : String) :
    KeepsPlaces patterns (satisfy accepts expected) := by
  refine keepsPlaces_of_split fun n before ahead => ?_
  unfold Ends satisfy
  rw [parse_ofLook]
  cases ahead with
  | nil => exact .failure (TextError.metFrom_errorAt expected before [])
  | cons c rest =>
    by_cases hc : accepts c = true
    · simp only [List.head?_cons, hc, if_true]
      exact .success (Position.fromIndex_after before [c] rest)
    · simp only [List.head?_cons, hc]
      exact .failure (TextError.metFrom_errorAt expected before (c :: rest))

theorem keepsPlaces_unfindable {cause : Fault}
    (h : cause = .notCharacter ∨ cause = .codePointTooLarge) :
    KeepsPlaces patterns (unfindable cause) := by
  refine keepsPlaces_of_split fun n before ahead => .halted ?_
  rw [isBefore_after]
  rcases h with rfl | rfl
  · exact .inr (.inl rfl)
  · exact .inr (.inr rfl)

theorem keepsPlaces_codePoint (n : Int) : KeepsPlaces patterns (codePoint n) := by
  unfold codePoint
  split
  · exact keepsPlaces_unfindable (.inr rfl)
  · split
    · exact keepsPlaces_unfindable (.inl rfl)
    · exact keepsPlaces_satisfy _ _

theorem between_after (before ahead : List Char) (width : Nat) :
    between (before ++ ahead) (Position.start.after before).index
      ((Position.start.after before).index + width) = ahead.take width := by
  have first : cutPoint (before ++ ahead) before.length = before.length := by simp [cutPoint]
  have last : cutPoint (before ++ ahead) (before.length + width) =
      before.length + min width ahead.length := by
    simp only [cutPoint, List.length_append]
    omega
  rw [Position.index_start_after, between, first, last, List.drop_left, Nat.add_sub_cancel_left]
  rw [List.take_eq_take_iff]
  omega

theorem keepsPlaces_literal {pattern : String} (h : patterns pattern) :
    KeepsPlaces patterns (literal pattern) := by
  refine keepsPlaces_of_split fun n before ahead => ?_
  by_cases found : pattern.toList <+: ahead
  · obtain ⟨rest, rfl⟩ := found
    have reads : (literal pattern).Reads n before pattern.toList rest pattern :=
      reads_literal pattern
    unfold Ends
    rw [reads, ← Position.after_append]
    exact .success (Position.fromIndex_after before pattern.toList rest)
  · have differs : pattern.toList.isPrefixOf ahead = false := by
      rw [← Bool.not_eq_true, List.isPrefixOf_iff_prefix]
      exact found
    simp only [Ends, literal, ofStep, hasAt_after, differs, Bool.false_eq_true, if_false,
      between_after]
    refine .failure
      ⟨before.length, Nat.le_refl _, ?_, ?_, pattern.length, .inr ⟨pattern, h, rfl⟩, ?_⟩
    · rw [List.length_append]
      exact Nat.le_add_right _ _
    · rw [Position.ofIndex_append]
    · rw [seenThrough, List.drop_left]
      rfl

theorem keepsPlaces_endOfText : KeepsPlaces patterns endOfText := by
  refine keepsPlaces_of_split fun n before ahead => ?_
  unfold Ends endOfText
  rw [parse_ofLook]
  cases ahead with
  | nil => exact .success (fromIndex_here before [])
  | cons c rest => exact .failure (TextError.metFrom_errorAt TextError.endMark before (c :: rest))

theorem keepsPlaces_position : KeepsPlaces patterns position :=
  keepsPlaces_of_split fun _ before ahead => .success (fromIndex_here before ahead)

theorem Primitive.keepsPlaces (h : Primitive patterns TextError α p) :
    KeepsPlaces patterns p := by
  cases h with
  | satisfy accepts expected => exact keepsPlaces_satisfy accepts expected
  | codePoint n => exact keepsPlaces_codePoint n
  | literal h => exact keepsPlaces_literal h
  | endOfText => exact keepsPlaces_endOfText
  | position => exact keepsPlaces_position

/-! ## Combinators -/

/-- What is left to a later run is described from where the earlier one ends. -/
theorem KeepsPlaces.later {text : List Char} {i n : Nat} {q : Position} (h : KeepsPlaces patterns p)
    (hq : q.FromIndex text i) :
    p.Ends n text q (fun _ q' => q'.FromIndex text i) (TextError.MetFrom patterns text i)
      MayHalt := by
  obtain ⟨j, hij, hj, rfl⟩ := hq
  exact (h n text j hj).mono (fun _ _ hq' => hq'.mono hij) fun _ he => he.mono hij

theorem KeepsPlaces.bind {β : Type} {f : α → TextParser β} (h : KeepsPlaces patterns p)
    (hf : ∀ v, KeepsPlaces patterns (f v)) : KeepsPlaces patterns (p.bind f) :=
  fun n text i hi => (h n text i hi).bind fun v _ hq => (hf v).later hq

theorem KeepsPlaces.many1 (h : KeepsPlaces patterns p) : KeepsPlaces patterns p.many1 := by
  intro n text i hi
  refine Ends.many1 (fun _ q => q.FromIndex text i) (h n text i hi) ?_ ?_ ?_
  · exact fun _ _ => .inl rfl
  · exact fun _ _ hq => hq
  · exact fun _ _ hq => h.later hq

/-- The rules keep places at every depth of their unfolding, when their bodies do as soon as the
rules that they refer to do. -/
theorem keepsPlaces_unfoldedRules {R : Type} {α : R → Type}
    (start? : R → Option (Unit → Except Fault Position))
    {bodies : (∀ r, TextParser (α r)) → ∀ r, TextParser (α r)}
    (h : ∀ rules, (∀ r, KeepsPlaces patterns (rules r)) →
      ∀ r, KeepsPlaces patterns (bodies rules r))
    (depth : Nat) :
    ∀ r, KeepsPlaces patterns (α := α r)
      ⟨start? r, fun m => unfoldedRules start? bodies depth r m⟩ := by
  induction depth with
  | zero => exact fun _ _ _ _ _ => .halted (.inl rfl)
  | succ depth ih => exact h _ ih

/-- What is composed of parsers that keep places keeps them. -/
theorem Composed.keepsPlaces {known : Known} (h : Composed known p)
    (hk : ∀ (α : Type) (p : TextParser α), known TextError α p → KeepsPlaces patterns p) :
    KeepsPlaces patterns p := by
  induction h with
  | known h => exact hk _ _ h
  | pure v => exact fun _ _ _ hi => ends_pure (Position.fromIndex_self hi)
  | map f _ ih => exact fun n text i hi => (ih hk n text i hi).map f
  | bind _ _ ih ihf => exact (ih hk).bind fun v => ihf v hk
  | orElse _ _ ih ihq => exact fun n text i hi => (ih hk n text i hi).orElse (ihq hk n text i hi)
  | mapError hf _ ih =>
    intro n text i hi
    exact ((ih hk n text i hi).mono (fun _ _ hq => hq) fun _ he => he.keepsFinding hf).mapError _
  | farthestOf _ _ ih ihs =>
    exact fun n text i hi => (ih hk n text i hi).farthestOf fun q hq => ihs q hq hk n text i hi
  | many1 _ ih => exact (ih hk).many1
  | defer _ ih => exact ih hk
  | rules start? _ r ih =>
    -- inside the bodies the rules are known parsers, one level deeper
    refine fun n => keepsPlaces_unfoldedRules start? (fun rules hr r => ih rules r ?_) n r n
    intro α p hp
    cases hp with
    | known hp => exact hk α p hp
    | rule r => exact hr r

/-! ## The places of a run -/

/-- The numbers of a place: the characters and the line breaks before it, and the characters since
the last break. -/
theorem ofIndex_eq {text : List Char} {j : Nat} (h : j ≤ text.length) :
    Position.ofIndex text j =
      ⟨j, 1 + (text.take j).count '\n', 1 + (lastLine (text.take j)).length⟩ := by
  have column : (Position.ofIndex text j).column = 1 + (lastLine (text.take j)).length := by
    by_cases broken : '\n' ∈ text.take j
    · exact Position.after_column_of_break _ broken
    · rw [PositionLemmas.lastLine_of_noBreak broken]
      exact Position.after_column_of_noBreak _ broken
  exact Position.ext (Position.index_ofIndex h) rfl column

/-- A composed parser that starts at the place of an index succeeds at the place of an index not
before it and leaves the text alone, or fails with an error that is located at the place of such an
index. The error shows what is there through a window of one character, or as wide as one of the
patterns. When the patterns are single characters, that is the character at the index, or the end of
the text exactly at the end. Nothing stops such a run but missing fuel and numbers that are no code
points. The place of an index counts the characters and line breaks before it. -/
theorem places_kept {patterns : String → Prop} {α : Type} {p : TextParser α}
    (composed : Composed (Primitive patterns) p) (n : Nat) (text : List Char) {i : Nat}
    (inside : i ≤ text.length) :
    (∀ v rest q, p.parse n text (.ofIndex text i) = .success v rest q →
      rest = text ∧ ∃ j, i ≤ j ∧ j ≤ text.length ∧ q = .ofIndex text j) ∧
    (∀ e rest q, p.parse n text (.ofIndex text i) = .failure e rest q →
      ∃ k, i ≤ k ∧ k ≤ text.length ∧ e.position? = some (.ofIndex text k) ∧
        (∃ width, (width = 1 ∨ ∃ pattern, patterns pattern ∧ pattern.length = width) ∧
          e.actual = seenThrough width text k) ∧
        ((∀ pattern, patterns pattern → pattern.length = 1) →
          (∀ c, text[k]? = some c → e.actual = String.singleton c) ∧
          (e.actual = TextError.endMark ↔ k = text.length))) ∧
    (∀ h, p.parse n text (.ofIndex text i) = .halted h → MayHalt h) ∧
    ∀ j, j ≤ text.length → Position.ofIndex text j =
      ⟨j, 1 + (text.take j).count '\n', 1 + (lastLine (text.take j)).length⟩ := by
  have ends := composed.keepsPlaces (fun _ _ h => Primitive.keepsPlaces h) n text i inside
  refine ⟨fun v rest q run => ?_, fun e rest q run => ?_, fun h run => ?_, fun j => ofIndex_eq⟩
  · rw [Ends, run] at ends
    cases ends with
    | success hq => exact ⟨rfl, hq⟩
  · rw [Ends, run] at ends
    cases ends with
    | failure he =>
      obtain ⟨k, hik, hk, place, width, hw, found⟩ := he
      refine ⟨k, hik, hk, place, ⟨width, hw, found⟩, fun single => ?_⟩
      obtain rfl : width = 1 := by
        rcases hw with hw | ⟨pattern, hp, hw⟩
        · exact hw
        · exact hw.symm.trans (single pattern hp)
      rw [found]
      exact ⟨fun c hc => seenThrough_one_of_char hc, seenThrough_one_eq_endMark hk⟩
  · rw [Ends, run] at ends
    cases ends with
    | halted hc => exact hc

/-- Letters on lines of their own, separated by a mark and a line break, and a digit that is missing
behind the letter of the second line. -/
theorem places_kept_letters :
    (∃ j, 0 ≤ j ∧ j ≤ "a;\nb;c".toList.length ∧
      (sepBy letter (literal ";\n")).parse 9 "a;\nb;c".toList (.ofIndex "a;\nb;c".toList 0) =
        .success ['a', 'b'] "a;\nb;c".toList (.ofIndex "a;\nb;c".toList j)) ∧
    ∃ e k, 3 ≤ k ∧ k ≤ "a;\nb;c".toList.length ∧
      ((char 'b').seqRight digit).parse 9 "a;\nb;c".toList (.ofIndex "a;\nb;c".toList 3) =
        .failure e "a;\nb;c".toList (.ofIndex "a;\nb;c".toList 3) ∧
      e.position? = some (.ofIndex "a;\nb;c".toList k) ∧
      ∀ c, "a;\nb;c".toList[k]? = some c → e.actual = String.singleton c := by
  have letters : Composed (Primitive (· = ";\n")) (sepBy letter (literal ";\n")) :=
    .sepBy (.known (.satisfy _ _)) (.known (.literal rfl))
  have lettered : Composed (Primitive fun _ => False) ((char 'b').seqRight digit) :=
    .seqRight (.known (.satisfy _ _)) (.known (.satisfy _ _))
  have read : (sepBy letter (literal ";\n")).parse 9 "a;\nb;c".toList
      (.ofIndex "a;\nb;c".toList 0) = .success ['a', 'b'] "a;\nb;c".toList ⟨4, 2, 2⟩ := rfl
  have failed : ((char 'b').seqRight digit).parse 9 "a;\nb;c".toList
      (.ofIndex "a;\nb;c".toList 3) = .failure ⟨"0-9", ";", some ⟨4, 2, 2⟩⟩ "a;\nb;c".toList
        (.ofIndex "a;\nb;c".toList 3) := rfl
  constructor
  · obtain ⟨-, j, first, last, place⟩ :=
      (places_kept letters 9 "a;\nb;c".toList (Nat.zero_le _)).1 _ _ _ read
    exact ⟨j, first, last, by rw [read, place]⟩
  · obtain ⟨k, first, last, place, -, found⟩ :=
      (places_kept lettered 9 "a;\nb;c".toList (by decide)).2.1 _ _ _ failed
    exact ⟨_, k, first, last, failed, place, (found nofun).1⟩

end Parser

end Reckoner
