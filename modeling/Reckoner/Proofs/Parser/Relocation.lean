import Reckoner.Proofs.Parser.Places
import Reckoner.Proofs.Parser.Sequences

/-!
# Runs behind more text

A run on a text can be compared with a run on the same text behind some `front`, started where the
front ends. `Moved` says that the second one is the first one moved: it succeeds, fails or halts
with it, with the same value, the same expectation and finding, and each place of the one is the
place of the same character in the other.

Not every parser is moved so. A parser can be told the place, by `position`, or be given contexts
and errors that a caller made. `Relocatable` are the parsers that read no place and set no context,
and whose own errors match between the two runs: an error that is made from none tells no place,
and one that is made from an error matches when that one does. What matches is a relation between
errors that may differ from type to type, so errors may be turned into something else and back.
-/

namespace Reckoner

variable {front text : List Char}

/-! ## Places, errors and replies that are moved -/

/-- `q` is a place of `text`, and `q'` the place of the same character behind `front`. -/
def Position.Moved (front text : List Char) (q q' : Position) : Prop :=
  ∃ i, i ≤ text.length ∧ q = .ofIndex text i ∧ q' = .ofIndex (front ++ text) (front.length + i)

namespace Position

variable {q q' r r' : Position}

theorem moved_after (front done ahead : List Char) :
    Moved front (done ++ ahead) (start.after done) (start.after (front ++ done)) := by
  refine ⟨done.length, ?_, (ofIndex_append done ahead).symm, ?_⟩
  · rw [List.length_append]
    exact Nat.le_add_right _ _
  · rw [← List.append_assoc, ← List.length_append, ofIndex_append]

theorem moved_behind (front done piece rest : List Char) :
    Moved front (done ++ (piece ++ rest)) (start.after (done ++ piece))
      (start.after (front ++ done ++ piece)) := by
  have next := moved_after front (done ++ piece) rest
  rw [List.append_assoc, ← List.append_assoc front] at next
  exact next

theorem moved_start : Moved front text start (start.after front) := by
  have first := moved_after front [] text
  rw [after_nil, List.append_nil] at first
  exact first

/-- A place stands between the text that is done and the text ahead. -/
theorem Moved.split (h : Moved front text q q') :
    ∃ done ahead, text = done ++ ahead ∧ q = start.after done ∧
      q' = start.after (front ++ done) := by
  obtain ⟨i, inside, rfl, rfl⟩ := h
  refine ⟨text.take i, text.drop i, (List.take_append_drop i text).symm, rfl, ?_⟩
  rw [ofIndex, List.take_length_add_append]

theorem Moved.index_eq (h : Moved front text q q') : q'.index = front.length + q.index := by
  obtain ⟨done, ahead, -, rfl, rfl⟩ := h.split
  rw [index_start_after, index_start_after, List.length_append, Int.natCast_add]

theorem Moved.index_nonneg (h : Moved front text q q') : 0 ≤ q.index := by
  obtain ⟨i, inside, rfl, -⟩ := h
  rw [index_ofIndex inside]
  exact Int.natCast_nonneg i

theorem Moved.eq_of_index_eq (h : Moved front text q q') (h' : Moved front text r r')
    (same : q.index = r.index) : q = r ∧ q' = r' := by
  obtain ⟨i, inside, rfl, rfl⟩ := h
  obtain ⟨j, inside', rfl, rfl⟩ := h'
  rw [index_ofIndex inside, index_ofIndex inside', Int.natCast_inj] at same
  rw [same]
  exact ⟨rfl, rfl⟩

/-- Different places stay different. -/
theorem Moved.eq_iff (h : Moved front text q q') (h' : Moved front text r r') :
    q = r ↔ q' = r' := by
  constructor
  · rintro rfl
    exact (h.eq_of_index_eq h' rfl).2
  · intro same
    refine (h.eq_of_index_eq h' ?_).1
    have indices := congrArg Position.index same
    rw [h.index_eq, h'.index_eq] at indices
    exact Int.add_left_cancel indices

end Position

/-- `e'` is `e` at the moved place, if `e` has a place. -/
structure TextError.Moved (front text : List Char) (e e' : TextError) : Prop where
  expected : e'.expected = e.expected
  actual : e'.actual = e.actual
  position? : Option.Rel (Position.Moved front text) e.position? e'.position?

namespace TextError

variable {d d' e e' : TextError}

theorem moved_of_unplaced (h : e.position? = none) : e.Moved front text e :=
  ⟨rfl, rfl, by rw [h]; exact .none⟩

theorem Moved.expecting (expected : String) (h : e.Moved front text e') :
    (e.expecting expected).Moved front text (e'.expecting expected) :=
  ⟨rfl, h.actual, h.position?⟩

theorem Moved.reach (h : e.Moved front text e') :
    (Reaching.reach e = -1 ∧ Reaching.reach e' = -1) ∨
      (0 ≤ Reaching.reach e ∧ Reaching.reach e' = front.length + Reaching.reach e) := by
  have places := h.position?
  simp only [Reaching.reach]
  generalize e.position? = place at places ⊢
  generalize e'.position? = place' at places ⊢
  cases places with
  | none => exact .inl ⟨rfl, rfl⟩
  | some place => exact .inr ⟨place.index_nonneg, place.index_eq⟩

theorem Moved.reach_lt_iff (hd : d.Moved front text d') (he : e.Moved front text e') :
    Reaching.reach d < Reaching.reach e ↔ Reaching.reach d' < Reaching.reach e' := by
  have reachedD := hd.reach
  have reachedE := he.reach
  omega

theorem Moved.further (hd : d.Moved front text d') (he : e.Moved front text e') :
    (Parser.further d e).Moved front text (Parser.further d' e') := by
  have same := hd.reach_lt_iff he
  simp only [Parser.further, Reaching.isNothing, Bool.false_or, decide_eq_true_eq]
  by_cases less : Reaching.reach d < Reaching.reach e
  · rw [if_pos less, if_pos (same.mp less)]
    exact he
  · rw [if_neg less, if_neg fun less' => less (same.mpr less')]
    exact hd

end TextError

variable {ε φ α α' β β' : Type}

/-- The second reply, to a run on `text` behind `front`, is the first one, to a run on `text`, with
its places moved. -/
inductive Reply.Moved (front text : List Char) (V : α → α' → Prop) (E : ε → ε → Prop) :
    Reply (List Char) Position ε α → Reply (List Char) Position ε α' → Prop
  | success {v : α} {v' : α'} {q q' : Position} : V v v' → q.Moved front text q' →
      Moved front text V E (.success v text q) (.success v' (front ++ text) q')
  | failure {e e' : ε} {q q' : Position} : E e e' → q.Moved front text q' →
      Moved front text V E (.failure e text q) (.failure e' (front ++ text) q')
  | halted (cause : Halt) : Moved front text V E (.halted cause) (.halted cause)

theorem Reply.Moved.map {V : α → α' → Prop} {W : β → β' → Prop} {E : ε → ε → Prop}
    {r : Reply (List Char) Position ε α} {r' : Reply (List Char) Position ε α'} {f : α → β}
    {f' : α' → β'} (h : r.Moved front text V E r') (hf : ∀ v v', V v v' → W (f v) (f' v')) :
    (r.map f).Moved front text W E (r'.map f') := by
  cases h with
  | success hv hq => exact .success (hf _ _ hv) hq
  | failure he hq => exact .failure he hq
  | halted cause => exact .halted cause

namespace Parser

open TextParser

/-- Runs of `p'` behind `front` answer what runs of `p` on `text` alone answer, moved. -/
def Moved (front text : List Char) (n : Nat) (V : α → α' → Prop) (E : ε → ε → Prop)
    (p : Parser (List Char) Position ε α) (p' : Parser (List Char) Position ε α') : Prop :=
  ∀ q q', q.Moved front text q' →
    (p.parse n text q).Moved front text V E (p'.parse n (front ++ text) q')

/-! ## Combinators -/

section Combinators

variable {n : Nat} {V : α → α' → Prop} {W : β → β' → Prop} {E : ε → ε → Prop} {F : φ → φ → Prop}
  {p : Parser (List Char) Position ε α} {p' : Parser (List Char) Position ε α'}

theorem moved_pure {v : α} {v' : α'} (h : V v v') :
    (pure v : Parser (List Char) Position ε α).Moved front text n V E (pure v') :=
  fun _ _ hq => .success h hq

theorem moved_fail {e : ε} (h : E e e) :
    (fail e : Parser (List Char) Position ε α).Moved front text n V E
      (fail e : Parser (List Char) Position ε α') :=
  fun _ _ hq => .failure h hq

theorem Moved.map {f : α → β} {f' : α' → β'} (h : p.Moved front text n V E p')
    (hf : ∀ v v', V v v' → W (f v) (f' v')) :
    (p.map f).Moved front text n W E (p'.map f') :=
  fun q q' hq => (h q q' hq).map hf

theorem Moved.bind {f : α → Parser (List Char) Position ε β}
    {f' : α' → Parser (List Char) Position ε β'} (h : p.Moved front text n V E p')
    (hf : ∀ v v', V v v' → (f v).Moved front text n W E (f' v')) :
    (p.bind f).Moved front text n W E (p'.bind f') := by
  intro q q' hq
  have run := h q q' hq
  simp only [Parser.bind]
  generalize p.parse n text q = reply at run ⊢
  generalize p'.parse n (front ++ text) q' = reply' at run ⊢
  cases run with
  | @success v v' k k' hv hk =>
    have later := hf v v' hv k k' hk
    dsimp only
    generalize (f v).parse n text k = reply at later ⊢
    generalize (f' v').parse n (front ++ text) k' = reply' at later ⊢
    cases later with
    | success hw hk => exact .success hw hk
    | failure he _ => exact .failure he hq
    | halted cause => exact .halted cause
  | failure he _ => exact .failure he hq
  | halted cause => exact .halted cause

theorem Moved.orElse {r : Parser (List Char) Position φ α} {r' : Parser (List Char) Position φ α'}
    (h : p.Moved front text n V E p') (hr : r.Moved front text n V F r') :
    (p.orElse r).Moved front text n V F (p'.orElse r') := by
  intro q q' hq
  have run := h q q' hq
  simp only [Parser.orElse]
  generalize p.parse n text q = reply at run ⊢
  generalize p'.parse n (front ++ text) q' = reply' at run ⊢
  cases run with
  | success hv hk => exact .success hv hk
  | failure _ _ => exact hr q q' hq
  | halted cause => exact .halted cause

theorem Moved.mapError {f f' : ε → φ} (h : p.Moved front text n V E p')
    (hf : ∀ e e', E e e' → F (f e) (f' e')) :
    (p.mapError f).Moved front text n V F (p'.mapError f') := by
  intro q q' hq
  have run := h q q' hq
  simp only [Parser.mapError]
  generalize p.parse n text q = reply at run ⊢
  generalize p'.parse n (front ++ text) q' = reply' at run ⊢
  cases run with
  | success hv hk => exact .success hv hk
  | failure he hk => exact .failure (hf _ _ he) hk
  | halted cause => exact .halted cause

theorem Moved.tryFarthest [Reaching ε] {ps : List (Parser (List Char) Position ε α)}
    (hE : ∀ d d' e e', E d d' → E e e' → E (further d e) (further d' e'))
    (hs : ∀ p ∈ ps, p.Moved front text n Eq E p) {q q' : Position} (hq : q.Moved front text q')
    {worst worst' : ε} (hw : E worst worst') :
    (tryFarthest n text q worst ps).Moved front text Eq E
      (tryFarthest n (front ++ text) q' worst' ps) := by
  induction ps generalizing worst worst' with
  | nil => exact .failure hw hq
  | cons p ps ih =>
    obtain ⟨hp, hs⟩ := List.forall_mem_cons.mp hs
    have run := hp q q' hq
    unfold Parser.tryFarthest
    generalize p.parse n text q = reply at run ⊢
    generalize p.parse n (front ++ text) q' = reply' at run ⊢
    cases run with
    | success hv hk => exact .success hv hk
    | failure he _ => exact ih hs (hE _ _ _ _ hw he)
    | halted cause => exact .halted cause

variable {p : Parser (List Char) Position ε α}

theorem Moved.filter {accepts : α → Bool} {error : α → ε} (h : p.Moved front text n Eq E p)
    (hE : ∀ v, accepts v = false → E (error v) (error v)) :
    (p.filter accepts error).Moved front text n Eq E (p.filter accepts error) := by
  intro q q' hq
  have run := h q q' hq
  simp only [Parser.filter]
  generalize p.parse n text q = reply at run ⊢
  generalize p.parse n (front ++ text) q' = reply' at run ⊢
  cases run with
  | @success v _ _ _ hv hk =>
    cases hv
    dsimp only
    cases accepted : accepts v with
    | true => exact .success rfl hk
    | false => exact .failure (hE v accepted) hq
  | failure he _ => exact .failure he hq
  | halted cause => exact .halted cause

theorem Moved.farthestOf [Reaching ε] {ps : List (Parser (List Char) Position ε α)}
    (hE : ∀ d d' e e', E d d' → E e e' → E (further d e) (further d' e'))
    (h : p.Moved front text n Eq E p) (hs : ∀ p ∈ ps, p.Moved front text n Eq E p) :
    (farthestOf p ps).Moved front text n Eq E (farthestOf p ps) := by
  intro q q' hq
  have run := h q q' hq
  simp only [Parser.farthestOf]
  generalize p.parse n text q = reply at run ⊢
  generalize p.parse n (front ++ text) q' = reply' at run ⊢
  cases run with
  | success hv hk => exact .success hv hk
  | failure he _ => exact Moved.tryFarthest hE hs hq he
  | halted cause => exact .halted cause

theorem Moved.repeated (h : p.Moved front text n Eq E p) (turns : Nat) {q q' : Position}
    (hq : q.Moved front text q') :
    (p.repeated n turns text q).Moved front text Eq E (p.repeated n turns (front ++ text) q') := by
  induction turns generalizing q q' with
  | zero => exact .halted .outOfFuel
  | succ turns ih =>
    have run := h q q' hq
    unfold Parser.repeated
    generalize p.parse n text q = reply at run ⊢
    generalize p.parse n (front ++ text) q' = reply' at run ⊢
    cases run with
    | success hv hk =>
      cases hv
      exact (ih hk).map fun _ _ same => congrArg _ same
    | failure _ _ => exact .success rfl hq
    | halted cause => exact .halted cause

theorem Moved.many1 (h : p.Moved front text n Eq E p) :
    p.many1.Moved front text n Eq E p.many1 := by
  intro q q' hq
  have run := h q q' hq
  simp only [Parser.many1]
  generalize p.parse n text q = reply at run ⊢
  generalize p.parse n (front ++ text) q' = reply' at run ⊢
  cases run with
  | success hv hk =>
    cases hv
    exact (h.repeated n hk).map fun _ _ same => congrArg _ same
  | failure he _ => exact .failure he hq
  | halted cause => exact .halted cause

end Combinators

/-! ## Primitives -/

section Primitives

variable {n : Nat}

/-- It is enough to look at runs between the text that is done and the text ahead. -/
theorem moved_of_split {V : α → α' → Prop} {E : ε → ε → Prop}
    {p : Parser (List Char) Position ε α} {p' : Parser (List Char) Position ε α'}
    (h : ∀ done ahead, text = done ++ ahead →
      (p.parse n (done ++ ahead) (Position.start.after done)).Moved front text V E
        (p'.parse n (front ++ done ++ ahead) (Position.start.after (front ++ done)))) :
    p.Moved front text n V E p' := by
  intro q q' hq
  obtain ⟨done, ahead, rfl, rfl, rfl⟩ := hq.split
  rw [← List.append_assoc]
  exact h done ahead rfl

theorem moved_errorAt (expected : String) (found? : Option Char) {q q' : Position}
    (hq : q.Moved front text q') :
    (errorAt expected q found?).Moved front text (errorAt expected q' found?) :=
  ⟨rfl, rfl, .some hq⟩

/-- What an error is moved to is told by its place. -/
theorem eq_errorAt_of_moved {expected : String} {found? : Option Char} {q q' : Position}
    {e : TextError} (h : (errorAt expected q found?).Moved front text e)
    (hq : q.Moved front text q') : e = errorAt expected q' found? := by
  obtain ⟨sameExpected, sameActual, places⟩ := h
  obtain ⟨expected', actual', place?⟩ := e
  cases places with
  | @some _ k hk =>
    obtain rfl : k = q' := (hk.eq_iff hq).mp rfl
    cases sameExpected
    cases sameActual
    rfl

theorem moved_satisfy (accepts : Char → Bool) (expected : String) :
    (satisfy accepts expected).Moved front text n Eq (TextError.Moved front text)
      (satisfy accepts expected) := by
  refine moved_of_split fun done ahead split => ?_
  subst split
  have here := Position.moved_after front done ahead
  rw [satisfy, parse_ofLook, parse_ofLook, List.append_assoc]
  cases ahead with
  | nil => exact .failure (moved_errorAt expected none here) here
  | cons c rest =>
    by_cases hc : accepts c = true
    · simp only [List.head?_cons, hc, if_true, Position.after_append]
      exact .success rfl (Position.moved_behind front done [c] rest)
    · simp only [List.head?_cons, hc]
      exact .failure (moved_errorAt expected (some c) here) here

theorem moved_unfindable (cause : Fault) :
    (unfindable cause).Moved front text n Eq (TextError.Moved front text) (unfindable cause) := by
  refine moved_of_split fun done ahead _ => ?_
  simp only [unfindable, isBefore_after]
  exact .halted _

theorem moved_codePoint (c : Int) :
    (codePoint c).Moved front text n Eq (TextError.Moved front text) (codePoint c) := by
  unfold codePoint
  split
  · exact moved_unfindable _
  · split
    · exact moved_unfindable _
    · exact moved_satisfy _ _

theorem moved_literal (pattern : String) :
    (literal pattern).Moved front text n Eq (TextError.Moved front text) (literal pattern) := by
  refine moved_of_split fun done ahead split => ?_
  subst split
  have here := Position.moved_after front done ahead
  by_cases found : pattern.toList <+: ahead
  · obtain ⟨rest, rfl⟩ := found
    have reads (before : List Char) :
        (literal pattern).Reads n before pattern.toList rest pattern := reads_literal pattern
    rw [reads, reads, List.append_assoc]
    exact .success rfl (Position.moved_behind front done pattern.toList rest)
  · have differs : pattern.toList.isPrefixOf ahead = false := by
      rw [← Bool.not_eq_true, List.isPrefixOf_iff_prefix]
      exact found
    simp only [literal, ofStep, hasAt_after, differs, Bool.false_eq_true, if_false, between_after]
    rw [List.append_assoc]
    exact .failure ⟨rfl, rfl, .some here⟩ here

theorem moved_endOfText :
    endOfText.Moved front text n Eq (TextError.Moved front text) endOfText := by
  refine moved_of_split fun done ahead split => ?_
  subst split
  have here := Position.moved_after front done ahead
  rw [endOfText, parse_ofLook, parse_ofLook, List.append_assoc]
  cases ahead with
  | nil => exact .success rfl here
  | cons c rest => exact .failure (moved_errorAt TextError.endMark (some c) here) here

/-- The place itself is moved. -/
theorem moved_position {E : TextError → TextError → Prop} :
    position.Moved front text n (Position.Moved front text) E position :=
  fun _ _ hq => .success hq hq

end Primitives

/-! ## Relocatable parsers -/

/-- When an error of a run on a text matches an error of a run behind more text: for the text in
front, the text itself and the two errors. -/
abbrev Matching (ε : Type) := List Char → List Char → ε → ε → Prop

/-- Errors match as soon as those they are chosen from do. -/
def Matching.Ranked [Reaching ε] (E : Matching ε) : Prop :=
  ∀ front text d d' e e', E front text d d' → E front text e e' →
    E front text (further d e) (further d' e')

theorem ranked_moved : Matching.Ranked TextError.Moved :=
  fun _ _ _ _ _ _ hd he => hd.further he

/-- Some parsers of texts, with what matches among their errors. -/
abbrev KnownMatching := ∀ ε α : Type, Matching ε → Parser (List Char) Position ε α → Prop

/-- The parsers that are known, and those of some rules. -/
inductive KnownMatching.With (known : KnownMatching) {R : Type} {ε α : R → Type}
    (E : ∀ r, Matching (ε r)) (rules : ∀ r, Parser (List Char) Position (ε r) (α r)) : KnownMatching
  | known {ε α : Type} {E' : Matching ε} {p : Parser (List Char) Position ε α} :
      known ε α E' p → With known E rules ε α E' p
  | rule (r : R) : With known E rules (ε r) (α r) (E r) (rules r)

/-- The parsers that are built of the primitives that tell no place, and of known ones, by
combinators that set no context. Errors that are made from none match themselves, and errors that
are made from matching ones match. The other combinators are made of these. -/
inductive Relocatable :
    KnownMatching → ∀ {ε α : Type}, Matching ε → Parser (List Char) Position ε α → Prop
  | known {known : KnownMatching} {ε α : Type} {E : Matching ε}
      {p : Parser (List Char) Position ε α} : known ε α E p → Relocatable known E p
  | satisfy {known : KnownMatching} (accepts : Char → Bool) (expected : String) :
      Relocatable known TextError.Moved (satisfy accepts expected)
  | codePoint {known : KnownMatching} (c : Int) : Relocatable known TextError.Moved (codePoint c)
  | literal {known : KnownMatching} (pattern : String) :
      Relocatable known TextError.Moved (literal pattern)
  | endOfText {known : KnownMatching} : Relocatable known TextError.Moved endOfText
  | pure {known : KnownMatching} {ε α : Type} {E : Matching ε} (v : α) :
      Relocatable known E (.pure v : Parser _ _ ε α)
  | fail {known : KnownMatching} {ε α : Type} {E : Matching ε} {e : ε} :
      (∀ front text, E front text e e) → Relocatable known E (.fail e : Parser _ _ ε α)
  | map {known : KnownMatching} {ε α β : Type} {E : Matching ε}
      {p : Parser (List Char) Position ε α} (f : α → β) :
      Relocatable known E p → Relocatable known E (p.map f)
  | bind {known : KnownMatching} {ε α β : Type} {E : Matching ε}
      {p : Parser (List Char) Position ε α} {f : α → Parser (List Char) Position ε β} :
      Relocatable known E p → (∀ v, Relocatable known E (f v)) → Relocatable known E (p.bind f)
  | orElse {known : KnownMatching} {ε φ α : Type} {E : Matching ε} {F : Matching φ}
      {p : Parser (List Char) Position ε α} {q : Parser (List Char) Position φ α} :
      Relocatable known E p → Relocatable known F q → Relocatable known F (p.orElse q)
  | mapError {known : KnownMatching} {ε φ α : Type} {E : Matching ε} {F : Matching φ}
      {p : Parser (List Char) Position ε α} {f : ε → φ} :
      (∀ front text e e', E front text e e' → F front text (f e) (f e')) →
      Relocatable known E p → Relocatable known F (p.mapError f)
  | filter {known : KnownMatching} {ε α : Type} {E : Matching ε}
      {p : Parser (List Char) Position ε α} {accepts : α → Bool} {error : α → ε} :
      (∀ v, accepts v = false → ∀ front text, E front text (error v) (error v)) →
      Relocatable known E p → Relocatable known E (p.filter accepts error)
  | farthestOf {known : KnownMatching} {ε α : Type} {E : Matching ε} [Reaching ε]
      {p : Parser (List Char) Position ε α} {others : List (Parser (List Char) Position ε α)} :
      E.Ranked → Relocatable known E p → (∀ q ∈ others, Relocatable known E q) →
      Relocatable known E (farthestOf p others)
  | many1 {known : KnownMatching} {ε α : Type} {E : Matching ε}
      {p : Parser (List Char) Position ε α} :
      Relocatable known E p → Relocatable known E p.many1
  | defer {known : KnownMatching} {ε α : Type} {E : Matching ε}
      {provider : Unit → Parser (List Char) Position ε α} :
      Relocatable known E (provider ()) → Relocatable known E (defer provider)
  | rules {known : KnownMatching} {R : Type} {ε α : R → Type} {E : ∀ r, Matching (ε r)}
      (start? : R → Option (Unit → Except Fault Position))
      {bodies : (∀ r, Parser (List Char) Position (ε r) (α r)) →
        ∀ r, Parser (List Char) Position (ε r) (α r)} :
      (∀ rules r, Relocatable (known.With E rules) (E r) (bodies rules r)) →
      ∀ r, Relocatable known (E r) (fixRules start? bodies r)

namespace Relocatable

variable {known : KnownMatching} {E : Matching ε} {p : Parser (List Char) Position ε α}
  {q : Parser (List Char) Position ε β}

theorem seqRight (h : Relocatable known E p) (hq : Relocatable known E q) :
    Relocatable known E (p.seqRight q) :=
  .bind h fun _ => hq

theorem seqLeft (h : Relocatable known E p) (hq : Relocatable known E q) :
    Relocatable known E (p.seqLeft q) :=
  .bind h fun _ => .map _ hq

theorem both (h : Relocatable known E p) (hq : Relocatable known E q) :
    Relocatable known E (p.both q) :=
  .bind h fun _ => .map _ hq

theorem transform {F : Matching φ}
    (f : Parser (List Char) Position ε α → Parser (List Char) Position φ β)
    (h : Relocatable known F (f p)) : Relocatable known F (p.transform f) :=
  h

theorem orDefault (v : α) (h : Relocatable known E p) : Relocatable known E (p.orDefault v) :=
  .orElse h (.pure v)

theorem many (h : Relocatable known E p) : Relocatable known E p.many :=
  .orElse (.many1 h) (.pure [])

theorem sepBy (h : Relocatable known E p) (hq : Relocatable known E q) :
    Relocatable known E (sepBy p q) :=
  .orElse (.bind h fun _ => .map _ (hq.seqRight h).many) (.pure [])

theorem sequence {ps : List (Parser (List Char) Position ε α)}
    (h : ∀ p ∈ ps, Relocatable known E p) : Relocatable known E (sequence ps) := by
  induction ps with
  | nil => exact .pure []
  | cons p ps ih =>
    obtain ⟨hp, hs⟩ := List.forall_mem_cons.mp h
    cases ps with
    | nil => exact .map _ hp
    | cons q ps =>
      rw [sequence_cons_cons]
      exact .bind hp fun _ => .map _ (ih hs)

theorem firstOf {others : List (Parser (List Char) Position ε α)} (h : Relocatable known E p)
    (hs : ∀ q ∈ others, Relocatable known E q) : Relocatable known E (firstOf p others) := by
  induction others generalizing p with
  | nil => exact h
  | cons q others ih =>
    obtain ⟨hq, hs⟩ := List.forall_mem_cons.mp hs
    exact ih (.orElse h hq) hs

theorem char (c : Char) : Relocatable known TextError.Moved (char c) :=
  .satisfy _ _

theorem digit : Relocatable known TextError.Moved digit :=
  .satisfy _ _

theorem letter [Alphabet] : Relocatable known TextError.Moved letter :=
  .satisfy _ _

theorem expecting {p : TextParser α} (expected : String)
    (h : Relocatable known TextError.Moved p) :
    Relocatable known TextError.Moved (p.mapError (.expecting expected)) :=
  .mapError (fun _ _ _ _ he => he.expecting expected) h

theorem alphanumeric [Alphabet] : Relocatable known TextError.Moved alphanumeric :=
  .expecting _ (.orElse letter digit)

theorem spaces : Relocatable known TextError.Moved spaces :=
  .many (char ' ')

theorem fix (start? : Option (Unit → Except Fault Position))
    {body : Parser (List Char) Position ε α → Parser (List Char) Position ε α}
    (h : ∀ q, Relocatable (known.With (fun _ : Unit => E) fun _ => q) E (body q)) :
    Relocatable known E (Parser.fix start? body) := by
  rw [fix_eq_fixRules]
  exact .rules (R := Unit) (E := fun _ => E) _ (fun rules _ => h (rules ())) ()

end Relocatable

/-! ## Relocatable parsers are moved -/

/-- Behind any text the runs of a parser answer what they answer without it, moved. -/
def Relocates (E : Matching ε) (p : Parser (List Char) Position ε α) : Prop :=
  ∀ front text n, p.Moved front text n Eq (E front text) p

/-- The rules are moved at every depth of their unfolding, when their bodies are as soon as the
rules that they refer to are. -/
theorem relocates_unfoldedRules {R : Type} {ε α : R → Type} {E : ∀ r, Matching (ε r)}
    (start? : R → Option (Unit → Except Fault Position))
    {bodies : (∀ r, Parser (List Char) Position (ε r) (α r)) →
      ∀ r, Parser (List Char) Position (ε r) (α r)}
    (h : ∀ rules, (∀ r, Relocates (E r) (rules r)) → ∀ r, Relocates (E r) (bodies rules r))
    (depth : Nat) :
    ∀ r, Relocates (E r) ⟨start? r, fun m => unfoldedRules start? bodies depth r m⟩ := by
  induction depth with
  | zero => exact fun _ _ _ _ _ _ _ => .halted .outOfFuel
  | succ depth ih => exact h _ ih

theorem relocates_fix {E : Matching ε} (start? : Option (Unit → Except Fault Position))
    {body : Parser (List Char) Position ε α → Parser (List Char) Position ε α}
    (h : ∀ q, Relocates E q → Relocates E (body q)) : Relocates E (fix start? body) := by
  rw [fix_eq_fixRules]
  have unfolded (depth : Nat) (r : Unit) : Relocates E
      ⟨start?, fun m => unfoldedRules (fun _ => start?) (fun q _ => body (q ())) depth r m⟩ :=
    relocates_unfoldedRules (R := Unit) (E := fun _ => E) (fun _ => start?)
      (fun rules hr _ => h (rules ()) (hr ())) depth r
  exact fun front text n => unfolded n () front text n

/-- What is built of parsers that are moved is moved. -/
theorem Relocatable.relocates {known : KnownMatching} {E : Matching ε}
    {p : Parser (List Char) Position ε α} (h : Relocatable known E p)
    (hk : ∀ ε α E p, known ε α E p → Relocates E p) : Relocates E p := by
  induction h with
  | known h => exact hk _ _ _ _ h
  | satisfy accepts expected => exact fun _ _ _ => moved_satisfy accepts expected
  | codePoint c => exact fun _ _ _ => moved_codePoint c
  | literal pattern => exact fun _ _ _ => moved_literal pattern
  | endOfText => exact fun _ _ _ => moved_endOfText
  | pure v => exact fun _ _ _ => moved_pure rfl
  | fail he => exact fun front text _ => moved_fail (he front text)
  | map f _ ih =>
    exact fun front text n => (ih hk front text n).map fun _ _ same => congrArg f same
  | bind _ _ ih ihf =>
    intro front text n
    refine (ih hk front text n).bind ?_
    rintro v _ rfl
    exact ihf v hk front text n
  | orElse _ _ ih ihq =>
    exact fun front text n => (ih hk front text n).orElse (ihq hk front text n)
  | mapError hf _ ih =>
    exact fun front text n => (ih hk front text n).mapError (hf front text)
  | filter hE _ ih =>
    exact fun front text n => (ih hk front text n).filter fun v hv => hE v hv front text
  | farthestOf ranked _ _ ih ihs =>
    exact fun front text n => (ih hk front text n).farthestOf (ranked front text)
      fun q hq => ihs q hq hk front text n
  | many1 _ ih => exact fun front text n => (ih hk front text n).many1
  | defer _ ih => exact ih hk
  | rules start? _ r ih =>
    -- inside the bodies the rules are known parsers, one level deeper
    refine fun front text n =>
      relocates_unfoldedRules start? (fun rules hr r => ih rules r ?_) n r front text n
    intro ε α E p hp
    cases hp with
    | known hp => exact hk ε α E p hp
    | rule r => exact hr r

end Parser

end Reckoner
