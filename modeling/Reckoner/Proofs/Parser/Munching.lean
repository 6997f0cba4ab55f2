import Mathlib.Computability.Language
import Reckoner.Proofs.Parser.Primitives

/-!
# Longest matches

A parser munches a language when it reads the longest text of the language that stands ahead, and
fails when none does. A sequence takes the longest first part it can get, so it may come to a longer
text, or to any at all, only by way of a shorter first part. It does not where the parts are
`Parted`: a second part never starts with a character of a first part, so that no first part can be
cut short to make room for it. A choice takes the first alternative that matches, which is the
longest match where the alternatives are `Apart`: they start with different characters.
-/

namespace Reckoner.Parser

/-! ## Longest texts of a language -/

/-- `s` is the longest text of the language that `ahead` starts with. -/
structure Longest (L : Language Char) (ahead s : List Char) : Prop where
  mem : s ∈ L
  front : s <+: ahead
  longest : ∀ t ∈ L, t <+: ahead → t <+: s

/-- `ahead` starts with no text of the language. -/
def Unmatched (L : Language Char) (ahead : List Char) : Prop :=
  ∀ t ∈ L, ¬ t <+: ahead

/-- No text of `M` starts with a character of a text of `L`. -/
def Parted (L M : Language Char) : Prop :=
  ∀ s ∈ L, ∀ t ∈ M, ∀ c ∈ s, t.head? ≠ some c

/-- Every text of `L` starts with a character that no text of `M` starts with. -/
def Apart (L M : Language Char) : Prop :=
  ∀ s ∈ L, ∃ c, s.head? = some c ∧ ∀ t ∈ M, t.head? ≠ some c

variable {L M : Language Char} {ahead rest a b s t : List Char}

theorem longest_one : Longest 1 ahead [] := by
  refine ⟨(Language.mem_one _).mpr rfl, List.nil_prefix, ?_⟩
  intro t ht _
  rw [(Language.mem_one t).mp ht]

/-- Two texts at the front of a third one that are not empty start with the same character. -/
theorem head_eq_of_front {c : Char} (hs : s <+: ahead) (ht : t <+: ahead)
    (head : s.head? = some c) (nonempty : t ≠ []) : t.head? = some c := by
  obtain ⟨d, t, rfl⟩ := List.exists_cons_of_ne_nil nonempty
  obtain ⟨u, rfl⟩ := hs
  cases s with
  | nil => cases head
  | cons e s =>
    rw [(List.cons_prefix_cons.mp ht).1]
    exact head

/-! ### One part after another -/

/-- A text in two parts has the longest first part, or no second part. -/
theorem Longest.cases_append (ha : Longest L (a ++ rest) a) (parted : Parted L M) (hs : s ∈ L)
    (ht : t ∈ M) (front : s ++ t <+: a ++ rest) :
    (s = a ∧ t <+: rest) ∨ (s <+: a ∧ t = []) := by
  obtain ⟨u, rfl⟩ := ha.longest s hs ((List.prefix_append s t).trans front)
  cases u with
  | nil =>
    rw [List.append_nil] at front ⊢
    exact .inl ⟨rfl, (List.prefix_append_right_inj s).mp front⟩
  | cons c u =>
    rw [List.append_assoc, List.prefix_append_right_inj] at front
    by_cases none : t = []
    · exact .inr ⟨List.prefix_append s _, none⟩
    · have head := head_eq_of_front (List.prefix_append (c :: u) rest) front rfl none
      exact absurd head (parted _ ha.mem t ht c (List.mem_append_right s List.mem_cons_self))

theorem Longest.mul (ha : Longest L (a ++ rest) a) (hb : Longest M rest b)
    (parted : Parted L M) : Longest (L * M) (a ++ rest) (a ++ b) := by
  refine ⟨Language.append_mem_mul ha.mem hb.mem, ?_, ?_⟩
  · exact (List.prefix_append_right_inj a).mpr hb.front
  · intro w hw front
    obtain ⟨s, hs, t, ht, rfl⟩ := Language.mem_mul.mp hw
    rcases ha.cases_append parted hs ht front with ⟨rfl, later⟩ | ⟨shorter, rfl⟩
    · exact (List.prefix_append_right_inj s).mpr (hb.longest t ht later)
    · rw [List.append_nil]
      exact shorter.trans (List.prefix_append a b)

theorem Longest.unmatched_mul (ha : Longest L (a ++ rest) a) (hb : Unmatched M rest)
    (parted : Parted L M) : Unmatched (L * M) (a ++ rest) := by
  intro w hw front
  obtain ⟨s, hs, t, ht, rfl⟩ := Language.mem_mul.mp hw
  rcases ha.cases_append parted hs ht front with ⟨rfl, later⟩ | ⟨-, rfl⟩
  · exact hb t ht later
  · exact hb [] ht List.nil_prefix

theorem Unmatched.mul (h : Unmatched L ahead) : Unmatched (L * M) ahead := by
  intro w hw front
  obtain ⟨s, hs, t, -, rfl⟩ := Language.mem_mul.mp hw
  exact h s hs ((List.prefix_append s t).trans front)

/-! ### One part or another -/

theorem Longest.add (h : Longest L ahead s) (apart : Apart L M) : Longest (L + M) ahead s := by
  refine ⟨(Language.mem_add ..).mpr (.inl h.mem), h.front, ?_⟩
  intro t ht front
  rcases (Language.mem_add ..).mp ht with ht | ht
  · exact h.longest t ht front
  · by_cases none : t = []
    · rw [none]
      exact List.nil_prefix
    · obtain ⟨c, head, other⟩ := apart s h.mem
      exact absurd (head_eq_of_front h.front front head none) (other t ht)

theorem Unmatched.longest_add (h : Unmatched L ahead) (hs : Longest M ahead s) :
    Longest (L + M) ahead s := by
  refine ⟨(Language.mem_add ..).mpr (.inr hs.mem), hs.front, ?_⟩
  intro t ht front
  rcases (Language.mem_add ..).mp ht with ht | ht
  · exact absurd front (h t ht)
  · exact hs.longest t ht front

theorem Unmatched.add (h : Unmatched L ahead) (h' : Unmatched M ahead) :
    Unmatched (L + M) ahead := by
  intro t ht
  rcases (Language.mem_add ..).mp ht with ht | ht
  · exact h t ht
  · exact h' t ht

/-! ### Languages by their characters -/

/-- The texts of the language are made of characters that `P` holds of. -/
def MadeOf (L : Language Char) (P : Char → Prop) : Prop :=
  ∀ s ∈ L, ∀ c ∈ s, P c

/-- The texts of the language start, if they are not empty, with a character that `P` holds of. -/
def StartsIn (L : Language Char) (P : Char → Prop) : Prop :=
  ∀ s ∈ L, ∀ c, s.head? = some c → P c

variable {P Q : Char → Prop}

theorem MadeOf.mono (h : MadeOf L P) (imp : ∀ c, P c → Q c) : MadeOf L Q :=
  fun s hs c hc => imp c (h s hs c hc)

theorem MadeOf.startsIn (h : MadeOf L P) : StartsIn L P :=
  fun s hs c head => h s hs c (List.mem_of_head? head)

theorem madeOf_one : MadeOf 1 P := by
  intro s hs c hc
  rw [(Language.mem_one s).mp hs] at hc
  cases hc

theorem MadeOf.add (h : MadeOf L P) (h' : MadeOf M P) : MadeOf (L + M) P := by
  intro s hs
  rcases (Language.mem_add ..).mp hs with hs | hs
  · exact h s hs
  · exact h' s hs

theorem MadeOf.mul (h : MadeOf L P) (h' : MadeOf M P) : MadeOf (L * M) P := by
  intro w hw c hc
  obtain ⟨s, hs, t, ht, rfl⟩ := Language.mem_mul.mp hw
  rcases List.mem_append.mp hc with hc | hc
  · exact h s hs c hc
  · exact h' t ht c hc

theorem StartsIn.add (h : StartsIn L P) (h' : StartsIn M P) : StartsIn (L + M) P := by
  intro s hs
  rcases (Language.mem_add ..).mp hs with hs | hs
  · exact h s hs
  · exact h' s hs

theorem StartsIn.mul (h : StartsIn L P) (nonempty : [] ∉ L) : StartsIn (L * M) P := by
  intro w hw c head
  obtain ⟨s, hs, t, ht, rfl⟩ := Language.mem_mul.mp hw
  cases s with
  | nil => exact absurd hs nonempty
  | cons d s => exact h (d :: s) hs c head

theorem nil_notMem_mul (h : [] ∉ L) : [] ∉ L * M := by
  intro mem
  obtain ⟨s, hs, t, -, split⟩ := Language.mem_mul.mp mem
  rw [(List.append_eq_nil_iff.mp split).1] at hs
  exact h hs

theorem nil_notMem_add (h : [] ∉ L) (h' : [] ∉ M) : [] ∉ L + M := by
  intro mem
  rcases (Language.mem_add ..).mp mem with mem | mem
  · exact h mem
  · exact h' mem

theorem MadeOf.parted (h : MadeOf L P) (h' : StartsIn M Q) (other : ∀ c, P c → ¬ Q c) :
    Parted L M :=
  fun s hs t ht c hc head => other c (h s hs c hc) (h' t ht c head)

theorem parted_one : Parted L 1 := by
  intro s _ t ht c _
  rw [(Language.mem_one t).mp ht]
  nofun

theorem StartsIn.apart (h : StartsIn L P) (nonempty : [] ∉ L) (h' : StartsIn M Q)
    (other : ∀ c, P c → ¬ Q c) : Apart L M := by
  intro s hs
  cases s with
  | nil => exact absurd hs nonempty
  | cons c s => exact ⟨c, rfl, fun t ht head => other c (h (c :: s) hs c rfl) (h' t ht c head)⟩

theorem apart_one (nonempty : [] ∉ L) : Apart L 1 := by
  intro s hs
  cases s with
  | nil => exact absurd hs nonempty
  | cons c s =>
    refine ⟨c, rfl, fun t ht => ?_⟩
    rw [(Language.mem_one t).mp ht]
    nofun

/-- The texts of one accepted character. -/
def oneOf (accepts : Char → Bool) : Language Char :=
  {s | ∃ c, s = [c] ∧ accepts c = true}

/-- The texts of accepted characters. -/
def manyOf (accepts : Char → Bool) : Language Char :=
  {s | ∀ c ∈ s, accepts c = true}

/-- The texts of accepted characters, with one at least. -/
def someOf (accepts : Char → Bool) : Language Char :=
  {s | s ≠ [] ∧ ∀ c ∈ s, accepts c = true}

variable {accepts : Char → Bool}

theorem madeOf_oneOf : MadeOf (oneOf accepts) (accepts · = true) := by
  rintro _ ⟨c, rfl, hc⟩ d hd
  rw [List.mem_singleton.mp hd]
  exact hc

theorem madeOf_manyOf : MadeOf (manyOf accepts) (accepts · = true) :=
  fun _ hs => hs

theorem madeOf_someOf : MadeOf (someOf accepts) (accepts · = true) :=
  fun _ hs => hs.2

theorem nil_notMem_oneOf : [] ∉ oneOf accepts := by
  rintro ⟨c, same, -⟩
  cases same

theorem nil_notMem_someOf : [] ∉ someOf accepts :=
  fun mem => mem.1 rfl

/-! ## Munching -/

variable {ε φ α β : Type}

/-- With fuel for every character ahead, `p` reads the longest text of `L` that is there, or fails
when there is none. -/
def Munches (p : Parser (List Char) Position ε α) (L : Language Char) : Prop :=
  ∀ n before ahead, ahead.length ≤ n →
    p.Answers n before ahead (fun s _ _ => Longest L ahead s) fun _ => Unmatched L ahead

variable {p : Parser (List Char) Position ε α}

theorem munches_pure (v : α) : (pure v : Parser (List Char) Position ε α).Munches 1 :=
  fun _ _ _ _ => answers_pure longest_one

theorem Munches.map (f : α → β) (h : p.Munches L) : (p.map f).Munches L :=
  fun n before ahead enough => (h n before ahead enough).map f

theorem Munches.bind {f : α → Parser (List Char) Position ε β} (h : p.Munches L)
    (hf : ∀ v, (f v).Munches M) (parted : Parted L M) : (p.bind f).Munches (L * M) := by
  intro n before ahead enough
  rcases h n before ahead enough with ⟨a, rest, v, rfl, reads, ha⟩ | ⟨e, misses, none⟩
  · have enough' : rest.length ≤ n := by
      rw [List.length_append] at enough
      omega
    rcases hf v n (before ++ a) rest enough' with ⟨b, rest, w, rfl, reads', hb⟩ | ⟨e, misses, none⟩
    · exact .inl ⟨a ++ b, rest, w, (List.append_assoc ..).symm, reads.bind reads',
        ha.mul hb parted⟩
    · exact .inr ⟨e, reads.bind_misses misses, ha.unmatched_mul none parted⟩
  · exact .inr ⟨e, misses.bind, none.mul⟩

theorem Munches.seqRight {q : Parser (List Char) Position ε β} (h : p.Munches L)
    (hq : q.Munches M) (parted : Parted L M) : (p.seqRight q).Munches (L * M) :=
  h.bind (fun _ => hq) parted

theorem Munches.seqLeft {q : Parser (List Char) Position ε β} (h : p.Munches L)
    (hq : q.Munches M) (parted : Parted L M) : (p.seqLeft q).Munches (L * M) :=
  h.bind (fun _ => hq.map _) parted

theorem Munches.orElse {q : Parser (List Char) Position φ α} (h : p.Munches L)
    (hq : q.Munches M) (apart : Apart L M) : (p.orElse q).Munches (L + M) := by
  intro n before ahead enough
  refine ((h n before ahead enough).mono (fun _ _ _ _ hs => hs.add apart) fun _ none => none).orElse
    fun _ none => ?_
  exact (hq n before ahead enough).mono (fun _ _ _ _ hs => none.longest_add hs)
    fun _ none' => none.add none'

theorem Munches.orDefault (v : α) (h : p.Munches L) (apart : Apart L 1) :
    (p.orDefault v).Munches (L + 1) :=
  h.orElse (munches_pure v) apart

/-! ### Characters -/

/-- Accepted characters do not reach beyond the first that is not accepted. -/
theorem prefix_of_stops (stops : ∀ c ∈ rest.head?, accepts c = false)
    (ht : ∀ c ∈ t, accepts c = true) (front : t <+: s ++ rest) : t <+: s := by
  rcases List.prefix_or_prefix_of_prefix front (List.prefix_append s rest) with shorter | ⟨u, rfl⟩
  · exact shorter
  · rw [List.prefix_append_right_inj] at front
    cases u with
    | nil => rw [List.append_nil]
    | cons c u =>
      obtain ⟨rest, rfl⟩ := front
      have accepted := ht c (List.mem_append_right s List.mem_cons_self)
      rw [stops c rfl] at accepted
      cases accepted

variable {q : Parser (List Char) Position ε Char}

theorem ReadsChar.munches (h : q.ReadsChar accepts) : q.Munches (oneOf accepts) := by
  intro n before ahead _
  cases ahead with
  | nil =>
    obtain ⟨e, misses⟩ : q.Fails n before [] := h.fails (by simp)
    refine .inr ⟨e, misses, ?_⟩
    rintro _ ⟨c, rfl, -⟩ front
    exact absurd (List.prefix_nil.mp front) (by simp)
  | cons c rest =>
    by_cases hc : accepts c = true
    · refine .inl ⟨[c], rest, c, rfl, h.reads hc, ⟨c, rfl, hc⟩, List.prefix_append [c] rest, ?_⟩
      rintro _ ⟨d, rfl, -⟩ front
      rw [(List.cons_prefix_cons.mp front).1]
    · obtain ⟨e, misses⟩ : q.Fails n before (c :: rest) := h.fails (by simpa using hc)
      refine .inr ⟨e, misses, ?_⟩
      rintro _ ⟨d, rfl, hd⟩ front
      rw [(List.cons_prefix_cons.mp front).1] at hd
      exact hc hd

theorem ReadsChar.munches_many (h : q.ReadsChar accepts) : q.many.Munches (manyOf accepts) := by
  intro n before ahead enough
  refine (h.answers_many enough).mono ?_ fun _ none => none
  rintro s rest _ rfl ⟨-, hs, stops⟩
  exact ⟨hs, List.prefix_append s rest, fun t ht front => prefix_of_stops stops ht front⟩

theorem ReadsChar.munches_many1 (h : q.ReadsChar accepts) : q.many1.Munches (someOf accepts) := by
  intro n before ahead enough
  refine (h.answers_many1 enough).mono ?_ fun _ stops => ?_
  · rintro s rest _ rfl ⟨-, some, hs, stops⟩
    exact ⟨⟨some, hs⟩, List.prefix_append s rest,
      fun t ht front => prefix_of_stops stops ht.2 front⟩
  · rintro t ⟨some, ht⟩ front
    have short : t <+: [] := prefix_of_stops stops ht front
    exact some (List.prefix_nil.mp short)

/-! ## Two descriptions of one run -/

theorem Reads.unique {n : Nat} {before piece rest piece' rest' : List Char} {v w : α}
    (split : piece ++ rest = piece' ++ rest') (h : p.Reads n before piece rest v)
    (h' : p.Reads n before piece' rest' w) : piece = piece' ∧ rest = rest' ∧ v = w := by
  rw [Reads, split, h'] at h
  obtain ⟨same, -, places⟩ := Reply.success.inj h
  have lengths := congrArg Position.index places
  rw [Position.index_start_after, Position.index_start_after, List.length_append,
    List.length_append] at lengths
  obtain ⟨pieces, rests⟩ := List.append_inj split (by omega)
  exact ⟨pieces, rests, same.symm⟩

theorem Reads.not_misses {n : Nat} {before piece rest : List Char} {v : α} {e : ε}
    (h : p.Reads n before piece rest v) : ¬ p.Misses n before (piece ++ rest) e := by
  intro misses
  rw [Reads, misses] at h
  cases h

theorem Answers.and {n : Nat} {before ahead : List Char}
    {good good' : List Char → List Char → α → Prop} {bad bad' : ε → Prop}
    (h : p.Answers n before ahead good bad) (h' : p.Answers n before ahead good' bad') :
    p.Answers n before ahead (fun s rest v => good s rest v ∧ good' s rest v)
      fun e => bad e ∧ bad' e := by
  rcases h with ⟨piece, rest, v, rfl, reads, hv⟩ | ⟨e, misses, he⟩
  · rcases h' with ⟨piece', rest', v', split, reads', hv'⟩ | ⟨e', misses', -⟩
    · obtain ⟨rfl, rfl, rfl⟩ := reads.unique split reads'
      exact .inl ⟨piece, rest, v, rfl, reads, hv, hv'⟩
    · exact absurd misses' reads.not_misses
  · rcases h' with ⟨piece', rest', v', rfl, reads', -⟩ | ⟨e', misses', he'⟩
    · exact absurd misses reads'.not_misses
    · rw [Misses, misses'] at misses
      obtain ⟨rfl, -, -⟩ := Reply.failure.inj misses
      exact .inr ⟨e', misses', he, he'⟩

end Reckoner.Parser
