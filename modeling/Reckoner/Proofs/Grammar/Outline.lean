import Reckoner.Proofs.Grammar.LongestNumber
import Reckoner.Proofs.Grammar.RoundTrip
import Reckoner.Proofs.Text.Lines
import Reckoner.Text.Letter

/-!
# Outlines tell expressions apart

A node has a line of its own in an outline, its heading, and the nodes right below it follow one
step further in. A heading says of which kind the node is and what it holds; a number is held by a
text that only equal numbers have. How many nodes are right below another one is told by the indents
alone: the lines of a subtree end where a line is no further in than the first of them. So two
expressions that are read have the same outline exactly when they are the same.
-/

namespace Reckoner

open Reckoner.Grammar

/-- Numbers are written alike exactly when they are equal. -/
theorem numeralText_eq_iff {x y : Float} (hx : x.isNaN = false) (hy : y.isNaN = false) :
    numeralText x = numeralText y ↔ (x == y) = true := by
  rw [← unsignedZero_eq_iff hx hy]
  constructor
  · intro same
    have first := number_numeralText hx
    rw [same] at first
    exact first.unique (number_numeralText hy)
  · intro same
    rw [← numeralText_unsignedZero, same, numeralText_unsignedZero]

namespace Expr

/-! ## Nodes -/

/-- The line of a node, without its indent. -/
def heading : Expr → String
  | number x => "Number(" ++ numeralText x ++ ")"
  | var name => "Variable(" ++ name ++ ")"
  | external _ => "ExternalRef"
  | call name _ => "Call(" ++ name ++ ")"
  | binary symbol _ _ _ => "Operator(" ++ symbol ++ ")"
  | foreign _ => ""

/-- The expressions right below a node. -/
def parts : Expr → List Expr
  | external index => [index]
  | call _ args => args
  | binary _ a b _ => [a, b]
  | number _ | var _ | foreign _ => []

section Forests

variable {P : List Expr → Prop}

mutual
/-- What holds of no expressions, and of the listed ones when it holds of the parts of the first and
of the others, holds of all lists of expressions. -/
theorem forest_induction (nil : P []) (cons : ∀ a as, P a.parts → P as → P (a :: as)) :
    ∀ as : List Expr, P as
  | [] => nil
  | a :: as => cons a as (forest_parts nil cons a) (forest_induction nil cons as)

/-- The same of the parts of a node. -/
theorem forest_parts (nil : P []) (cons : ∀ a as, P a.parts → P as → P (a :: as)) :
    ∀ e : Expr, P e.parts
  | external index => cons index [] (forest_parts nil cons index) nil
  | call _ args => forest_induction nil cons args
  | binary _ a b _ =>
    cons a [b] (forest_parts nil cons a) (cons b [] (forest_parts nil cons b) nil)
  | number _ | var _ | foreign _ => nil
end

end Forests

variable {a b e : Expr} {as bs : List Expr} {n : Int} {rest rest' : List String}

theorem oneLine_outlineLine {text : String} (h : OneLine text) (n : Int) :
    OneLine (outlineLine n text) := by
  refine OneLine.append ?_ h
  rw [OneLine, String.toList_ofList, List.mem_replicate]
  exact fun blank => absurd blank.2 (by decide)

section

variable [Alphabet]

/-- An outline is the line of the node and the outlines of its parts, one step further in. -/
theorem outline_eq (h : e.Printable) (n : Int) :
    e.outline n = outlineLine n e.heading :: outlines (n + 1) e.parts := by
  cases e with
  | number _ | var _ | call _ _ => rfl
  | external index => simp [outline, outlines, parts, heading]
  | binary s a b g =>
    simp only [outline, outlines, parts, List.append_nil]
    rfl
  | foreign _ => exact h.elim

theorem outlines_cons (h : a.Printable) (n : Int) (as : List Expr) :
    outlines n (a :: as) =
      outlineLine n a.heading :: (outlines (n + 1) a.parts ++ outlines n as) := by
  rw [outlines, outline_eq h, List.cons_append]

theorem allPrintable_parts (h : e.Printable) : AllPrintable e.parts := by
  cases e with
  | number _ | var _ | foreign _ => trivial
  | external index => exact ⟨h, trivial⟩
  | call _ args => exact h.2
  | binary _ a b _ => exact ⟨h.2.1, h.2.2, trivial⟩

/-! ## Headings -/

/-- The kinds of nodes that an expression with a source has. -/
def kinds : List String :=
  ["Number", "Variable", "ExternalRef", "Call", "Operator"]

theorem kind_mem (h : e.Printable) : e.kind ∈ kinds := by
  cases e with
  | foreign _ => exact h.elim
  | number _ | var _ | external _ | call _ _ | binary _ _ _ _ => simp [kind, kinds]

theorem head_heading (h : e.Printable) : e.heading.toList.head? = e.kind.toList.head? := by
  cases e with
  | foreign _ => exact h.elim
  | number _ | var _ | external _ | call _ _ | binary _ _ _ _ => simp [heading, kind]

/-- A heading tells the kind of its node, by its first character. -/
theorem kind_eq_of_heading (ha : a.Printable) (hb : b.Printable) (h : a.heading = b.heading) :
    a.kind = b.kind := by
  have heads : a.kind.toList.head? = b.kind.toList.head? := by
    rw [← head_heading ha, ← head_heading hb, h]
  have apart : ∀ k ∈ kinds, ∀ l ∈ kinds, k.toList.head? = l.toList.head? → k = l := by decide
  exact apart _ (kind_mem ha) _ (kind_mem hb) heads

theorem kind_eq_of_same (h : a.same b = true) (ha : a.Printable) : a.kind = b.kind := by
  cases a with
  | foreign _ => exact ha.elim
  | number _ | var _ | external _ | call _ _ | binary _ _ _ _ =>
    cases b <;> first | rfl | cases h

/-- Nodes are the same when they have the same line and the same parts. -/
theorem same_iff (ha : a.Printable) (hb : b.Printable) :
    a.same b = true ↔ a.heading = b.heading ∧ sameAll a.parts b.parts = true := by
  by_cases alike : a.kind = b.kind
  · cases a with
    | number x =>
      cases b with
      | number y => simp [same, heading, parts, sameAll, numeralText_eq_iff ha hb]
      | foreign _ => exact hb.elim
      | _ => exact absurd alike (by simp [kind])
    | var _ =>
      cases b with
      | var _ => simp [same, heading, parts, sameAll]
      | foreign _ => exact hb.elim
      | _ => exact absurd alike (by simp [kind])
    | external _ =>
      cases b with
      | external _ => simp [same, heading, parts, sameAll]
      | foreign _ => exact hb.elim
      | _ => exact absurd alike (by simp [kind])
    | call _ _ =>
      cases b with
      | call _ _ => simp [same, heading, parts]
      | foreign _ => exact hb.elim
      | _ => exact absurd alike (by simp [kind])
    | binary _ _ _ _ =>
      cases b with
      | binary _ _ _ _ => simp [same, heading, parts, sameAll, and_assoc]
      | foreign _ => exact hb.elim
      | _ => exact absurd alike (by simp [kind])
    | foreign _ => exact ha.elim
  · exact iff_of_false (fun same => alike (kind_eq_of_same same ha))
      fun h => alike (kind_eq_of_heading ha hb h.1)

/-! ## Lines -/

theorem oneLine_heading (h : e.Printable) : OneLine e.heading := by
  have closing : OneLine ")" := by decide
  cases e with
  | number x =>
    have text : OneLine (numeralText x) :=
      (number_numeralText h).not_mem (isNameChar_reserved (by decide)) (by decide)
    exact (OneLine.append (by decide) text).append closing
  | var name =>
    have text : OneLine name := h.not_mem (isNameChar_reserved (by decide))
    exact (OneLine.append (by decide) text).append closing
  | external _ =>
    show OneLine "ExternalRef"
    decide
  | call name args =>
    have text : OneLine name := h.1.1.not_mem (isNameChar_reserved (by decide))
    exact (OneLine.append (by decide) text).append closing
  | binary s a b _ =>
    obtain ⟨o, rfl⟩ := h.1
    exact (OneLine.append (by decide) (noBreak_symbol o)).append closing
  | foreign _ => exact h.elim

theorem oneLine_outlines (h : AllPrintable as) : ∀ line ∈ outlines n as, OneLine line := by
  induction as using forest_induction generalizing n with
  | nil => exact nofun
  | cons a as parts others =>
    rw [outlines_cons h.1]
    refine List.forall_mem_cons.mpr ⟨oneLine_outlineLine (oneLine_heading h.1) n, ?_⟩
    exact List.forall_mem_append.mpr ⟨parts (allPrintable_parts h.1), others h.2⟩

/-! ## Indents -/

/-- The number of blanks that a line starts with. -/
def indentOf (line : String) : Nat :=
  (line.toList.takeWhile (· = ' ')).length

theorem indentOf_outlineLine (h : e.Printable) (n : Int) :
    indentOf (outlineLine n e.heading) = 2 * n.toNat := by
  have front : e.heading.toList.takeWhile (· = ' ') = [] := by
    cases e with
    | foreign _ => exact h.elim
    | number _ | var _ | external _ | call _ _ | binary _ _ _ _ => simp [heading]
  rw [indentOf, outlineLine, String.toList_append, String.toList_ofList,
    List.takeWhile_append_of_pos (by simp), front, List.append_nil, List.length_replicate]

/-- Lines that can stand behind subtrees that start `n` steps in: the first one, if there is one, is
less far in. -/
def LeavesAt (n : Int) (lines : List String) : Prop :=
  ∀ line ∈ lines.head?, indentOf line < 2 * n.toNat

/-- One more subtree is no such line. -/
theorem not_leavesAt (h : a.Printable) : ¬ LeavesAt n (outlineLine n a.heading :: rest) := by
  intro leaves
  have shallow := leaves _ rfl
  rw [indentOf_outlineLine h] at shallow
  exact Nat.lt_irrefl _ shallow

/-- What follows the parts of a node starts less far in than they do. -/
theorem leavesAt_outlines (hn : 0 ≤ n) (h : AllPrintable as) (leaves : LeavesAt n rest) :
    LeavesAt (n + 1) (outlines n as ++ rest) := by
  cases as with
  | nil =>
    intro line first
    have shallow := leaves line first
    omega
  | cons a as =>
    rw [outlines_cons h.1]
    rintro line ⟨⟩
    rw [indentOf_outlineLine h.1]
    omega

/-! ## Reading an outline back -/

/-- Subtrees in front of lines that are less far in can be told from all these lines: when the lines
are equal, the subtrees are the same and leave the same lines behind them. -/
theorem outlines_decoded (hn : 0 ≤ n) (ha : AllPrintable as) (hb : AllPrintable bs)
    (leaves : LeavesAt n rest) (leaves' : LeavesAt n rest')
    (lines : outlines n as ++ rest = outlines n bs ++ rest') :
    sameAll as bs = true ∧ rest = rest' := by
  -- the parts of the first subtree are told from the lines behind its own, one step further in, and
  -- what they leave are the lines of the other subtrees
  induction as using forest_induction generalizing bs n rest rest' with
  | nil =>
    cases bs with
    | nil => exact ⟨rfl, lines⟩
    | cons b bs =>
      rw [outlines_cons hb.1] at lines
      obtain rfl : rest = _ := lines
      exact absurd leaves (not_leavesAt hb.1)
  | cons a as parts others =>
    cases bs with
    | nil =>
      rw [outlines_cons ha.1] at lines
      obtain rfl : rest' = _ := lines.symm
      exact absurd leaves' (not_leavesAt ha.1)
    | cons b bs =>
      rw [outlines_cons ha.1, outlines_cons hb.1, List.cons_append, List.cons_append,
        List.append_assoc, List.append_assoc] at lines
      obtain ⟨line, below⟩ := List.cons.inj lines
      have heading : a.heading = b.heading := (String.append_right_inj _).mp line
      obtain ⟨sameParts, behind⟩ := parts (Int.le_add_one hn) (allPrintable_parts ha.1)
        (allPrintable_parts hb.1) (leavesAt_outlines hn ha.2 leaves)
        (leavesAt_outlines hn hb.2 leaves') below
      obtain ⟨sameOthers, left⟩ := others hn ha.2 hb.2 leaves leaves' behind
      refine ⟨?_, left⟩
      rw [sameAll, (same_iff ha.1 hb.1).mpr ⟨heading, sameParts⟩, sameOthers]
      rfl

/-- Parentheses and the signs of zeros leave no trace in an outline. -/
theorem outlines_eq_of_same (ha : AllPrintable as) (hb : AllPrintable bs)
    (same : sameAll as bs = true) : outlines n as = outlines n bs := by
  induction as using forest_induction generalizing bs n with
  | nil =>
    cases bs with
    | nil => rfl
    | cons b bs => cases same
  | cons a as parts others =>
    cases bs with
    | nil => cases same
    | cons b bs =>
      rw [sameAll, Bool.and_eq_true] at same
      obtain ⟨heading, sameParts⟩ := (same_iff ha.1 hb.1).mp same.1
      rw [outlines_cons ha.1, outlines_cons hb.1, heading, others ha.2 hb.2 same.2,
        parts (allPrintable_parts ha.1) (allPrintable_parts hb.1) sameParts]

/-- Two expressions that have sources have the same outline exactly when they are the same. Below no
steps at all, a node and its parts would have the same indent. -/
theorem outline_inj (ha : a.Printable) (hb : b.Printable) (hn : 0 ≤ n) :
    a.outline n = b.outline n ↔ a.same b = true := by
  have listed (e : Expr) : outlines n [e] = e.outline n := List.append_nil _
  have alone : sameAll [a] [b] = a.same b := Bool.and_true _
  have inside : AllPrintable [a] ∧ AllPrintable [b] := ⟨⟨ha, trivial⟩, ⟨hb, trivial⟩⟩
  rw [← listed, ← listed, ← alone]
  refine ⟨fun lines => ?_, outlines_eq_of_same inside.1 inside.2⟩
  have leaves : LeavesAt n [] := nofun
  exact (outlines_decoded hn inside.1 inside.2 leaves leaves (by rw [lines])).1

/-- The expressions of two sources have the same outline as a text, however far in, exactly when
they are the same. -/
theorem pretty_eq_iff {s t : String} (ha : read? s = .ok a) (hb : read? t = .ok b) (hn : 0 ≤ n) :
    a.pretty n = b.pretty n ↔ a.same b = true := by
  have printable := printable_source (source_of_read? ha)
  have printable' := printable_source (source_of_read? hb)
  have lines (e : Expr) (h : e.Printable) : ∀ line ∈ e.outline n, OneLine line := by
    have listed : AllPrintable [e] := ⟨h, trivial⟩
    have all : ∀ line ∈ outlines n [e], OneLine line := oneLine_outlines listed
    rwa [outlines, outlines, List.append_nil] at all
  rw [pretty, pretty, unlines_inj (lines a printable) (lines b printable')]
  exact outline_inj printable printable' hn

end

/-- The outlines of `f(g(#x), #y)` and `f(g(#x, #y))` differ in the indent of the last line only. -/
theorem pretty_eq_iff_call :
    read? "f(g(#x), #y)" = .ok (call "f" [call "g" [var "x"], var "y"]) ∧
      read? "f(g(#x, #y))" = .ok (call "f" [call "g" [var "x", var "y"]]) ∧ (0 : Int) ≤ 1 ∧
      (call "f" [call "g" [var "x"], var "y"]).outline 1 =
        ["  Call(f)", "    Call(g)", "      Variable(x)", "    Variable(y)"] ∧
      (call "f" [call "g" [var "x", var "y"]]).outline 1 =
        ["  Call(f)", "    Call(g)", "      Variable(x)", "      Variable(y)"] ∧
      (call "f" [call "g" [var "x"], var "y"]).pretty 1 ≠
        (call "f" [call "g" [var "x", var "y"]]).pretty 1 := by
  have nested : read? "f(g(#x), #y)" = .ok (call "f" [call "g" [var "x"], var "y"]) := rfl
  have flat : read? "f(g(#x, #y))" = .ok (call "f" [call "g" [var "x", var "y"]]) := rfl
  have inside : (0 : Int) ≤ 1 := by decide
  refine ⟨nested, flat, inside, by decide +kernel, by decide +kernel, fun printed => ?_⟩
  have same := (pretty_eq_iff nested flat inside).mp printed
  cases same

end Expr

end Reckoner
