import Mathlib.Data.List.Basic
import Reckoner.Eval.Batch
import Reckoner.Proofs.Eval.Draws
import Reckoner.Proofs.Eval.Pool
import Reckoner.Text.Letter

/-!
# Batches do not depend on the schedule

`Batch.evaluate` lets the workers answer one after the other. A pool in which they run at the same
time has the same result, whatever its schedule and however many workers it has: the outcome of
every source in the order of the sources, or the fault of the first source whose host is at fault.
The replies of the pool also tell which indices each source has asked the host for. Which random
numbers there are for a source is the only thing that the schedule decides, and it makes no
difference to sources that draw none.
-/

namespace Reckoner

variable {α φ β : Type}

/-! ## Answers in the order of their places -/

namespace Batch

variable {workers : Nat} {work : α → β} {items : List α}

theorem mem_hand {worker place : Nat} {a : α} :
    (place, a) ∈ hand workers worker items ↔
      items[place]? = some a ∧ place % workers = worker := by
  unfold hand
  rw [List.mem_map]
  constructor
  · rintro ⟨⟨b, i⟩, held, same⟩
    cases same
    obtain ⟨listed, turn⟩ := List.mem_filter.mp held
    exact ⟨List.mem_zipIdx_iff_getElem?.mp listed, of_decide_eq_true turn⟩
  · rintro ⟨listed, turn⟩
    refine ⟨(a, place), List.mem_filter.mpr ⟨?_, decide_eq_true turn⟩, rfl⟩
    exact List.mem_zipIdx_iff_getElem?.mpr listed

theorem mem_replies (manned : 0 < workers) {place : Nat} {b : β} :
    (place, b) ∈ replies workers work items ↔ ∃ a, items[place]? = some a ∧ work a = b := by
  unfold replies
  rw [List.mem_flatMap]
  constructor
  · rintro ⟨worker, -, replied⟩
    obtain ⟨⟨i, a⟩, held, same⟩ := List.mem_map.mp replied
    cases same
    exact ⟨a, (mem_hand.mp held).1, rfl⟩
  · rintro ⟨a, listed, rfl⟩
    refine ⟨place % workers, List.mem_range.mpr (Nat.mod_lt _ manned), List.mem_map.mpr ?_⟩
    exact ⟨(place, a), mem_hand.mpr ⟨listed, rfl⟩, rfl⟩

theorem find?_replies (manned : 0 < workers) {place : Nat} {a : α}
    (listed : items[place]? = some a) :
    (replies workers work items).find? (fun answer => answer.1 = place) = some (place, work a) := by
  cases found : (replies workers work items).find? (fun answer => answer.1 = place) with
  | none =>
    have reply : (place, work a) ∈ replies workers work items :=
      (mem_replies manned).mpr ⟨a, listed, rfl⟩
    exact absurd (decide_eq_true rfl) (List.find?_eq_none.mp found _ reply)
  | some answer =>
    obtain ⟨i, b⟩ := answer
    obtain rfl : i = place := by simpa using List.find?_some found
    obtain ⟨a', own, rfl⟩ := (mem_replies manned).mp (List.mem_of_find?_eq_some found)
    rw [listed] at own
    cases own
    rfl

theorem filterMap_range_getElem? (items : List α) :
    ((List.range items.length).filterMap fun place => items[place]?) = items := by
  induction items with
  | nil => rfl
  | cons a rest ih => simpa [List.range_succ_eq_map, List.filterMap_map, Function.comp_def] using ih

/-- However many workers there are, each item is answered at its place. -/
theorem pooled_eq_map (manned : 0 < workers) (work : α → β) (items : List α) :
    pooled workers work items = items.map work := by
  have all := filterMap_range_getElem? (items.map work)
  rw [List.length_map] at all
  unfold pooled collect
  refine (List.filterMap_congr fun place inside => ?_).trans all
  have inside := List.mem_range.mp inside
  have some' : 0 < min workers items.length :=
    Nat.lt_min.mpr ⟨manned, Nat.zero_lt_of_lt inside⟩
  rw [find?_replies some' (List.getElem?_eq_getElem inside), List.getElem?_map,
    List.getElem?_eq_getElem inside]
  rfl

end Batch

/-! ## The result of a batch -/

/-- The fault of the host that an interpretation ends in, if it does. -/
def Interpretation.fault? (i : Interpretation) : Option HostFault :=
  match i.outcome with
  | .error (.host fault) => some fault
  | _ => none

/-- A source that draws nothing is answered alike whatever there is to draw. -/
theorem interpret_still [Alphabet] {debug : Bool} {env : Environment} {source : String}
    (h : ∀ e, Expr.read? source = .ok e → e.draws env = 0) (draws draws' : Draws) :
    interpret debug env source draws' =
      { interpret debug env source draws with draws := draws' } := by
  unfold interpret Expr.readTraced
  cases read : Expr.read? source with
  | error _ => rfl
  | ok e =>
    dsimp only
    rw [Expr.still_evaluate e (h e read) draws draws']
    rfl

namespace Batch

variable {debug : Bool} {env : Environment} {draws : Nat → Draws} {source : String}
  {fault : HostFault}

theorem answer?_eq (i : Interpretation) : answer? i =
    match i.fault? with
    | some fault => .error fault
    | none => .ok i.outcome := by
  obtain ⟨_, _, (_ | _ | _) | _, _⟩ := i <;> rfl

/-- Interpretations in which the host is never at fault have their outcomes for answers. -/
theorem mapM_answer?_of_noFault {is : List Interpretation} (h : ∀ i ∈ is, i.fault? = none) :
    is.mapM answer? = .ok (is.map Interpretation.outcome) := by
  induction is with
  | nil => rfl
  | cons i rest ih =>
    rw [List.mapM_cons, answer?_eq, h i List.mem_cons_self,
      ih fun other listed => h other (List.mem_cons_of_mem i listed)]
    rfl

section

variable [Alphabet]

/-- The interpretations of sources that are taken one after the other. -/
def inTurn (debug : Bool) (env : Environment) (sources : List String) (draws : Nat → Draws) :
    List Interpretation :=
  sources.zipIdx.map (answerAt debug env draws)

/-- The answers of an interpreter that takes the sources one after the other, up to the first fault
of the host. -/
def sequential (debug : Bool) (env : Environment) (sources : List String) (draws : Nat → Draws) :
    Except HostFault (List (Except Failure Float)) :=
  (inTurn debug env sources draws).mapM answer?

theorem evaluate_eq {workers : Int} (enough : 1 ≤ workers) (debug : Bool) (env : Environment)
    (sources : List String) (draws : Nat → Draws) :
    evaluate workers debug env sources draws =
      ⟨(inTurn debug env sources draws).map Interpretation.asked,
        (inTurn debug env sources draws).flatMap Interpretation.trace,
        (sequential debug env sources draws).mapError .host⟩ := by
  unfold evaluate sequential inTurn
  rw [if_neg (Int.not_lt.mpr enough), pooled_eq_map (by omega)]

/-- The first source whose host is at fault decides. -/
theorem sequential_of_fault {before after : List String}
    (h : ∀ i ∈ inTurn debug env before draws, i.fault? = none)
    (first : (interpret debug env source (draws before.length)).fault? = some fault) :
    sequential debug env (before ++ source :: after) draws = .error fault := by
  have own : answer? (interpret debug env source (draws before.length)) = .error fault := by
    rw [answer?_eq, first]
  unfold inTurn at h
  unfold sequential inTurn
  rw [List.zipIdx_append, List.map_append, List.zipIdx_cons, List.map_cons, Nat.zero_add]
  exact mapM_of_fault (mapM_answer?_of_noFault h) own

/-- Whatever there is to draw, sources that draw nothing have the same result. -/
theorem evaluate_still {sources : List String}
    (h : ∀ source ∈ sources, ∀ e, Expr.read? source = .ok e → e.draws env = 0) {workers : Int}
    (enough : 1 ≤ workers) (draws draws' : Nat → Draws) :
    evaluate workers debug env sources draws' = evaluate workers debug env sources draws := by
  have same : inTurn debug env sources draws' = sources.zipIdx.map fun item =>
      { answerAt debug env draws item with draws := draws' item.2 } := by
    refine List.map_congr_left fun item listed => ?_
    have mem : item.1 ∈ sources := by
      rw [← List.zipIdx_map_fst 0 sources]
      exact List.mem_map_of_mem listed
    exact interpret_still (h item.1 mem) (draws item.2) (draws' item.2)
  rw [evaluate_eq enough, evaluate_eq enough]
  unfold sequential
  rw [same]
  unfold inTurn
  rw [List.map_map, List.map_map, List.flatMap_map, List.flatMap_map, List.mapM_map, List.mapM_map]
  rfl

/-- A pool settles whatever it takes to answer an item: on the replies to all items, and on all
answers in the order of the items, or on the first fault. With the interpreter this is the result of
taking the sources one after the other, for every number of workers and every schedule, and
`evaluate` has it, too, with the indices that the replies tell: the outcome of each source, unless
the host is at fault, and the fault of the first source for which it is. This goes for all random
numbers that there may be for the sources, and they make no difference when the sources draw none.
-/
theorem settles_any_schedule :
    (∀ (α ρ φ β : Type) (work : α → ρ) (answer : ρ → Except φ β) (workers : Nat) (items : List α),
      1 ≤ workers → Pool.Settles work answer (.start (min workers items.length) items)
        (items.map work) (items.mapM (answer ∘ work))) ∧
    ∀ (debug : Bool) (env : Environment) (sources : List String) (draws : Nat → Draws),
      (∀ workers : Int, 1 ≤ workers →
        Pool.Settles (answerAt debug env draws) answer?
          (.start (min workers.toNat sources.length) sources.zipIdx)
          (inTurn debug env sources draws) (sequential debug env sources draws) ∧
        (evaluate workers debug env sources draws).asked =
          (inTurn debug env sources draws).map Interpretation.asked ∧
        (evaluate workers debug env sources draws).outcome =
          (sequential debug env sources draws).mapError .host ∧
        ((∀ source ∈ sources, ∀ e, Expr.read? source = .ok e → e.draws env = 0) → ∀ draws',
          evaluate workers debug env sources draws' =
            evaluate workers debug env sources draws)) ∧
      ((∀ i ∈ inTurn debug env sources draws, i.fault? = none) →
        sequential debug env sources draws =
          .ok ((inTurn debug env sources draws).map Interpretation.outcome)) ∧
      ∀ before source after fault, sources = before ++ source :: after →
        (∀ i ∈ inTurn debug env before draws, i.fault? = none) →
        (interpret debug env source (draws before.length)).fault? = some fault →
        sequential debug env sources draws = .error fault := by
  have settles (α ρ φ β : Type) (work : α → ρ) (answer : ρ → Except φ β) (workers : Nat)
      (items : List α) (enough : 1 ≤ workers) :
      Pool.Settles work answer (.start (min workers items.length) items) (items.map work)
        (items.mapM (answer ∘ work)) :=
    Pool.settles_start work answer items fun some' =>
      Nat.lt_min.mpr ⟨enough, List.length_pos_iff.mpr some'⟩
  refine ⟨settles, fun debug env sources draws => ⟨fun workers enough => ⟨?_, ?_⟩,
    mapM_answer?_of_noFault, ?_⟩⟩
  · have pool := settles _ _ _ _ (answerAt debug env draws) answer? workers.toNat sources.zipIdx
      (by omega)
    rw [List.length_zipIdx, ← List.mapM_map] at pool
    exact pool
  · rw [evaluate_eq enough]
    refine ⟨rfl, rfl, fun still draws' => ?_⟩
    rw [← evaluate_eq enough]
    exact evaluate_still still enough draws draws'
  · rintro before source after fault rfl noFault first
    exact sequential_of_fault noFault first

end

/-- An environment whose lookup has no entries. -/
def noEntries : Environment where
  lookup? := some fun _ => .error .missingEntry

/-- Two workers on three sources, of which the second and the third ask the host in vain, and on two
sources that are answered, the second by an error. -/
theorem settles_any_schedule_noEntries :
    let draws : Nat → Draws := fun _ _ => 0#53
    Pool.Settles (answerAt false noEntries draws) answer?
        (.start 2 [("1", 0), ("v[0]", 1), ("v[1]", 2)])
        (inTurn false noEntries ["1", "v[0]", "v[1]"] draws) (.error .missingEntry) ∧
      (evaluate 2 false noEntries ["1", "v[0]", "v[1]"] draws).outcome =
        .error (.host .missingEntry) ∧
      (evaluate 2 false noEntries ["1", "v[0]", "v[1]"] draws).asked = [[], [0.0], [1.0]] ∧
      (evaluate 2 false noEntries ["1", "#x"] draws).outcome =
        .ok ((inTurn false noEntries ["1", "#x"] draws).map Interpretation.outcome) ∧
      ∀ draws', evaluate 2 false noEntries ["1", "#x"] draws' =
        evaluate 2 false noEntries ["1", "#x"] draws := by
  intro draws
  obtain ⟨any, -, first⟩ := settles_any_schedule.2 false noEntries ["1", "v[0]", "v[1]"] draws
  obtain ⟨any', answered, -⟩ := settles_any_schedule.2 false noEntries ["1", "#x"] draws
  have fine : ∀ i ∈ inTurn false noEntries ["1"] draws, i.fault? = none := by decide +kernel
  have unbound : ∀ i ∈ inTurn false noEntries ["1", "#x"] draws, i.fault? = none := by
    decide +kernel
  have faulty : (interpret false noEntries "v[0]" (draws 1)).fault? = some .missingEntry := by
    decide +kernel
  have asked : (inTurn false noEntries ["1", "v[0]", "v[1]"] draws).map Interpretation.asked =
      [[], [0.0], [1.0]] := by
    decide +kernel
  have one : Expr.read? "1" = .ok (.number 1.0) := by decide +kernel
  have x : Expr.read? "#x" = .ok (.var "x") := rfl
  obtain ⟨settles, told, same, -⟩ := any 2 (by decide)
  obtain ⟨-, -, same', still⟩ := any' 2 (by decide)
  rw [first ["1"] "v[0]" ["v[1]"] .missingEntry rfl fine faulty] at settles same
  rw [answered unbound] at same'
  refine ⟨settles, same, told.trans asked, same', still ?_⟩
  refine List.forall_mem_cons.mpr ⟨fun e read => ?_, List.forall_mem_singleton.mpr fun e read => ?_⟩
  · rw [one] at read
    cases read
    rfl
  · rw [x] at read
    cases read
    rfl

end Batch

end Reckoner
