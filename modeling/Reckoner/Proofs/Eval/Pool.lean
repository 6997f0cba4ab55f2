import Mathlib.Algebra.GroupWithZero.Nat
import Mathlib.Logic.Relation
import Reckoner.Eval.Pool

/-!
# Every schedule of a pool

The caller and the workers of a pool may move in any order. `Pool.Sound` says what every move keeps:
no item is lost or worked on twice, a reply stands at the place of its item, and what the caller has
read is what the items give from the first one on. Every move also lowers `Pool.measure`, and a pool
that cannot move is one whose caller has left. So every run ends, with the reply to every item, and
ends in the result that working on the items one after the other has.
-/

namespace Reckoner

variable {α ρ φ β : Type} {work : α → ρ} {answer : ρ → Except φ β} {items : List α}

/-! ## Working on the items one after the other -/

theorem mapM_snoc_ok {f : α → Except φ β} {answers : List β} {a : α} {b : β}
    (h : items.mapM f = .ok answers) (ha : f a = .ok b) :
    (items ++ [a]).mapM f = .ok (answers ++ [b]) := by
  rw [List.mapM_append, h]
  simp [ha]
  rfl

theorem mapM_of_fault {f : α → Except φ β} {answers : List β} {a : α} {rest : List α} {fault : φ}
    (h : items.mapM f = .ok answers) (ha : f a = .error fault) :
    (items ++ a :: rest).mapM f = .error fault := by
  rw [List.mapM_append, h]
  simp [ha]
  rfl

/-! ## What every move keeps -/

/-- What the caller knows of the items, when `f` is what it reads of each. -/
def Caller.Sound (f : α → Except φ β) (items : List α) : Caller α φ β → Prop
  | .asking rest next => ∃ asked, items = asked ++ rest ∧ next = asked.length
  | .reading places answers => ∃ done rest, items = done ++ rest ∧
      places = List.range' done.length rest.length ∧ done.mapM f = .ok answers
  | .leaving result _ => result = items.mapM f

/-- How many of the items have been asked for. -/
def Caller.askedFor (items : List α) : Caller α φ β → Nat
  | .asking _ next => next
  | _ => items.length

namespace Pool

/-- What holds of a pool with `crew` workers wherever its run stands. -/
structure Sound (work : α → ρ) (answer : ρ → Except φ β) (crew : Nat) (items : List α)
    (s : Pool α ρ φ β) : Prop where
  workers : s.workers.length = crew
  caller : s.caller.Sound (answer ∘ work) items
  /-- A worker works on the item of the place that it replies to. -/
  pending : ∀ place a, (place, a) ∈ s.pending → items[place]? = some a
  replies : ∀ place reply, (place, reply) ∈ s.replies →
    ∃ a, items[place]? = some a ∧ reply = work a
  /-- Each item that was asked for is pending or replied to, and only once. -/
  places : (s.pending.map Prod.fst ++ s.replies.map Prod.fst).Perm
    (List.range (s.caller.askedFor items))
  stopped : ∀ result stopped, s.caller = .leaving result stopped → stopped ≤ crew

variable {crew : Nat} {s s' : Pool α ρ φ β}

theorem sound_start (work : α → ρ) (answer : ρ → Except φ β) (crew : Nat) (items : List α) :
    Sound work answer crew items (start crew items) := by
  have idle : (start crew items : Pool α ρ φ β).pending = [] := by
    simp [pending, start, Worker.pending]
  refine ⟨List.length_replicate, ⟨[], rfl, rfl⟩, ?_, ?_, ?_, nofun⟩
  · simp [idle]
  · simp [start]
  · rw [idle]
    simp [start, Caller.askedFor]

/-- What changes for one worker changes for the pool. -/
theorem perm_pending (before after : List (Worker α)) {w w' : Worker α} {more : List (Nat × α)}
    (h : w'.pending.Perm (more ++ w.pending)) :
    ((before ++ w' :: after).flatMap Worker.pending).Perm
      (more ++ (before ++ w :: after).flatMap Worker.pending) := by
  simp only [List.flatMap_append, List.flatMap_cons]
  refine ((h.append_right _).append_left _).trans ?_
  rw [List.append_assoc more]
  exact List.perm_append_comm_assoc _ _ _

theorem Sound.ask {a : α} {rest : List α} {next : Nat} {before after : List (Worker α)}
    {w : Worker α} {replies : List (Nat × ρ)}
    (h : Sound work answer crew items ⟨.asking (a :: rest) next, before ++ w :: after, replies⟩) :
    Sound work answer crew items
      ⟨.asking rest (next + 1), before ++ w.ask (next, a) :: after, replies⟩ := by
  obtain ⟨asked, rfl, rfl⟩ := h.caller
  have told : (w.ask (asked.length, a)).pending.Perm ([(asked.length, a)] ++ w.pending) := by
    unfold Worker.ask Worker.pending
    rw [List.append_assoc]
    exact List.perm_middle
  have more := perm_pending before after told
  refine ⟨?_, ⟨asked ++ [a], by simp, by simp⟩, fun place b hb => ?_, h.replies, ?_, nofun⟩
  · simpa using h.workers
  · rcases List.mem_cons.mp (more.mem_iff.mp hb) with same | old
    · cases same
      simp
    · exact h.pending place b old
  · refine ((more.map Prod.fst).append_right _).trans ?_
    show (asked.length :: _).Perm (List.range (asked.length + 1))
    rw [List.range_succ]
    exact (h.places.cons _).trans (List.perm_append_singleton _ _).symm

theorem Sound.take {caller : Caller α φ β} {before after : List (Worker α)}
    {front back : List (Nat × α)} {item : Nat × α} {replies : List (Nat × ρ)}
    (h : Sound work answer crew items
      ⟨caller, before ++ ⟨front ++ item :: back, none⟩ :: after, replies⟩) :
    Sound work answer crew items
      ⟨caller, before ++ ⟨front ++ back, some item⟩ :: after, replies⟩ := by
  have taken : (⟨front ++ back, some item⟩ : Worker α).pending.Perm
      ([] ++ (⟨front ++ item :: back, none⟩ : Worker α).pending) := by
    simpa [Worker.pending] using (List.perm_append_singleton item back).append_left front
  have same := perm_pending before after taken
  refine ⟨?_, h.caller, fun place b hb => ?_, h.replies, ?_, h.stopped⟩
  · simpa using h.workers
  · exact h.pending place b (same.mem_iff.mp hb)
  · exact ((same.map Prod.fst).append_right _).trans h.places

theorem Sound.reply {caller : Caller α φ β} {before after : List (Worker α)}
    {mailbox : List (Nat × α)} {place : Nat} {a : α} {replies : List (Nat × ρ)}
    (h : Sound work answer crew items
      ⟨caller, before ++ ⟨mailbox, some (place, a)⟩ :: after, replies⟩) :
    Sound work answer crew items
      ⟨caller, before ++ ⟨mailbox, none⟩ :: after, (place, work a) :: replies⟩ := by
  have done : (⟨mailbox, some (place, a)⟩ : Worker α).pending.Perm
      ([(place, a)] ++ (⟨mailbox, none⟩ : Worker α).pending) := by
    simp [Worker.pending]
  have fewer := perm_pending before after done
  have own : items[place]? = some a :=
    h.pending place a (fewer.mem_iff.mpr List.mem_cons_self)
  refine ⟨?_, h.caller, fun q b hb => ?_, fun q reply hq => ?_, ?_, h.stopped⟩
  · simpa using h.workers
  · exact h.pending q b (fewer.mem_iff.mpr (List.mem_cons_of_mem _ hb))
  · rcases List.mem_cons.mp hq with same | old
    · cases same
      exact ⟨a, own, rfl⟩
    · exact h.replies q reply old
  · refine List.perm_middle.trans (.trans ?_ h.places)
    exact ((fewer.map Prod.fst).append_right _).symm

theorem Sound.read {place : Nat} {places : List Nat} {answers : List β}
    {workers : List (Worker α)} {replies : List (Nat × ρ)} {reply : ρ} {b : β}
    (h : Sound work answer crew items ⟨.reading (place :: places) answers, workers, replies⟩)
    (found : (place, reply) ∈ replies) (told : answer reply = .ok b) :
    Sound work answer crew items ⟨.reading places (answers ++ [b]), workers, replies⟩ := by
  obtain ⟨done, rest, rfl, span, past⟩ := h.caller
  obtain ⟨a, own, rfl⟩ := h.replies place _ found
  refine ⟨h.workers, ?_, h.pending, h.replies, h.places, nofun⟩
  cases rest with
  | nil => cases span
  | cons c rest =>
    obtain ⟨rfl, rfl⟩ := List.cons.inj span
    obtain rfl : c = a := by simpa using own
    exact ⟨done ++ [c], rest, by simp, by simp, mapM_snoc_ok past told⟩

theorem Sound.refuse {place : Nat} {places : List Nat} {answers : List β}
    {workers : List (Worker α)} {replies : List (Nat × ρ)} {reply : ρ} {fault : φ}
    (h : Sound work answer crew items ⟨.reading (place :: places) answers, workers, replies⟩)
    (found : (place, reply) ∈ replies) (told : answer reply = .error fault) :
    Sound work answer crew items ⟨.leaving (.error fault) 0, workers, replies⟩ := by
  obtain ⟨done, rest, rfl, span, past⟩ := h.caller
  obtain ⟨a, own, rfl⟩ := h.replies place _ found
  refine ⟨h.workers, ?_, h.pending, h.replies, h.places, ?_⟩
  · cases rest with
    | nil => cases span
    | cons c rest =>
      obtain ⟨rfl, rfl⟩ := List.cons.inj span
      obtain rfl : c = a := by simpa using own
      exact (mapM_of_fault past told).symm
  · rintro _ _ ⟨⟩
    exact Nat.zero_le crew

/-- Every move of the caller or of a worker keeps what is known. -/
theorem Sound.step (h : Sound work answer crew items s) (move : Step work answer s s') :
    Sound work answer crew items s' := by
  cases move with
  | ask _ => exact h.ask
  | await =>
    obtain ⟨asked, all, rfl⟩ := h.caller
    rw [List.append_nil] at all
    subst all
    refine ⟨h.workers, ⟨[], items, rfl, ?_, rfl⟩, h.pending, h.replies, h.places, nofun⟩
    rw [List.range_eq_range']
    rfl
  | take => exact h.take
  | reply => exact h.reply
  | read found told => exact h.read found told
  | refuse found told => exact h.refuse found told
  | finish =>
    obtain ⟨done, rest, rfl, span, past⟩ := h.caller
    obtain rfl : rest = [] := by simpa using span.symm
    refine ⟨h.workers, ?_, h.pending, h.replies, h.places, ?_⟩
    · rw [List.append_nil]
      exact past.symm
    · rintro _ _ ⟨⟩
      exact Nat.zero_le crew
  | @stop result stopped workers replies idle =>
    refine ⟨h.workers, h.caller, h.pending, h.replies, h.places, ?_⟩
    rintro _ _ ⟨⟩
    have within := (List.getElem?_eq_some_iff.mp idle).1
    rwa [h.workers] at within

theorem Sound.reaches (h : Sound work answer crew items s)
    (run : Relation.ReflTransGen (Step work answer) s s') :
    Sound work answer crew items s' := by
  induction run with
  | refl => exact h
  | tail _ move ih => exact ih.step move

end Pool

/-! ## Every run ends -/

/-- How many moves a caller can still make at most, and its workers for the items that they will be
asked for. -/
def Caller.measure (crew : Nat) : Caller α φ β → Nat
  | .asking rest next => 4 * rest.length + next + crew + 2
  | .reading places _ => places.length + crew + 1
  | .leaving _ stopped => crew - stopped

/-- How many moves a worker can still make at most. -/
def Worker.measure (w : Worker α) : Nat :=
  2 * w.mailbox.length + w.current?.toList.length

theorem Worker.eq_of_pending {w : Worker α} (h : w.pending = []) : w = {} := by
  obtain ⟨mailbox, current?⟩ := w
  obtain ⟨rfl, none⟩ := List.append_eq_nil_iff.mp h
  obtain rfl : current? = Option.none := Option.toList_eq_nil_iff.mp none
  rfl

namespace Pool

variable {crew : Nat} {s s' : Pool α ρ φ β}

/-- How many moves a pool can still make at most. -/
def measure (s : Pool α ρ φ β) : Nat :=
  s.caller.measure s.workers.length + (s.workers.map Worker.measure).sum

theorem Step.measure_lt (move : Step work answer s s') : s'.measure < s.measure := by
  cases move with
  | ask _ =>
    simp [measure, Caller.measure, Worker.measure, Worker.ask]
    omega
  | await => simp [measure, Caller.measure]
  | take =>
    simp [measure, Worker.measure]
    omega
  | reply => simp [measure, Worker.measure]
  | read _ _ => simp [measure, Caller.measure]
  | refuse _ _ =>
    simp only [measure, Caller.measure, List.length_cons]
    omega
  | finish => simp [measure, Caller.measure]
  | stop idle =>
    have within := (List.getElem?_eq_some_iff.mp idle).1
    simp only [measure, Caller.measure]
    omega

/-- No run goes on for ever. -/
theorem exists_not_step (run : Nat → Pool α ρ φ β) :
    ∃ i, ¬ Step work answer (run i) (run (i + 1)) := by
  refine Classical.byContradiction fun endless => ?_
  have falls (i : Nat) : (run i).measure + i ≤ (run 0).measure := by
    induction i with
    | zero => exact Nat.le_refl _
    | succ i ih =>
      have move : Step work answer (run i) (run (i + 1)) :=
        Classical.not_not.mp fun none => endless ⟨i, none⟩
      have := move.measure_lt
      omega
  have := falls ((run 0).measure + 1)
  omega

/-- A worker that has an item left can move. -/
theorem exists_step_of_mem_pending {item : Nat × α} (h : item ∈ s.pending) :
    ∃ s', Step work answer s s' := by
  obtain ⟨caller, workers, replies⟩ := s
  obtain ⟨w, hw, left⟩ := List.mem_flatMap.mp h
  obtain ⟨before, after, rfl⟩ := List.append_of_mem hw
  obtain ⟨mailbox, current?⟩ := w
  cases current? with
  | some under => exact ⟨_, .reply⟩
  | none =>
    rw [Worker.pending, Option.toList_none, List.append_nil] at left
    obtain ⟨front, back, rfl⟩ := List.append_of_mem left
    exact ⟨_, .take⟩

/-- The worker whose turn it is can be asked. -/
theorem exists_step_ask {a : α} {rest : List α} {next : Nat} {workers : List (Worker α)}
    {replies : List (Nat × ρ)} (manned : 0 < workers.length) :
    ∃ s', Step work answer ⟨.asking (a :: rest) next, workers, replies⟩ s' := by
  have inside : next % workers.length < workers.length := Nat.mod_lt _ manned
  have split : workers = workers.take (next % workers.length) ++
      workers[next % workers.length] :: workers.drop (next % workers.length + 1) := by
    rw [← List.drop_eq_getElem_cons inside, List.take_append_drop]
  have turn : (workers.take (next % workers.length)).length = next % workers.length :=
    List.length_take_of_le (Nat.le_of_lt inside)
  generalize workers.take (next % workers.length) = before at split turn
  generalize workers.drop (next % workers.length + 1) = after at split
  generalize workers[next % workers.length] = w at split
  subst split
  exact ⟨_, .ask turn⟩

/-- The reply at a place that was asked for can be read when no item is left. -/
theorem Sound.exists_step_read {place : Nat} {places : List Nat} {answers : List β}
    {workers : List (Worker α)} {replies : List (Nat × ρ)}
    (h : Sound work answer crew items ⟨.reading (place :: places) answers, workers, replies⟩)
    (idle : workers.flatMap Worker.pending = []) :
    ∃ s', Step work answer ⟨.reading (place :: places) answers, workers, replies⟩ s' := by
  obtain ⟨done, rest, rfl, span, -⟩ := h.caller
  have inside : place < (done ++ rest).length := by
    have : place ∈ List.range' done.length rest.length := span ▸ List.mem_cons_self
    rw [List.length_append]
    exact (List.mem_range'_1.mp this).2
  have asked := h.places.mem_iff.mpr (List.mem_range.mpr inside)
  rw [Pool.pending, idle] at asked
  obtain ⟨⟨_, reply⟩, found, rfl⟩ := List.mem_map.mp asked
  cases told : answer reply with
  | ok b => exact ⟨_, .read found told⟩
  | error fault => exact ⟨_, .refuse found told⟩

/-- A pool that cannot move is one whose caller has left with the result of all items. -/
theorem Sound.result?_of_stuck (h : Sound work answer crew items s) (manned : items ≠ [] → 0 < crew)
    (stuck : ∀ s', ¬ Step work answer s s') : s.result? = some (items.mapM (answer ∘ work)) := by
  have idle : s.pending = [] := List.eq_nil_iff_forall_not_mem.mpr fun item left =>
    (exists_step_of_mem_pending left).elim stuck
  obtain ⟨caller, workers, replies⟩ := s
  obtain rfl : workers.length = crew := h.workers
  cases caller with
  | asking rest next =>
    cases rest with
    | nil => exact absurd .await (stuck _)
    | cons a rest =>
      obtain ⟨asked, rfl, -⟩ := h.caller
      have some' := manned (List.append_ne_nil_of_right_ne_nil _ (List.cons_ne_nil a rest))
      exact (exists_step_ask some').elim fun s' move => absurd move (stuck s')
  | reading places answers =>
    cases places with
    | nil => exact absurd .finish (stuck _)
    | cons place places =>
      exact (h.exists_step_read idle).elim fun s' move => absurd move (stuck s')
  | leaving result stopped =>
    obtain rfl : result = items.mapM (answer ∘ work) := h.caller
    rcases Nat.lt_or_eq_of_le (h.stopped _ _ rfl) with within | rfl
    · have rest : workers[stopped].pending = [] :=
        List.flatMap_eq_nil_iff.mp idle _ (List.getElem_mem within)
      have done : workers[stopped]? = some {} := by
        rw [List.getElem?_eq_getElem within, Worker.eq_of_pending rest]
      exact absurd (.stop done) (stuck _)
    · exact if_pos rfl

/-- A pool that cannot move has the reply to every item. -/
theorem Sound.mem_replies_of_stuck (h : Sound work answer crew items s)
    (manned : items ≠ [] → 0 < crew) (stuck : ∀ s', ¬ Step work answer s s') (place : Nat)
    (reply : ρ) : (place, reply) ∈ s.replies ↔ (items.map work)[place]? = some reply := by
  have idle : s.pending = [] := List.eq_nil_iff_forall_not_mem.mpr fun item left =>
    (exists_step_of_mem_pending left).elim stuck
  have all : s.caller.askedFor items = items.length := by
    have left := h.result?_of_stuck manned stuck
    unfold result? at left
    split at left
    · next leaving =>
      rw [leaving]
      rfl
    · cases left
  rw [List.getElem?_map, Option.map_eq_some_iff]
  constructor
  · intro replied
    obtain ⟨a, own, rfl⟩ := h.replies place reply replied
    exact ⟨a, own, rfl⟩
  · rintro ⟨a, own, rfl⟩
    have inside := (List.getElem?_eq_some_iff.mp own).1
    have asked := h.places.mem_iff.mpr (List.mem_range.mpr (all ▸ inside))
    rw [idle] at asked
    obtain ⟨⟨place', reply'⟩, replied, same⟩ := List.mem_map.mp asked
    obtain rfl : place' = place := same
    obtain ⟨a', own', rfl⟩ := h.replies place' reply' replied
    obtain rfl : a' = a := Option.some.inj (own'.symm.trans own)
    exact replied

/-- Whoever moves when, every run from a pool ends, with `replies` in their places, and the caller
leaves with `result`. -/
structure Settles (work : α → ρ) (answer : ρ → Except φ β) (s : Pool α ρ φ β) (replies : List ρ)
    (result : Except φ (List β)) : Prop where
  ends : ∀ run : Nat → Pool α ρ φ β, run 0 = s → ∃ i, ¬ Step work answer (run i) (run (i + 1))
  leaves : ∀ s', Relation.ReflTransGen (Step work answer) s s' →
    (∀ s'', ¬ Step work answer s' s'') → s'.result? = some result ∧
      ∀ place reply, (place, reply) ∈ s'.replies ↔ replies[place]? = some reply
  no_other : ∀ s' other, Relation.ReflTransGen (Step work answer) s s' →
    s'.result? = some other → other = result
  /-- No item is replied to twice. -/
  once : ∀ s', Relation.ReflTransGen (Step work answer) s s' → (s'.replies.map Prod.fst).Nodup

/-- A pool with workers settles on the replies to its items and on the result that these have one
after the other. -/
theorem settles_start (work : α → ρ) (answer : ρ → Except φ β) (items : List α)
    (manned : items ≠ [] → 0 < crew) :
    Settles work answer (start crew items) (items.map work) (items.mapM (answer ∘ work)) where
  ends run _ := exists_not_step run
  leaves s' run stuck :=
    have sound := (sound_start work answer crew items).reaches run
    ⟨sound.result?_of_stuck manned stuck, sound.mem_replies_of_stuck manned stuck⟩
  no_other s' other run left := by
    have known := ((sound_start work answer crew items).reaches run).caller
    unfold result? at left
    split at left
    · next result stopped leaving =>
      rw [leaving] at known
      obtain ⟨-, same⟩ := Option.ite_none_right_eq_some.mp left
      exact (Option.some.inj same).symm.trans known
    · cases left
  once s' run := by
    have known := ((sound_start work answer crew items).reaches run).places.nodup_iff.mpr
      List.nodup_range
    exact (List.nodup_append.mp known).2.1

end Pool

end Reckoner
