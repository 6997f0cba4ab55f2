/-!
# Pools of workers

Items are worked on by workers that run at the same time. The caller asks the workers in turn, reads
an answer off each reply in the order of the items, and waits for every worker to stop when it
leaves: with all answers, or with the first fault that it reads. A worker has a mailbox and works on
one item at a time, in any order; a reply that is read as a fault is a reply like any other and does
not stop it. Nothing says whether the caller or a worker moves next, so a step of a pool is a
relation.
-/

namespace Reckoner

/-- A worker. Each item comes with the place that its reply goes to. -/
structure Worker (α : Type) where
  /-- The items that the worker was asked for and has not begun. -/
  mailbox : List (Nat × α) := []
  /-- The item under way. -/
  current? : Option (Nat × α) := none

namespace Worker

variable {α : Type}

/-- The worker with another item in its mailbox. -/
def ask (w : Worker α) (item : Nat × α) : Worker α :=
  { w with mailbox := w.mailbox ++ [item] }

/-- The items that the worker has not replied to. -/
def pending (w : Worker α) : List (Nat × α) :=
  w.mailbox ++ w.current?.toList

end Worker

/-- Where the caller of a pool stands. -/
inductive Caller (α φ β : Type) where
  /-- It asks for the items one after the other; `next` is the place of the first. -/
  | asking (items : List α) (next : Nat)
  /-- It reads the replies for the places, with the answers read so far. -/
  | reading (places : List Nat) (answers : List β)
  /-- It has read enough and stops the workers one after the other. -/
  | leaving (result : Except φ (List β)) (stopped : Nat)

/-- A caller, its workers and the replies that there are, each with its place. -/
structure Pool (α ρ φ β : Type) where
  caller : Caller α φ β
  workers : List (Worker α)
  replies : List (Nat × ρ)

namespace Pool

variable {α ρ φ β : Type}

/-- The pool in which nothing has been asked for. -/
def start (workers : Nat) (items : List α) : Pool α ρ φ β :=
  ⟨.asking items 0, List.replicate workers {}, []⟩

/-- The items that some worker has not replied to. -/
def pending (s : Pool α ρ φ β) : List (Nat × α) :=
  s.workers.flatMap Worker.pending

/-- The result of the caller, once all workers have stopped. -/
def result? (s : Pool α ρ φ β) : Option (Except φ (List β)) :=
  match s.caller with
  | .leaving result stopped => if stopped = s.workers.length then some result else none
  | _ => none

/-- One move of the caller or of a worker. -/
inductive Step (work : α → ρ) (answer : ρ → Except φ β) : Pool α ρ φ β → Pool α ρ φ β → Prop
  /-- The caller asks the worker whose turn it is. -/
  | ask {a : α} {items : List α} {next : Nat} {before after : List (Worker α)} {w : Worker α}
      {replies : List (Nat × ρ)} :
      before.length = next % (before ++ w :: after).length →
      Step work answer ⟨.asking (a :: items) next, before ++ w :: after, replies⟩
        ⟨.asking items (next + 1), before ++ w.ask (next, a) :: after, replies⟩
  /-- The caller has asked for everything. -/
  | await {next : Nat} {workers : List (Worker α)} {replies : List (Nat × ρ)} :
      Step work answer ⟨.asking [] next, workers, replies⟩
        ⟨.reading (List.range next) [], workers, replies⟩
  /-- A worker takes an item out of its mailbox. -/
  | take {caller : Caller α φ β} {before after : List (Worker α)} {front back : List (Nat × α)}
      {item : Nat × α} {replies : List (Nat × ρ)} :
      Step work answer ⟨caller, before ++ ⟨front ++ item :: back, none⟩ :: after, replies⟩
        ⟨caller, before ++ ⟨front ++ back, some item⟩ :: after, replies⟩
  /-- A worker replies to the item under way. -/
  | reply {caller : Caller α φ β} {before after : List (Worker α)} {mailbox : List (Nat × α)}
      {place : Nat} {a : α} {replies : List (Nat × ρ)} :
      Step work answer ⟨caller, before ++ ⟨mailbox, some (place, a)⟩ :: after, replies⟩
        ⟨caller, before ++ ⟨mailbox, none⟩ :: after, (place, work a) :: replies⟩
  /-- The caller reads an answer off a reply. -/
  | read {place : Nat} {places : List Nat} {answers : List β} {workers : List (Worker α)}
      {replies : List (Nat × ρ)} {reply : ρ} {b : β} :
      (place, reply) ∈ replies → answer reply = .ok b →
      Step work answer ⟨.reading (place :: places) answers, workers, replies⟩
        ⟨.reading places (answers ++ [b]), workers, replies⟩
  /-- The caller reads a fault off a reply and reads no further. -/
  | refuse {place : Nat} {places : List Nat} {answers : List β} {workers : List (Worker α)}
      {replies : List (Nat × ρ)} {reply : ρ} {fault : φ} :
      (place, reply) ∈ replies → answer reply = .error fault →
      Step work answer ⟨.reading (place :: places) answers, workers, replies⟩
        ⟨.leaving (.error fault) 0, workers, replies⟩
  /-- The caller has read all answers. -/
  | finish {answers : List β} {workers : List (Worker α)} {replies : List (Nat × ρ)} :
      Step work answer ⟨.reading [] answers, workers, replies⟩
        ⟨.leaving (.ok answers) 0, workers, replies⟩
  /-- A worker with nothing left stops. -/
  | stop {result : Except φ (List β)} {stopped : Nat} {workers : List (Worker α)}
      {replies : List (Nat × ρ)} :
      workers[stopped]? = some {} →
      Step work answer ⟨.leaving result stopped, workers, replies⟩
        ⟨.leaving result (stopped + 1), workers, replies⟩

end Pool

end Reckoner
