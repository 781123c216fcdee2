import Mathlib.Logic.Function.Basic
import Pivox.Transition

/-!
The consumer of identity events: polls, handler calls, commits and rewinds, with failures, crashes
and restarts at any point. `P` are the partitions of the topic.
-/

namespace Pivox.IdentitySync

/- `succeeded` and `owed` are not looked at: the records whose handler has succeeded, and those that
failed or came after one that failed and have not been delivered since. -/
structure Part where
  log : List Nat
  /-- Above every record of the log. -/
  next : Nat
  committed : Nat
  succeeded : List Nat
  owed : List Nat
  deriving DecidableEq, Repr

def Part.empty : Part := ⟨[], 0, 0, [], []⟩

/- `polled` is not looked at either: what the poll returned. -/
structure Work where
  polled : List Nat
  todo : List Nat
  committable : List Nat
  deriving DecidableEq, Repr

def Work.none : Work := ⟨[], [], []⟩

/- The partitions that are still to be gone through, the first of them the one at hand. -/
inductive Pc (P : Type) where
  | polling
  | handling (order : List P)
  | calling (p : P) (o : Nat) (order : List P)
  | committing
  | rewinding
  | backingOff
  deriving DecidableEq, Repr

/-- A process of the consumer. -/
structure Running (P : Type) where
  cancelled : Bool
  position : P → Nat
  work : P → Work
  rewind : List (P × Nat)
  pc : Pc P

structure State (P : Type) where
  parts : P → Part
  run : Option (Running P)

inductive Event (P : Type) where
  | append (p : P) (gap : Nat)
  | start
  | crash
  | cancel
  | poll (order : List P) (records : P → List Nat)
  | next
  | handled (ok : Bool)
  | commit (applied : P → Bool)
  | setOffsets
  | retry (stop : Bool)

variable {P : Type} [DecidableEq P]

def initial : State P := ⟨fun _ => .empty, none⟩

/- Offsets may be skipped. -/
def Part.append (part : Part) (gap : Nat) : Part :=
  { part with log := part.log ++ [part.next + gap], next := part.next + gap + 1 }

/- What a poll may return of a partition: its records in their order, from the position on. -/
def Part.returns (part : Part) (position : Nat) (records : List Nat) : Bool :=
  records.isPrefixOf (part.log.filter (position ≤ ·))

def Part.deliver (part : Part) (records : List Nat) : Part :=
  { part with owed := part.owed.filter (· ∉ records) }

def Part.succeed (part : Part) (o : Nat) : Part := { part with succeeded := o :: part.succeeded }

def Part.fail (part : Part) (todo : List Nat) : Part := { part with owed := todo ++ part.owed }

/-- CommitRecords: the highest offset plus one. -/
def Part.commit (part : Part) (committable : List Nat) : Part :=
  match committable.max? with
  | none => part
  | some o => { part with committed := o + 1 }

/- PollFetches moves the position past what it returns. -/
def advance (position : Nat) (records : List Nat) : Nat :=
  match records.getLast? with
  | none => position
  | some o => o + 1

def stopped (s : State P) : State P := { s with run := none }

/-- The consumer's loop, one call at a time. -/
def step (s : State P) : Event P → Option (State P)
  | .append p gap => some { s with parts := Function.update s.parts p ((s.parts p).append gap) }
  | .start =>
    match s.run with
    | some _ => none
    | none =>
      let position p := (s.parts p).committed
      some ⟨s.parts, some ⟨false, position, fun _ => .none, [], .polling⟩⟩
  | .crash => some (stopped s)
  | .cancel => s.run.map fun r => { s with run := some { r with cancelled := true } }
  | .poll order records => s.run.bind fun r =>
    match r.pc with
    | .polling =>
      if r.cancelled then some (stopped s)
      else if ∀ p ∈ order, (s.parts p).returns (r.position p) (records p) then
        let polled p := if p ∈ order then records p else []
        some
          { parts := fun p => (s.parts p).deliver (polled p)
            run := some { r with
              position := fun p => advance (r.position p) (polled p)
              work := fun p => ⟨polled p, polled p, []⟩
              rewind := []
              pc := .handling order } }
      else none
    | _ => none
  | .next => s.run.bind fun r =>
    match r.pc with
    | .handling [] => some { s with run := some { r with pc := .committing } }
    | .handling (p :: order) =>
      match (r.work p).todo with
      | [] => some { s with run := some { r with pc := .handling order } }
      | o :: _ =>
        -- a shutdown leaves the rest of the partition, and is no failure
        if r.cancelled then some { s with run := some { r with
          work := Function.update r.work p { r.work p with todo := [] }, pc := .handling order } }
        else some { s with run := some { r with pc := .calling p o order } }
    | _ => none
  | .handled ok => s.run.bind fun r =>
    match r.pc with
    | .calling p o order =>
      let work := r.work p
      if ok then some
        { parts := Function.update s.parts p ((s.parts p).succeed o)
          run := some { r with
            work := Function.update r.work p
              { work with todo := work.todo.tail, committable := work.committable ++ [o] }
            pc := .handling (p :: order) } }
      else some
        { parts := Function.update s.parts p ((s.parts p).fail work.todo)
          run := some { r with
            work := Function.update r.work p { work with todo := [] }
            rewind := (p, o) :: r.rewind
            pc := .handling order } }
    | _ => none
  | .commit applied => s.run.bind fun r =>
    match r.pc with
    | .committing => some
        { parts := fun p =>
            if applied p then (s.parts p).commit (r.work p).committable else s.parts p
          run := some { r with
            work := fun _ => .none
            pc := if r.rewind = [] then .polling else .rewinding } }
    | _ => none
  | .setOffsets => s.run.bind fun r =>
    match r.pc with
    | .rewinding => some { s with run := some { r with
        position := fun p => (r.rewind.lookup p).getD (r.position p)
        rewind := []
        pc := .backingOff } }
    | _ => none
  | .retry stop => s.run.bind fun r =>
    match r.pc with
    | .backingOff =>
      if stop then if r.cancelled then some (stopped s) else none
      else some { s with run := some { r with pc := .polling } }
    | _ => none

end Pivox.IdentitySync
