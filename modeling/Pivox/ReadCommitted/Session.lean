import Mathlib.Data.List.AList
import Pivox.Transition

/-!
Sessions of a row store at READ COMMITTED. A statement sees the rows committed when it starts,
overlaid with the writes of its own open transaction; a row that a transaction wrote or selected
FOR UPDATE stays locked for the other sessions until that transaction ends.
-/

namespace ReadCommitted
open Transition

/-- Tables, statements and queries of a store, and the questions its programs ask outside of it.
`exec k stmt old` is what a statement does to one row: `none` when its WHERE clause misses, else
the row that it leaves (`some none` when it deletes the row). -/
structure Schema where
  Key : Type
  [keyEq : DecidableEq Key]
  Row : Key → Type
  Stmt : Key → Type
  exec : (k : Key) → Stmt k → Option (Row k) → Option (Option (Row k))
  Query : Type
  Result : Query → Type
  answer : (q : Query) → AList Row → Result q
  Ask : Type
  [askEq : DecidableEq Ask]
  Answer : Ask → Type

attribute [instance] Schema.keyEq Schema.askEq

variable {S : Schema}

abbrev Db (S : Schema) := AList S.Row

/- The writes of an open transaction: each is also a lock on its row. -/
abbrev Pending (S : Schema) := AList fun k => Option (S.Row k)

inductive Reply (S : Schema) (k : S.Key) where
  | failed
  | noRows
  | row (new : Option (S.Row k))

inductive Prog (S : Schema) where
  | done
  | beginTx (next : Bool → Prog S)
  | commit (next : Bool → Prog S)
  | rollback (next : Prog S)
  | read (q : S.Query) (next : Option (S.Result q) → Prog S)
  | write (k : S.Key) (stmt : S.Stmt k) (next : Reply S k → Prog S)
  | ask (q : S.Ask) (next : S.Answer q → Prog S)

def Prog.isDone : Prog S → Bool
  | .done => true
  | _ => false

/- The query it makes next. -/
def Prog.nextQuery : Prog S → Option S.Query
  | .read q _ => some q
  | _ => none

/- A failed statement aborts its transaction: what follows fails until the rollback. -/
inductive Mode where
  | idle
  | active
  | aborted
  deriving DecidableEq

def Mode.failed : Mode → Mode
  | .idle => .idle
  | _ => .aborted

@[simp] theorem Mode.failed_idle : Mode.idle.failed = .idle := rfl
@[simp] theorem Mode.failed_active : Mode.active.failed = .aborted := rfl
@[simp] theorem Mode.failed_aborted : Mode.aborted.failed = .aborted := rfl

inductive Event (S : Schema) where
  | read (q : S.Query) (a : S.Result q)
  | answered (q : S.Ask) (a : S.Answer q)

/- What a session is about, and what it has learnt so far (the last first). -/
structure Log (S : Schema) (Op : Type) where
  op : Op
  events : List (Event S)

variable {Op : Type}

def Log.start (op : Op) : Log S Op := ⟨op, []⟩

def Log.add (log : Log S Op) (e : Event S) : Log S Op := ⟨log.op, e :: log.events⟩

/-- The longer log of the same session. -/
structure Log.Extends (log' log : Log S Op) : Prop where
  op : log'.op = log.op
  events : log.events ⊆ log'.events

theorem Log.Extends.refl (log : Log S Op) : log.Extends log := ⟨rfl, List.Subset.refl _⟩

theorem Log.extends_add (log : Log S Op) (e : Event S) : (log.add e).Extends log :=
  ⟨rfl, List.subset_cons_self e log.events⟩

theorem Log.Extends.add {log log' : Log S Op} (h : log'.Extends log) (e : Event S) :
    (log'.add e).Extends (log.add e) :=
  ⟨h.op, List.cons_subset_cons e h.events⟩

/- `saved` is the code (and the log) at the last BEGIN, where a retried transaction restarts. -/
structure Session (S : Schema) (Op : Type) where
  code : Prog S
  mode : Mode
  own : Pending S
  log : Log S Op
  saved : Prog S × Log S Op

def Session.start (code : Op → Prog S) (op : Op) : Session S Op :=
  ⟨code op, .idle, ∅, .start op, code op, .start op⟩

def put (db : Db S) (k : S.Key) : Option (S.Row k) → Db S
  | some r => db.insert k r
  | none => db.erase k

def putAll (db : Db S) : List (Sigma fun k => Option (S.Row k)) → Db S
  | [] => db
  | ⟨k, r⟩ :: es => put (putAll db es) k r

/-- The rows a session sees: the committed ones under its own pending writes. -/
def overlay (own : Pending S) (db : Db S) : Db S := putAll db own.entries

theorem lookup_put (db : Db S) (k : S.Key) (r : Option (S.Row k)) :
    (put db k r).lookup k = r := by
  cases r with
  | none => exact AList.lookup_erase k db
  | some r => exact AList.lookup_insert db

theorem lookup_put_ne (db : Db S) {k k' : S.Key} (r : Option (S.Row k)) (h : k' ≠ k) :
    (put db k r).lookup k' = db.lookup k' := by
  cases r with
  | none => exact AList.lookup_erase_ne h
  | some r => exact AList.lookup_insert_ne h

theorem lookup_putAll (db : Db S) (es : List (Sigma fun k => Option (S.Row k)))
    (k : S.Key) :
    (putAll db es).lookup k = (List.dlookup k es).getD (db.lookup k) := by
  induction es with
  | nil => simp [putAll]
  | cons e es ih =>
    obtain ⟨k', r⟩ := e
    by_cases h : k = k'
    · subst h
      simp [putAll, lookup_put]
    · rw [putAll, lookup_put_ne _ _ h, ih, List.dlookup_cons_ne _ _ h]

theorem lookup_overlay (own : Pending S) (db : Db S) (k : S.Key) :
    (overlay own db).lookup k = (own.lookup k).getD (db.lookup k) :=
  lookup_putAll db own.entries k

@[simp] theorem overlay_empty (db : Db S) : overlay ∅ db = db := rfl

theorem lookup_overlay_of_notMem {own : Pending S} {k : S.Key} (h : k ∉ own) (db : Db S) :
    (overlay own db).lookup k = db.lookup k := by
  rw [lookup_overlay, AList.lookup_eq_none.mpr h]
  rfl

theorem lookup_overlay_of_none {own : Pending S} {db : Db S} {k : S.Key}
    (h : own.lookup k = none) : (overlay own db).lookup k = db.lookup k := by
  rw [lookup_overlay, h]
  rfl

theorem lookup_overlay_of_some {own : Pending S} {db : Db S} {k : S.Key} {r : Option (S.Row k)}
    (h : own.lookup k = some r) : (overlay own db).lookup k = r := by
  rw [lookup_overlay, h]
  rfl

theorem lookup_overlay_insert (own : Pending S) (db : Db S) (k : S.Key)
    (r : Option (S.Row k)) : (overlay (own.insert k r) db).lookup k = r := by
  rw [lookup_overlay, AList.lookup_insert]
  rfl

theorem lookup_overlay_insert_ne (own : Pending S) (db : Db S) {k k' : S.Key}
    (r : Option (S.Row k)) (h : k' ≠ k) :
    (overlay (own.insert k r) db).lookup k' = (overlay own db).lookup k' := by
  rw [lookup_overlay, lookup_overlay, AList.lookup_insert_ne h]

/-- The rows a session's statement leaves when it may write row `k`. -/
def Session.write (s : Session S Op) (locked : S.Key → Bool) (db : Db S) (k : S.Key)
    (stmt : S.Stmt k) (next : Reply S k → Prog S) : Option (Session S Op × Db S) :=
  match s.mode with
  | .aborted => some ({ s with code := next .failed }, db)
  | .active =>
    match S.exec k stmt ((overlay s.own db).lookup k) with
    | none => some ({ s with code := next .noRows }, db)
    | some new =>
      if locked k then none
      else some ({ s with code := next (.row new), own := s.own.insert k new }, db)
  | .idle =>
    match S.exec k stmt (db.lookup k) with
    | none => some ({ s with code := next .noRows }, db)
    | some new =>
      if locked k then none else some ({ s with code := next (.row new) }, put db k new)

def Session.read (s : Session S Op) (db : Db S) (q : S.Query)
    (next : Option (S.Result q) → Prog S) : Session S Op :=
  match s.mode with
  | .aborted => { s with code := next none }
  | _ =>
    let a := S.answer q (overlay s.own db)
    { s with code := next (some a), log := s.log.add (.read q a) }

def Session.commit (s : Session S Op) (db : Db S) (next : Bool → Prog S) :
    Session S Op × Db S :=
  match s.mode with
  | .active => ({ s with code := next true, mode := .idle, own := ∅ }, overlay s.own db)
  | _ => ({ s with code := next false, mode := .idle, own := ∅ }, db)

/-- The next statement runs; a write to a row locked by another session waits. -/
def Session.run (s : Session S Op) (locked : S.Key → Bool) (db : Db S) :
    Option (Session S Op × Db S) :=
  match s.code with
  | .done => none
  | .ask _ _ => none
  | .beginTx next =>
    match s.mode with
    | .idle => some ({ s with code := next true, mode := .active, own := ∅,
                              saved := (s.code, s.log) }, db)
    | _ => none
  | .commit next => some (s.commit db next)
  | .rollback next => some ({ s with code := next, mode := .idle, own := ∅ }, db)
  | .read q next => some (s.read db q next, db)
  | .write k stmt next => s.write locked db k stmt next

/-- The next statement fails: a lost connection, a cancelled context, a constraint. -/
def Session.fail (s : Session S Op) : Option (Session S Op) :=
  match s.code with
  | .beginTx next => some { s with code := next false, mode := .idle, own := ∅ }
  | .commit next => some { s with code := next false, mode := .idle, own := ∅ }
  | .read _ next => some { s with code := next none, mode := s.mode.failed, own := ∅ }
  | .write _ _ next => some { s with code := next .failed, mode := s.mode.failed, own := ∅ }
  | _ => none

/-- The next COMMIT or single statement takes effect, but its reply is lost. -/
def Session.lose (s : Session S Op) (locked : S.Key → Bool) (db : Db S) :
    Option (Session S Op × Db S) :=
  match s.code, s.mode with
  | .commit next, .active =>
    some ({ s with code := next false, mode := .idle, own := ∅ }, overlay s.own db)
  | .write k stmt next, .idle =>
    match S.exec k stmt (db.lookup k) with
    | none => none
    | some new => if locked k then none else some ({ s with code := next .failed }, put db k new)
  | _, _ => none

def Session.answer (s : Session S Op) (q : S.Ask) (a : S.Answer q) : Option (Session S Op) :=
  match s.code with
  | .ask q' next =>
    if h : q = q' then some { s with code := next (h ▸ a), log := s.log.add (.answered q a) }
    else none
  | _ => none

/- A transaction that the server aborts for a conflict is run again from its BEGIN. -/
def Session.retry (s : Session S Op) : Option (Session S Op) :=
  if s.code.isDone || s.mode = .idle then none
  else some { s with code := s.saved.1, log := s.saved.2, mode := .idle, own := ∅ }

def Session.crash (s : Session S Op) : Session S Op :=
  { s with code := .done, mode := .idle, own := ∅ }

inductive Act (S : Schema) where
  | run
  | fail
  | lose
  | answer (q : S.Ask) (a : S.Answer q)
  | retry
  | crash

/- The acts that carry out the statement a session is at. -/
def Act.executes : Act S → Bool
  | .run => true
  | .lose => true
  | _ => false

def Session.act (s : Session S Op) (locked : S.Key → Bool) (db : Db S) :
    Act S → Option (Session S Op × Db S)
  | .run => s.run locked db
  | .fail => s.fail.map (·, db)
  | .lose => s.lose locked db
  | .answer q a => (s.answer q a).map (·, db)
  | .retry => s.retry.map (·, db)
  | .crash => some (s.crash, db)

structure State (S : Schema) (Op : Type) where
  db : Db S
  sessions : List (Session S Op)

inductive Label (S : Schema) (Op : Type) where
  | spawn (op : Op)
  | act (p : Nat) (a : Act S)

abbrev Label.run (p : Nat) : Label S Op := .act p .run

abbrev Label.told (p : Nat) (q : S.Ask) (a : S.Answer q) : Label S Op :=
  .act p (.answer q a)

def lockedBy (others : List (Session S Op)) (k : S.Key) : Bool :=
  others.any fun s => decide (k ∈ s.own)

/-- One step of the store: an operation arrives, or session `p` does something. -/
def step (code : Op → Prog S) (st : State S Op) : Label S Op → Option (State S Op)
  | .spawn op => some ⟨st.db, st.sessions ++ [.start code op]⟩
  | .act p a =>
    match st.sessions[p]? with
    | none => none
    | some s =>
      match s.act (lockedBy (st.sessions.eraseIdx p)) st.db a with
      | none => none
      | some (s', db') => some ⟨db', st.sessions.set p s'⟩

variable {code : Op → Prog S} {st st' : State S Op}

theorem step_act {p : Nat} {a : Act S} (h : step code st (.act p a) = some st') :
    ∃ s s', st.sessions[p]? = some s ∧
      s.act (lockedBy (st.sessions.eraseIdx p)) st.db a = some (s', st'.db) ∧
      st'.sessions = st.sessions.set p s' := by
  cases hs : st.sessions[p]? with
  | none => simp [step, hs] at h
  | some s =>
    cases ha : s.act (lockedBy (st.sessions.eraseIdx p)) st.db a with
    | none => simp [step, hs, ha] at h
    | some r =>
      obtain ⟨s', db'⟩ := r
      simp only [step, hs, ha, Option.some.injEq] at h
      subst h
      exact ⟨s, s', rfl, ha, rfl⟩

end ReadCommitted
