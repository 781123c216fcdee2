import Pivox.ReadCommitted.Rowwise

/-!
Programs written as scripts: statements in sequence, each of which may leave with an error, and
the transaction that runs a script between BEGIN and COMMIT.
-/

namespace ReadCommitted
variable {S : Schema} {Op E α β : Type}

/-- A script is given what to do with its result. -/
def Script (S : Schema) (E α : Type) := (Except E α → Prog S) → Prog S

namespace Script

protected def bind (m : Script S E α) (f : α → Script S E β) : Script S E β :=
  fun k => m fun
    | .ok a => f a k
    | .error e => k (.error e)

instance : Monad (Script S E) where
  pure a := fun k => k (.ok a)
  bind := Script.bind

instance : MonadExcept E (Script S E) where
  throw e := fun k => k (.error e)
  tryCatch m h := fun k => m fun
    | .ok a => k (.ok a)
    | .error e => h e k

/-- The script as one that always succeeds, its error a value. -/
def attempt (m : Script S E α) : Script S E (Except E α) := fun k => m fun r => k (.ok r)

def ask (q : S.Ask) : Script S E (S.Answer q) := fun k => .ask q fun a => k (.ok a)

def read (failed : E) (q : S.Query) : Script S E (S.Result q) :=
  fun k => .read q fun
    | some a => k (.ok a)
    | none => k (.error failed)

/-- A statement on one row: the row it leaves, or `noRows` when its WHERE clause misses. -/
def write (failed noRows : E) (key : S.Key) (stmt : S.Stmt key) :
    Script S E (Option (S.Row key)) :=
  fun k => .write key stmt fun
    | .failed => k (.error failed)
    | .noRows => k (.error noRows)
    | .row new => k (.ok new)

/-- A statement of which a miss is no error. -/
def exec (failed : E) (key : S.Key) (stmt : S.Stmt key) : Script S E Unit :=
  fun k => .write key stmt fun
    | .failed => k (.error failed)
    | _ => k (.ok ())

/- A dry run leaves by the rollback that a committed transaction skips. -/
def ending (failed : E) (validateOnly : Bool) (k : Except E α → Prog S) : Except E α → Prog S
  | .ok a =>
    if validateOnly then .rollback (k (.ok a))
    else .commit fun committed => if committed then k (.ok a) else k (.error failed)
  | .error e => .rollback (k (.error e))

def transaction (failed : E) (validateOnly : Bool) (body : Script S E α) : Script S E α :=
  fun k => .beginTx fun begun =>
    if begun then body (ending failed validateOnly k) else k (.error failed)

/-- Go through a list, stopping at the first error. -/
def forEach (f : α → Script S E Unit) : List α → Script S E Unit
  | [] => pure ()
  | a :: as => do
    f a
    forEach f as

def run (m : Script S E α) : Prog S := m fun _ => .done

theorem pure_bind (a : α) (f : α → Script S E β) : (pure a : Script S E α) >>= f = f a := rfl

end Script

namespace Rowwise
variable {R : Rowwise S Op} {log : Log S Op} {mode : Mode} {own : Pending S} {failed noRows : E}

theorem safe_ending {validateOnly : Bool} {k : Except E α → Prog S}
    (hk : ∀ r, R.Safe (k r) .idle ∅ log) (r : Except E α) :
    R.Safe (Script.ending failed validateOnly k r) mode own log := by
  cases r with
  | error e => exact hk _
  | ok a =>
    cases validateOnly with
    | true => exact hk _
    | false => exact ⟨hk _, fun _ => hk _⟩

theorem safe_bind {m : Script S E α} {f : α → Script S E β} {k : Except E β → Prog S}
    (h : R.Safe (m fun
      | .ok a => f a k
      | .error e => k (.error e)) mode own log) : R.Safe ((m >>= f) k) mode own log := h

theorem safe_attempt {m : Script S E α} {k : Except E (Except E α) → Prog S}
    (h : R.Safe (m fun r => k (.ok r)) mode own log) : R.Safe (m.attempt k) mode own log := h

theorem safe_ask {q : S.Ask} {k : Except E (S.Answer q) → Prog S}
    (h : ∀ a, R.Safe (k (.ok a)) mode own (log.add (.answered q a))) :
    R.Safe (Script.ask q k) mode own log :=
  fun _ _ a _ => h a

theorem safe_read {q : S.Query} {k : Except E (S.Result q) → Prog S}
    (hfail : R.Safe (k (.error failed)) mode.failed ∅ log)
    (h : ∀ db, R.Good db → R.Safe (k (.ok (S.answer q (overlay own db)))) mode own
      (log.add (.read q (S.answer q (overlay own db))))) :
    R.Safe (Script.read failed q k) mode own log :=
  ⟨hfail, fun _ db hdb => h db hdb⟩

variable {key : S.Key} {stmt : S.Stmt key}

theorem safe_write {k : Except E (Option (S.Row key)) → Prog S}
    (hfail : R.Safe (k (.error failed)) .aborted ∅ log)
    (hmiss : R.Safe (k (.error noRows)) .active own log)
    (hhit : ∀ cur new, R.good key cur → (∀ r, own.lookup key = some r → cur = r) →
      S.exec key stmt cur = some new → R.allow key stmt cur →
      R.good key new ∧ R.change log key cur new ∧
        R.Safe (k (.ok new)) .active (own.insert key new) log) :
    R.Safe (Script.write failed noRows key stmt k) .active own log := by
  refine ⟨hfail, fun _ cur hgood hcur => ⟨fun _ => hmiss, fun new hx hallow => ?_⟩⟩
  obtain ⟨hnew, hchange, hsafe⟩ := hhit cur new hgood hcur hx hallow
  exact ⟨hnew, hchange, fun _ => hsafe, nofun⟩

/- Where a script may leave its session: one started outside of a transaction opens none. -/
structure Leads (mode mode' : Mode) (own : Pending S) : Prop where
  own : mode' = .idle → own = ∅
  idle : mode = .idle → mode' = .idle

theorem Leads.refl (h : mode = .idle → own = ∅) : Leads mode mode own := ⟨h, id⟩

theorem Leads.trans {mode' mode'' : Mode} {own' : Pending S} (h : Leads mode mode' own)
    (h' : Leads mode' mode'' own') : Leads mode mode'' own' :=
  ⟨h'.own, fun hm => h'.idle (h.idle hm)⟩

theorem Leads.of_failed (mode : Mode) : Leads mode mode.failed (∅ : Pending S) :=
  ⟨fun _ => rfl, fun hm => by rw [hm]; rfl⟩

variable (R) (op : Op)

/-- In a session about `op` the script keeps the contract, whatever follows it. -/
def KeptBy (m : Script S E α) : Prop :=
  ∀ mode own log (k : Except E α → Prog S), log.op = op → (mode = .idle → own = ∅) →
    (∀ r mode' own', Leads mode mode' own' → R.Safe (k r) mode' own' log) →
    R.Safe (m k) mode own log

/-- A statement that changes any good row as the contract lets a session about `op`. -/
def Lawful (key : S.Key) (stmt : S.Stmt key) : Prop :=
  ∀ cur new, R.good key cur → S.exec key stmt cur = some new → R.allow key stmt cur →
    R.good key new ∧ ∀ log : Log S Op, log.op = op → R.change log key cur new

variable {R op}

theorem kept_pure (a : α) : R.KeptBy op (pure a : Script S E α) :=
  fun _ _ _ _ _ hown hk => hk _ _ _ (.refl hown)

theorem kept_throw (e : E) : R.KeptBy op (throw e : Script S E α) :=
  fun _ _ _ _ _ hown hk => hk _ _ _ (.refl hown)

theorem KeptBy.bind {m : Script S E α} {f : α → Script S E β} (hm : R.KeptBy op m)
    (hf : ∀ a, R.KeptBy op (f a)) : R.KeptBy op (m >>= f) := by
  intro mode own log k hlog hown hk
  refine safe_bind (hm mode own log _ hlog hown fun r mode' own' hl => ?_)
  cases r with
  | error e => exact hk _ _ _ hl
  | ok a => exact hf a mode' own' log k hlog hl.own fun r _ _ hl' => hk r _ _ (hl.trans hl')

theorem KeptBy.attempt {m : Script S E α} (hm : R.KeptBy op m) : R.KeptBy op m.attempt :=
  fun mode own log _ hlog hown hk => hm mode own log _ hlog hown fun _ _ _ hl => hk _ _ _ hl

theorem KeptBy.tryCatch {m : Script S E α} {h : E → Script S E α} (hm : R.KeptBy op m)
    (hh : ∀ e, R.KeptBy op (h e)) : R.KeptBy op (tryCatch m h) := by
  intro mode own log k hlog hown hk
  refine hm mode own log _ hlog hown fun r mode' own' hl => ?_
  cases r with
  | ok a => exact hk _ _ _ hl
  | error e => exact hh e mode' own' log k hlog hl.own fun r _ _ hl' => hk r _ _ (hl.trans hl')

theorem kept_ask (q : S.Ask) : R.KeptBy op (Script.ask q : Script S E (S.Answer q)) :=
  fun mode own log _ _ hown hk _ _ _ _ =>
    (hk _ mode own (.refl hown)).log_subset (log.extends_add _)

theorem kept_read (q : S.Query) : R.KeptBy op (Script.read failed q) :=
  fun mode own log _ _ hown hk => ⟨hk _ _ _ (.of_failed mode), fun _ _ _ =>
    (hk _ mode own (.refl hown)).log_subset (log.extends_add _)⟩

theorem kept_write (h : R.Lawful op key stmt) : R.KeptBy op (Script.write failed noRows key stmt) := by
  intro mode own log k hlog hown hk
  refine ⟨hk _ _ _ (.of_failed mode), fun hm cur hgood _ => ⟨fun _ => hk _ _ _ (.refl hown), ?_⟩⟩
  intro new hx hallow
  obtain ⟨hnew, hchange⟩ := h cur new hgood hx hallow
  exact ⟨hnew, hchange log hlog, fun hm => hk _ _ _ ⟨nofun, fun h => by simp [hm] at h⟩,
    fun hm => hk _ _ _ ⟨fun _ => rfl, fun _ => rfl⟩⟩

theorem kept_exec (h : R.Lawful op key stmt) : R.KeptBy op (Script.exec failed key stmt) := by
  intro mode own log k hlog hown hk
  refine ⟨hk _ _ _ (.of_failed mode), fun hm cur hgood _ => ⟨fun _ => hk _ _ _ (.refl hown), ?_⟩⟩
  intro new hx hallow
  obtain ⟨hnew, hchange⟩ := h cur new hgood hx hallow
  exact ⟨hnew, hchange log hlog, fun hm => hk _ _ _ ⟨nofun, fun h => by simp [hm] at h⟩,
    fun hm => hk _ _ _ ⟨fun _ => rfl, fun _ => rfl⟩⟩

theorem kept_forEach {f : α → Script S E Unit} (hf : ∀ a, R.KeptBy op (f a)) (as : List α) :
    R.KeptBy op (Script.forEach f as) := by
  induction as with
  | nil => exact kept_pure ()
  | cons a as ih => exact (hf a).bind fun _ => ih

/-- A transaction keeps the contract when its body does, up to the COMMIT or the rollback. -/
theorem kept_transaction {validateOnly : Bool} {body : Script S E α}
    (hbody : ∀ log (k : Except E α → Prog S), log.op = op →
      (∀ r mode own, R.Safe (k r) mode own log) → R.Safe (body k) .active ∅ log) :
    R.KeptBy op (Script.transaction failed validateOnly body) := by
  intro mode own log k hlog _ hk
  have hidle : ∀ r, R.Safe (k r) .idle ∅ log := fun r => hk r _ _ ⟨fun _ => rfl, fun _ => rfl⟩
  exact ⟨hidle _, hbody log _ hlog fun r _ _ => safe_ending hidle r⟩

theorem KeptBy.body {m : Script S E α} (hm : R.KeptBy op m) (log : Log S Op) (k : Except E α → Prog S)
    (hlog : log.op = op) (hk : ∀ r mode own, R.Safe (k r) mode own log) :
    R.Safe (m k) .active ∅ log :=
  hm _ _ _ _ hlog nofun fun r mode own _ => hk r mode own

theorem KeptBy.run {m : Script S E α} (hm : R.KeptBy op m) (db : Db S) :
    ReadCommitted.Safe R.contract m.run .idle ∅ (.start op) db :=
  Safe.contract (hm _ _ _ _ rfl (fun _ => rfl) fun _ _ _ _ => trivial) (fits_empty _ _) fun _ => rfl

end Rowwise

end ReadCommitted
