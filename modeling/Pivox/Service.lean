import Pivox.ReadCommitted.Outline

/-!
What the services share: identifiers, rows that are deleted for good, errors, and the way a one-row
query hands its row back.
-/

namespace Pivox
open ReadCommitted

abbrev Id := Nat
abbrev Time := Nat
abbrev Json := String

/- The primary keys are UUIDs and never used twice: a deleted row leaves `gone`. -/
inductive Slot (α : Type) where
  | live (row : α)
  | gone
  deriving DecidableEq, Repr

inductive Err where
  | database
  | noRows
  | notFound
  | alreadyExists
  | aborted
  | invalidArgument (field : String)
  | internal (what : String)
  | failedPrecondition (what : String)
  | unavailable
  | terminalDefinition (cause : String)
  | retryable
  | interrupted
  deriving DecidableEq, Repr

def handleResourceError : Err → Err
  | .noRows => .notFound
  | _ => .internal "database error"

variable {S : Schema} {Op α β : Type}

/- The row that a one-row statement hands back. -/
def returned : Option (Slot α) → Script S Err α
  | some (.live row) => pure row
  | _ => throw .noRows

/- A :one query: no row is an error of its own. -/
def found : Option α → Script S Err α
  | some a => pure a
  | none => throw .noRows

def mapError (f : Err → Err) (m : Script S Err α) : Script S Err α :=
  tryCatch m fun e => throw (f e)

/- What the marshallers make of a field: its JSONB column or the text of an error. -/
abbrev Marshalled := Except String Json

/- A field that the mask leaves out is left as it is. -/
def masked (inScope : Bool) (a : α) : Option α := if inScope then some a else none

def maskedColumn (field : String) (inScope : Bool) (m : Except String α) :
    Script S Err (Option α) :=
  if inScope then
    match m with
    | .ok a => pure (some a)
    | .error _ => throw (.invalidArgument field)
  else pure none

def checkEtag (expected actual : String) : Script S Err Unit :=
  if expected ≠ "" ∧ expected ≠ actual then throw .aborted else pure ()

theorem bind_eq_ok {ε : Type} {x : Except ε α} {f : α → Except ε β} {b : β} :
    (x >>= f) = .ok b ↔ ∃ a, x = .ok a ∧ f a = .ok b := by
  cases x with
  | error e => simp [bind, Except.bind]
  | ok a => simp [bind, Except.bind]

variable {R : Rowwise S Op} {op : Op} {log : Log S Op} {own : Pending S} {mode : Mode}

theorem kept_found (row : Option α) : R.KeptBy op (found row) := by
  cases row with
  | none => exact Rowwise.kept_throw _
  | some a => exact Rowwise.kept_pure a

theorem kept_returned (row : Option (Slot α)) : R.KeptBy op (returned row) := by
  obtain _ | a | _ := row
  · exact Rowwise.kept_throw _
  · exact Rowwise.kept_pure a
  · exact Rowwise.kept_throw _

theorem kept_mapError (f : Err → Err) {m : Script S Err α} (hm : R.KeptBy op m) :
    R.KeptBy op (mapError f m) :=
  hm.tryCatch fun _ => Rowwise.kept_throw _

theorem safe_mapError {f : Err → Err} {m : Script S Err α} {k : Except Err α → Prog S}
    (h : R.Safe (m fun
      | .ok a => k (.ok a)
      | .error e => k (.error (f e))) mode own log) : R.Safe (mapError f m k) mode own log := by
  have heq : mapError f m k = m fun
      | .ok a => k (.ok a)
      | .error e => k (.error (f e)) := by
    refine congrArg m (funext fun r => ?_)
    cases r <;> rfl
  rwa [heq]

section outline
variable {Γ : Contract S Op} {J P : Assertion Γ} {Q : α → Assertion Γ} {failed : Err}

theorem outline_mapError (f : Err → Err) {m : Script S Err α} (hm : Outline J P m Q) :
    Outline J P (mapError f m) Q :=
  hm.tryCatch fun _ => .throw _

theorem between_mapError (f : Err → Err) {m : Script S Err α} (hm : Between P m Q) :
    Between P (mapError f m) Q :=
  hm.tryCatch fun _ => .throw _

theorem outline_found {row : Option α} {R : Option α → Assertion Γ}
    (h : ∀ a own log db, (R (some a)).holds own log db → (Q a).holds own log db) :
    Outline J (R row) (found row) Q := by
  cases row with
  | none => exact .throw _
  | some a => exact Outline.conseq .pure (fun own log db _ _ => h a own log db) fun _ _ _ _ _ _ => id

/- What holds of a row holds of a live one, if there is one. -/
def handed (Q : α → Assertion Γ) : Option (Slot α) → Assertion Γ
  | some (.live a) => Q a
  | _ => .top

theorem outline_returned {row : Option (Slot α)} {R : Option (Slot α) → Assertion Γ}
    (h : ∀ a own log db, (R (some (.live a))).holds own log db → (Q a).holds own log db) :
    Outline J (R row) (returned row) Q := by
  obtain _ | a | _ := row
  · exact .throw _
  · exact Outline.conseq .pure (fun own log db _ _ => h a own log db) fun _ _ _ _ _ _ => id
  · exact .throw _

theorem between_returned {row : Option (Slot α)} : Between P (returned row) fun _ => P := by
  obtain _ | a | _ := row
  · exact .throw _
  · exact .ret a
  · exact .throw _

theorem between_found {row : Option α} {R : Option α → Assertion Γ}
    (h : ∀ a log db, (R (some a)).holds ∅ log db → (Q a).holds ∅ log db) :
    Between (R row) (found row) Q := by
  cases row with
  | none => exact .throw _
  | some a => exact Between.conseq .pure (fun log db => h a log db) fun _ _ _ => id

/- A query, for the answer that it gave. -/
theorem outline_query {q : S.Query} {Q : S.Result q → Assertion Γ}
    (h : ∀ own log db a, J.holds own log db → P.holds own log db →
      S.answer q (overlay own db) = a → (Q a).holds own (log.add (.read q a)) db) :
    Outline J P (Script.read failed q) Q :=
  .read fun own log db _ hJ hP => h own log db _ hJ hP rfl

theorem outline_look {q : S.Query} :
    Outline J P (Script.read failed q : Script S Err (S.Result q)) fun _ => P :=
  outline_query fun own log db _ _ hP _ => P.add own log db _ hP

theorem outline_ask {q : S.Ask} :
    Outline J P (Script.ask q : Script S Err (S.Answer q)) fun _ => P :=
  .ask q

theorem outline_seen {row : Option α} :
    Outline J P (found row : Script S Err α) fun _ => P :=
  outline_found (R := fun _ => P) fun _ _ _ _ h => h

theorem outline_handed {row : Option (Slot α)} :
    Outline J P (returned row : Script S Err α) fun _ => P :=
  outline_returned (R := fun _ => P) fun _ _ _ _ h => h

theorem outline_checkEtag (expected actual : String) :
    Outline J P (checkEtag expected actual : Script S Err Unit) fun _ => P := by
  unfold checkEtag
  split_ifs
  · exact .throw _
  · exact .ret ()

theorem between_ask {q : S.Ask} :
    Between P (Script.ask q : Script S Err (S.Answer q)) fun _ => P :=
  .ask q

theorem between_look {q : S.Query} :
    Between P (Script.read failed q : Script S Err (S.Result q)) fun _ => P :=
  .read fun log db _ hP => P.add ∅ log db _ hP

theorem between_seen {row : Option α} :
    Between P (found row : Script S Err α) fun _ => P :=
  between_found (R := fun _ => P) fun _ _ _ h => h

theorem between_maskedColumn (field : String) (inScope : Bool) (m : Except String α) :
    Between P (maskedColumn field inScope m : Script S Err (Option α)) fun _ => P := by
  unfold maskedColumn
  split_ifs
  · cases m with
    | ok a => exact .ret _
    | error e => exact .throw _
  · exact .ret _

end outline

/- The rows of a table, collected from those of all tables. -/
theorem mem_collected {κ γ : Type} {ρ : κ → Type} [DecidableEq κ] {db : AList ρ}
    {f : Sigma ρ → Option γ} {key : κ} {row : ρ key} {c : γ}
    (h : ∀ e, f e = some c ↔ e = ⟨key, row⟩) :
    c ∈ db.entries.filterMap f ↔ db.lookup key = some row := by
  rw [← Option.mem_def, AList.mem_lookup_iff]
  simp only [List.mem_filterMap, h, exists_eq_right]

/- No row of it is collected twice. -/
theorem nodup_collected {κ γ : Type} {ρ : κ → Type} [DecidableEq κ] {db : AList ρ}
    {f : Sigma ρ → Option γ} (entry : γ → Sigma ρ) (h : ∀ e c, f e = some c → e = entry c) :
    (db.entries.filterMap f).Nodup := by
  refine List.Nodup.filterMap (fun e e' c hc hc' => ?_) db.nodupKeys.nodup
  rw [h e c hc, h e' c hc']

end Pivox
