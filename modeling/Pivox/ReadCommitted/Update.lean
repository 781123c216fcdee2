import Pivox.ReadCommitted.Session

/-!
A single statement on the committed rows.
-/

namespace ReadCommitted
variable {S : Schema} {db : Db S} {k k' : S.Key} {stmt : S.Stmt k}

/-- The rows that a statement leaves: those before it when its WHERE clause misses. -/
def update (db : Db S) (k : S.Key) (stmt : S.Stmt k) : Db S :=
  match S.exec k stmt (db.lookup k) with
  | some new => put db k new
  | none => db

theorem update_of_exec {new : Option (S.Row k)} (h : S.exec k stmt (db.lookup k) = some new) :
    update db k stmt = put db k new := by
  rw [update, h]

theorem update_cases (db : Db S) (k : S.Key) (stmt : S.Stmt k) : update db k stmt = db ∨
    ∃ new, S.exec k stmt (db.lookup k) = some new ∧ update db k stmt = put db k new := by
  cases h : S.exec k stmt (db.lookup k) with
  | none =>
    left
    rw [update, h]
  | some new => exact .inr ⟨new, rfl, update_of_exec h⟩

end ReadCommitted
