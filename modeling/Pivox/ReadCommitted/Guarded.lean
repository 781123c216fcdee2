import Mathlib.Algebra.Order.Monoid.WithTop
import Pivox.ReadCommitted.Outline

/-!
Rows under the lock of another row: every write moves the stamp of its row on, and certain changes
are made only by sessions that have moved the stamp of a row that guards them.
-/

namespace ReadCommitted
variable {S : Schema} {Op E α : Type}

/-- `guards g k old new` says that only a session that wrote row `g` may turn `old` into `new`;
`stays` is what any changes leave of a row, and `Local g` an invariant that no change breaks but
those of row `g` and the ones that it guards. -/
structure Guarded (S : Schema) where
  stamp : (k : S.Key) → Option (S.Row k) → WithTop ℕ
  guards : (g k : S.Key) → Option (S.Row k) → Option (S.Row k) → Prop
  stays : (k : S.Key) → Option (S.Row k) → Option (S.Row k) → Prop
  Local : S.Key → Db S → Prop
  guards_irrefl : ∀ g k r, ¬ guards g k r r
  guards_trans : ∀ g k r₁ r₂ r₃, ¬ guards g k r₁ r₂ → ¬ guards g k r₂ r₃ → ¬ guards g k r₁ r₃
  stays_refl : ∀ k r, stays k r r
  stays_trans : ∀ k r₁ r₂ r₃, stays k r₁ r₂ → stays k r₂ r₃ → stays k r₁ r₃
  local_of_agree : ∀ g (db db' : Db S), Local g db → db'.lookup g = db.lookup g →
    (∀ k, stays k (db.lookup k) (db'.lookup k)) →
    (∀ k, ¬ guards g k (db.lookup k) (db'.lookup k)) → Local g db'

/-- The change of a row that makes `p` true of it. -/
def Becomes (p : α → Prop) (old new : α) : Prop := ¬ p old ∧ p new

theorem Becomes.of_not {p : α → Prop} {old new : α} (h : ¬ Becomes p old new) (hp : p new) :
    p old := by
  by_contra hold
  exact h ⟨hold, hp⟩

theorem Becomes.not_trans {p : α → Prop} {a b c : α} (h : ¬ Becomes p a b) (h' : ¬ Becomes p b c) :
    ¬ Becomes p a c :=
  fun hac => hac.1 (of_not h (of_not h' hac.2))

namespace Guarded
variable (G : Guarded S)

/-- From one committed state to a later one. -/
structure Grows (db db' : Db S) : Prop where
  stays : ∀ k, G.stays k (db.lookup k) (db'.lookup k)
  stamp : ∀ k, G.stamp k (db.lookup k) ≤ G.stamp k (db'.lookup k)
  same : ∀ g, G.stamp g (db.lookup g) = G.stamp g (db'.lookup g) → db'.lookup g = db.lookup g
  guarded : ∀ g, G.stamp g (db.lookup g) = G.stamp g (db'.lookup g) →
    ∀ k, ¬ G.guards g k (db.lookup k) (db'.lookup k)

variable {G}

theorem Grows.refl (db : Db S) : G.Grows db db where
  stays _ := G.stays_refl _ _
  stamp _ := le_refl _
  same _ _ := rfl
  guarded _ _ _ := G.guards_irrefl _ _ _

theorem Grows.trans {a b c : Db S} (h : G.Grows a b) (h' : G.Grows b c) : G.Grows a c := by
  have hstep : ∀ g, G.stamp g (a.lookup g) = G.stamp g (c.lookup g) →
      G.stamp g (a.lookup g) = G.stamp g (b.lookup g) ∧
        G.stamp g (b.lookup g) = G.stamp g (c.lookup g) := by
    intro g heq
    have hab := h.stamp g
    have hbc := h'.stamp g
    have hba : G.stamp g (b.lookup g) ≤ G.stamp g (a.lookup g) := heq ▸ hbc
    exact ⟨le_antisymm hab hba, le_antisymm hbc (heq ▸ hab)⟩
  refine ⟨fun k => G.stays_trans _ _ _ _ (h.stays k) (h'.stays k),
    fun k => (h.stamp k).trans (h'.stamp k), fun g heq => ?_, fun g heq k => ?_⟩
  · obtain ⟨hab, hbc⟩ := hstep g heq
    rw [h'.same g hbc, h.same g hab]
  · obtain ⟨hab, hbc⟩ := hstep g heq
    exact G.guards_trans _ _ _ _ _ (h.guarded g hab k) (h'.guarded g hbc k)

/-- The pending writes of a transaction, against the committed rows that they will replace. -/
structure Owns (G : Guarded S) (own : Pending S) (db : Db S) : Prop where
  stamp : ∀ k r, own.lookup k = some r → G.stamp k (db.lookup k) < G.stamp k r
  stays : ∀ k r, own.lookup k = some r → G.stays k (db.lookup k) r
  guarded : ∀ g k r, own.lookup k = some r → G.guards g k (db.lookup k) r → g ∈ own

/-- The same, with every invariant kept so far. -/
structure Held (G : Guarded S) (own : Pending S) (db : Db S) : Prop extends G.Owns own db where
  loc : ∀ g, G.Local g (overlay own db)

variable {own : Pending S} {db db' : Db S} {g : S.Key}

theorem owns_empty (db : Db S) : G.Owns ∅ db where
  stamp _ _ hk := by simp at hk
  stays _ _ hk := by simp at hk
  guarded _ _ _ hk := by simp at hk

theorem held_empty (h : ∀ g, G.Local g db) : G.Held ∅ db := ⟨owns_empty db, h⟩

theorem lookup_cases (own : Pending S) (db : Db S) (k : S.Key) :
    (k ∉ own ∧ (overlay own db).lookup k = db.lookup k) ∨
      ∃ r, own.lookup k = some r ∧ (overlay own db).lookup k = r := by
  cases hk : own.lookup k with
  | none => exact .inl ⟨AList.lookup_eq_none.mp hk, lookup_overlay_of_none hk⟩
  | some r => exact .inr ⟨r, rfl, lookup_overlay_of_some hk⟩

theorem mem_of_lookup {k : S.Key} {r : Option (S.Row k)} (h : own.lookup k = some r) : k ∈ own :=
  AList.lookup_isSome.mp (by simp [h])

/-- A row that the transaction did not write guards none of its changes. -/
theorem Owns.unguarded (h : G.Owns own db) (hg : g ∉ own) (k : S.Key) :
    ¬ G.guards g k (db.lookup k) ((overlay own db).lookup k) := by
  obtain ⟨-, heq⟩ | ⟨r, hk, heq⟩ := lookup_cases own db k
  · rw [heq]
    exact G.guards_irrefl _ _ _
  · rw [heq]
    exact fun hguards => hg (h.guarded g k r hk hguards)

theorem Owns.stays_overlay (h : G.Owns own db) (k : S.Key) :
    G.stays k (db.lookup k) ((overlay own db).lookup k) := by
  obtain ⟨-, heq⟩ | ⟨r, hk, heq⟩ := lookup_cases own db k
  · rw [heq]
    exact G.stays_refl _ _
  · rw [heq]
    exact h.stays k r hk

theorem Owns.grows (h : G.Owns own db) : G.Grows db (overlay own db) := by
  have hstamp : ∀ g, G.stamp g (db.lookup g) = G.stamp g ((overlay own db).lookup g) → g ∉ own := by
    intro g heq hg
    obtain ⟨hout, -⟩ | ⟨r, hk, hrow⟩ := lookup_cases own db g
    · exact hout hg
    · rw [hrow] at heq
      exact (h.stamp g r hk).ne heq
  refine ⟨h.stays_overlay, fun k => ?_, fun g heq => ?_, fun g heq => h.unguarded (hstamp g heq)⟩
  · obtain ⟨-, heq⟩ | ⟨r, hk, heq⟩ := lookup_cases own db k
    · rw [heq]
    · rw [heq]
      exact (h.stamp k r hk).le
  · exact lookup_overlay_of_notMem (hstamp g heq) db

/-- What others commit changes nothing about the rows that the transaction has locked. -/
theorem Owns.later (h : G.Owns own db) (hown : ∀ k ∈ own, db'.lookup k = db.lookup k) :
    G.Owns own db' := by
  have hrow : ∀ {k r}, own.lookup k = some r → db'.lookup k = db.lookup k :=
    fun hk => hown _ (mem_of_lookup hk)
  refine ⟨fun k r hk => ?_, fun k r hk => ?_, fun g k r hk hguards => ?_⟩
  · rw [hrow hk]
    exact h.stamp k r hk
  · rw [hrow hk]
    exact h.stays k r hk
  · rw [hrow hk] at hguards
    exact h.guarded g k r hk hguards

/-- What others commit breaks no invariant that the transaction has made sure of. -/
theorem Owns.local_later (h : G.Owns own db) (hloc : G.Local g db') (hgrows : G.Grows db db')
    (hown : ∀ k ∈ own, db'.lookup k = db.lookup k) (hg : G.Local g (overlay own db)) :
    G.Local g (overlay own db') := by
  by_cases hmem : g ∈ own
  · -- The row is locked, so the others have changed nothing that it guards.
    have hsame := hown g hmem
    refine G.local_of_agree g _ _ hg ?_ (fun k => ?_) fun k => ?_
    · rw [lookup_overlay, lookup_overlay, hsame]
    · obtain ⟨hout, heq⟩ | ⟨r, hk, heq⟩ := lookup_cases own db k
      · rw [heq, lookup_overlay_of_notMem hout]
        exact hgrows.stays k
      · rw [heq, lookup_overlay_of_some hk]
        exact G.stays_refl _ _
    · obtain ⟨hout, heq⟩ | ⟨r, hk, heq⟩ := lookup_cases own db k
      · rw [heq, lookup_overlay_of_notMem hout]
        exact hgrows.guarded g (by rw [hsame]) k
      · rw [heq, lookup_overlay_of_some hk]
        exact G.guards_irrefl _ _ _
  · have hlater := h.later hown
    exact G.local_of_agree g _ _ hloc (lookup_overlay_of_notMem hmem db') hlater.stays_overlay
      (hlater.unguarded hmem)

theorem Held.later (h : G.Held own db) (hloc : ∀ g, G.Local g db') (hgrows : G.Grows db db')
    (hown : ∀ k ∈ own, db'.lookup k = db.lookup k) : G.Held own db' :=
  ⟨h.toOwns.later hown, fun g => h.toOwns.local_later (hloc g) hgrows hown (h.loc g)⟩

/-- What a statement has to make sure of, on the rows that its session sees. -/
structure Writes (G : Guarded S) (own : Pending S) (rows : Db S) (k : S.Key)
    (new : Option (S.Row k)) : Prop where
  stamp : G.stamp k (rows.lookup k) < G.stamp k new
  stays : G.stays k (rows.lookup k) new
  guarded : ∀ g, G.guards g k (rows.lookup k) new → g = k ∨ g ∈ own

/-- The same, where it is to keep every invariant. -/
structure Moves (G : Guarded S) (own : Pending S) (rows : Db S) (k : S.Key)
    (new : Option (S.Row k)) : Prop extends G.Writes own rows k new where
  loc : ∀ g, g = k ∨ G.guards g k (rows.lookup k) new → G.Local g (put rows k new)

theorem lookup_overlay_put (own : Pending S) (db : Db S) (k : S.Key) (new : Option (S.Row k))
    (k' : S.Key) :
    (overlay (own.insert k new) db).lookup k' = (put (overlay own db) k new).lookup k' := by
  by_cases heq : k' = k
  · subst heq
    rw [lookup_overlay_insert, lookup_put]
  · rw [lookup_overlay_insert_ne _ _ _ heq, lookup_put_ne _ _ heq]

theorem local_of_lookup (h : G.Local g db) (heq : ∀ k, db'.lookup k = db.lookup k) :
    G.Local g db' := by
  refine G.local_of_agree g db db' h (heq g) (fun k => ?_) fun k => ?_
  · rw [heq k]
    exact G.stays_refl _ _
  · rw [heq k]
    exact G.guards_irrefl _ _ _

section insert
variable {k : S.Key} {new : Option (S.Row k)}

theorem Owns.insert (h : G.Owns own db) (hnew : G.Writes own (overlay own db) k new) :
    G.Owns (own.insert k new) db := by
  have hmem : ∀ {g}, g = k ∨ g ∈ own → g ∈ own.insert k new := fun hg =>
    (AList.mem_insert own).mpr hg
  refine ⟨fun k' r hk' => ?_, fun k' r hk' => ?_, fun g k' r hk' hguards => ?_⟩
  · by_cases heq : k' = k
    · subst heq
      obtain rfl : new = r := by simpa using hk'
      exact (h.grows.stamp k').trans_lt hnew.stamp
    · exact h.stamp k' r (by rwa [AList.lookup_insert_ne heq] at hk')
  · by_cases heq : k' = k
    · subst heq
      obtain rfl : new = r := by simpa using hk'
      exact G.stays_trans _ _ _ _ (h.stays_overlay k') hnew.stays
    · exact h.stays k' r (by rwa [AList.lookup_insert_ne heq] at hk')
  · by_cases heq : k' = k
    · subst heq
      obtain rfl : new = r := by simpa using hk'
      by_cases hlast : G.guards g k' ((overlay own db).lookup k') new
      · exact hmem (hnew.guarded g hlast)
      · refine hmem (.inr ?_)
        by_contra hg
        exact G.guards_trans _ _ _ _ _ (h.unguarded hg k') hlast hguards
    · rw [AList.lookup_insert_ne heq] at hk'
      exact hmem (.inr (h.guarded g k' r hk' hguards))

/-- A write breaks no invariant but those of its row and of the rows that guard it. -/
theorem local_put {rows : Db S} (hstays : G.stays k (rows.lookup k) new) (hne : g ≠ k)
    (hguards : ¬ G.guards g k (rows.lookup k) new) (h : G.Local g rows) :
    G.Local g (put rows k new) := by
  refine G.local_of_agree g _ _ h (lookup_put_ne _ _ hne) (fun k' => ?_) fun k' => ?_
  · by_cases heq : k' = k
    · subst heq
      rw [lookup_put]
      exact hstays
    · rw [lookup_put_ne _ _ heq]
      exact G.stays_refl _ _
  · by_cases heq : k' = k
    · subst heq
      rw [lookup_put]
      exact hguards
    · rw [lookup_put_ne _ _ heq]
      exact G.guards_irrefl _ _ _

theorem Held.insert (h : G.Held own db) (hnew : G.Moves own (overlay own db) k new) :
    G.Held (own.insert k new) db := by
  refine ⟨h.toOwns.insert hnew.toWrites, fun g => ?_⟩
  refine local_of_lookup ?_ (lookup_overlay_put own db k new)
  by_cases hg : g = k ∨ G.guards g k ((overlay own db).lookup k) new
  · exact hnew.loc g hg
  · obtain ⟨hne, hguards⟩ := not_or.mp hg
    exact local_put hnew.stays hne hguards (h.loc g)

end insert

/-! The contract -/

variable (G) in
/-- `Final` is what a session has to make sure of at its COMMIT, of one that meets `fit`, and
`promise` what the operation that it is about says of it. -/
def contract (Final : Db S → Prop) (fit : Db S → Db S → Prop) (promise : Op → Db S → Db S → Prop) :
    Contract S Op where
  Inv db := (∀ g, G.Local g db) ∧ Final db
  rely _ := G.Grows
  guar log db db' :=
    (((∀ g, G.Local g db') ∧ Final db') ∧ G.Grows db db') ∧ promise log.op db db'
  allow _ _ _ := True
  accept _ _ _ := True
  fit _ := fit
  spared _ _ _ := True
  rely_refl _ := Grows.refl
  rely_trans _ _ _ _ := Grows.trans
  rely_mono _ _ _ _ h := h
  inv_guar _ _ _ _ h := h.1.1
  rely_guar _ _ _ _ _ h _ := h.1.2

section runs
variable {Final : Db S → Prop} {fit : Db S → Db S → Prop} {promise : Op → Db S → Db S → Prop}
  {code : Op → Prog S} {C : State S Op → Label S Op → Prop} {st st' : State S Op}

theorem meets_of_fit {l : Label S Op}
    (h : ∀ st', ReadCommitted.step code st l = some st' → fit st.db st'.db) :
    (G.contract Final fit promise).Meets code st l where
  allows _ _ _ _ _ _ _ _ _ _ := trivial
  accepts _ _ _ _ := trivial
  fits st' _ _ _ _ hstep _ _ := h st' hstep
  spares _ _ _ _ _ _ _ _ _ _ := trivial

/-- Between any two states of a run the rows have grown. -/
theorem grows_of_runs (hok : st.Ok (G.contract Final fit promise))
    (hsafe : ∀ op db, (@contract S Op G Final fit promise).Inv db →
      Safe (G.contract Final fit promise) (code op) .idle ∅ (.start op) db)
    (hmeets : ∀ st l, C st l → (G.contract Final fit promise).Meets code st l)
    (h : Transition.Runs (ReadCommitted.step code) C st st') : G.Grows st.db st'.db :=
  hok.runs_rel hsafe hmeets Grows.refl (fun _ _ _ => Grows.trans) (fun _ _ _ h => h.1.2) h

/-- A session changes the rows as its operation promises. -/
theorem promise_of_step {p : Nat} {a : Act S} {s : Session S Op}
    (hok : st.Ok (G.contract Final fit promise))
    (hsafe : ∀ op db, (@contract S Op G Final fit promise).Inv db →
      Safe (G.contract Final fit promise) (code op) .idle ∅ (.start op) db)
    (hmeets : (G.contract Final fit promise).Meets code st (.act p a))
    (hs : st.sessions[p]? = some s) (h : ReadCommitted.step code st (.act p a) = some st') :
    st'.db = st.db ∨ promise s.log.op st.db st'.db := by
  obtain ⟨-, heq | ⟨p', s', a', hl, hs', hguar⟩⟩ := hok.step hsafe hmeets h
  · exact .inl heq
  · cases hl
    obtain rfl : s' = s := Option.some.inj (hs'.symm.trans hs)
    exact .inr hguar.2

end runs

end Guarded

end ReadCommitted
