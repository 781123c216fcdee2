import Pivox.Organizations.OwnerContract

/-!
What the operations do beside the rows that count: their reads, and their writes to rows that the
owner queries do not look at.
-/

namespace Pivox.Organizations
open ReadCommitted

variable {α β : Type} {J P : Assertion ownerContract} {Q : α → Assertion ownerContract}

/- What does not change with a write to a neutral row. -/
def Blind (K : Assertion ownerContract) : Prop :=
  ∀ own log db (k : Key) (r : Option (Row k)), neutral k = true → K.holds own log db →
    K.holds (own.insert k r) log db

theorem Blind.and {K K' : Assertion ownerContract} (h : Blind K) (h' : Blind K') :
    Blind (K.and K') :=
  fun own log db k r hk hK => ⟨h own log db k r hk hK.1, h' own log db k r hk hK.2⟩

/-- A script of reads and neutral writes, within a transaction or between them. -/
structure Aside (m : Service α) : Prop where
  inside : ∀ K, Blind K → Outline K .top m fun _ => .top
  between : @Between store MemberOp Err α ownerContract .top m fun _ => .top

theorem Aside.frame {m : Service α} (hm : Aside m) (hK : Blind (J.and P)) :
    Outline J P m fun _ => P :=
  (hm.inside _ hK).frame

theorem aside_pure (a : α) : Aside (pure a : Service α) :=
  ⟨fun _ _ => .ret a, .ret a⟩

theorem aside_throw (e : Err) : Aside (throw e : Service α) :=
  ⟨fun _ _ => .throw e, .throw e⟩

theorem Aside.bind {m : Service α} {f : α → Service β} (hm : Aside m) (hf : ∀ a, Aside (f a)) :
    Aside (m >>= f) :=
  ⟨fun K hK => (hm.inside K hK).bind fun a => (hf a).inside K hK,
    Between.bind hm.between fun a => (hf a).between⟩

theorem Aside.attempt {m : Service α} (hm : Aside m) : Aside (attempt m) where
  inside K hK := (hm.inside K hK).attempt.conseq (fun _ _ _ _ _ h => h) fun _ _ _ _ _ _ _ => trivial
  between := (Between.attempt hm.between).conseq (fun _ _ h => h) fun _ _ _ _ => trivial

theorem Aside.mapError {m : Service α} (f : Err → Err) (hm : Aside m) : Aside (mapError f m) :=
  ⟨fun K hK => outline_mapError f (hm.inside K hK), between_mapError f hm.between⟩

theorem aside_ask (q : Ask) : Aside (ask q) :=
  ⟨fun K _ => @Outline.ask store MemberOp Err ownerContract K .top q,
    @Between.ask store MemberOp Err ownerContract .top q⟩

theorem aside_query (q : Query) : Aside (query q) where
  inside K _ := @Outline.read store MemberOp Err ownerContract K .top .database q _
    fun _ _ _ _ _ _ => trivial
  between := @Between.read store MemberOp Err ownerContract .top .database q _
    fun _ _ _ _ => trivial

theorem guarded_put {k : Key} (hk : neutral k = true) {db : Db store} (hdb : Owned db)
    (r : Option (Row k)) : Guarded db (put db k r) := by
  have hwrites : MemberWrites (fun _ _ _ => False) (AList.insert k r ∅) :=
    memberWrites_empty.neutral hk r
  exact hwrites.guarded hdb fun _ _ _ _ _ h => h.elim

theorem aside_writeRow {k : Key} (hk : neutral k = true) (missing : Err) (stmt : Stmt k) :
    Aside (writeRow missing k stmt) where
  inside K hK := @Outline.write store MemberOp Err ownerContract K .top .database missing k stmt _
    fun own log db new _ hJ _ _ => ⟨hK own log db k new hk hJ, trivial⟩
  between := @Between.write store MemberOp Err ownerContract .top .database missing k stmt _
    fun _ _ new hinv _ _ => ⟨fun _ => guarded_put hk hinv new, trivial⟩

theorem aside_execRow {k : Key} (hk : neutral k = true) (stmt : Stmt k) : Aside (execRow k stmt) where
  inside K hK := @Outline.exec store MemberOp Err ownerContract K .top .database k stmt
    fun own log db new _ hJ _ _ => ⟨hK own log db k new hk hJ, trivial⟩
  between := @Between.exec store MemberOp Err ownerContract .top .database k stmt
    fun _ _ new hinv _ _ => ⟨fun _ => guarded_put hk hinv new, trivial⟩

theorem aside_forEach {f : β → Service Unit} (hf : ∀ b, Aside (f b)) (bs : List β) :
    Aside (Script.forEach f bs) := by
  induction bs with
  | nil => exact aside_pure ()
  | cons b bs ih => exact (hf b).bind fun _ => ih

theorem aside_found (row : Option α) : Aside (found row) := by
  cases row with
  | none => exact aside_throw _
  | some a => exact aside_pure a

theorem aside_returned (row : Option (Slot α)) : Aside (returned row : Service α) := by
  obtain _ | a | _ := row
  · exact aside_throw _
  · exact aside_pure a
  · exact aside_throw _

end Pivox.Organizations
