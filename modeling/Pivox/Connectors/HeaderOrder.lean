import Pivox.Connectors.Broker
import Pivox.Traversal

/-!
The headers of a connector are a map, and the broker goes through it in no fixed order: what it comes
to is the same for each order if and only if all headers that fail do so in the same way.
-/

namespace Pivox.Connectors
open ReadCommitted Traversal

variable {answers : Text → Except BrokerErr (Id × Bytes)} {compile : Text → Option Program}

/-- A header on its own. -/
def evalHeader (answers : Text → Except BrokerErr (Id × Bytes)) (compile : Text → Option Program)
    (header : Text × Text) : Except BrokerErr (Text × Bytes) :=
  match compile header.2 with
  | none => .error .config
  | some program =>
    let ran := runProgram (fun _ => answers) program []
    match ran.1.findSome? Call.error, ran.2 with
    | some e, _ => .error e
    | none, none => .error .config
    | none, some value => .ok (header.1, value)

variable (answers) in
/- The calls made before are not looked at. -/
theorem runProgram_append (program : Program) (calls calls' : List Call) :
    runProgram (fun _ => answers) program (calls ++ calls') =
      (calls ++ (runProgram (fun _ => answers) program calls').1,
        (runProgram (fun _ => answers) program calls').2) := by
  induction program generalizing calls' with
  | done value => rfl
  | secret name next ih =>
    rw [runProgram, runProgram, List.append_assoc]
    exact ih _ _

variable (answers compile) in
theorem evalConnectorHeaders_cons {calls : List Call} (hcalls : calls.findSome? Call.error = none)
    (header : Text × Text) (headers : List (Text × Text)) (out : List (Text × Bytes)) :
    (∃ e, evalHeader answers compile header = .error e ∧
      (evalConnectorHeaders (fun _ => answers) compile (header :: headers) calls out).2 = .error e) ∨
    ∃ resolved calls', evalHeader answers compile header = .ok resolved ∧
      calls'.findSome? Call.error = none ∧
      evalConnectorHeaders (fun _ => answers) compile (header :: headers) calls out =
        evalConnectorHeaders (fun _ => answers) compile headers calls' (out ++ [resolved]) := by
  obtain ⟨name, expr⟩ := header
  cases hcompile : compile expr with
  | none => exact .inl ⟨.config, by simp [evalHeader, hcompile], by simp [evalConnectorHeaders, hcompile]⟩
  | some program =>
    have hran := runProgram_append answers program calls []
    rw [List.append_nil] at hran
    generalize hown : runProgram (fun _ => answers) program [] = ran at hran
    obtain ⟨own, value⟩ := ran
    have herror : (calls ++ own).findSome? Call.error = own.findSome? Call.error := by
      rw [List.findSome?_append, hcalls, Option.none_or]
    cases hfound : own.findSome? Call.error with
    | some e =>
      refine .inl ⟨e, ?_, ?_⟩
      · simp [evalHeader, hcompile, hown, hfound]
      · simp [evalConnectorHeaders, hcompile, hran, herror, hfound]
    | none =>
      cases value with
      | none =>
        refine .inl ⟨.config, ?_, ?_⟩
        · simp [evalHeader, hcompile, hown, hfound]
        · simp [evalConnectorHeaders, hcompile, hran, herror, hfound]
      | some value =>
        refine .inr ⟨(name, value), calls ++ own, ?_, herror.trans hfound, ?_⟩
        · simp [evalHeader, hcompile, hown, hfound]
        · simp [evalConnectorHeaders, hcompile, hran, herror, hfound]

/-- The broker goes through the headers until one of them fails. -/
theorem evalConnectorHeaders_eq {calls : List Call} (hcalls : calls.findSome? Call.error = none)
    (headers : List (Text × Text)) (out : List (Text × Bytes)) :
    (evalConnectorHeaders (fun _ => answers) compile headers calls out).2 =
      (headers.mapM (evalHeader answers compile)).map (out ++ ·) := by
  induction headers generalizing calls out with
  | nil => simp [evalConnectorHeaders, Except.map, pure, Except.pure]
  | cons header headers ih =>
    obtain ⟨e, hheader, heval⟩ | ⟨resolved, calls', hheader, hcalls', heval⟩ :=
      evalConnectorHeaders_cons answers compile hcalls header headers out
    · rw [heval, mapM_cons_error hheader]
      rfl
    · rw [heval, ih hcalls', mapM_cons_ok hheader]
      cases headers.mapM (evalHeader answers compile) with
      | error e => rfl
      | ok values => simp [Except.map]

/-- What `evalConnectorHeaders` returns for a map of headers gone through in some order, when each
name has one answer: `rows name` is what a lookup for it sees, unless it fails. -/
def resolvedHeaders (aead : Aead) (scope : Scope) (rows : Text → Option (Db store))
    (compile : Text → Option Program) (headers : List (Text × Text)) :
    Except BrokerErr (Multiset (Text × Bytes)) :=
  unordered (evalConnectorHeaders (fun _ name => resolveSecret aead scope name (rows name)) compile
    headers [] []).2

theorem order_iff_alike (aead : Aead) (scope : Scope) (rows : Text → Option (Db store))
    (compile : Text → Option Program) (headers : List (Text × Text)) :
    (∀ order order' : List (Text × Text), order.Perm headers → order'.Perm headers →
      resolvedHeaders aead scope rows compile order =
        resolvedHeaders aead scope rows compile order') ↔
    ∀ header ∈ headers, ∀ header' ∈ headers, ∀ e e',
      evalHeader (fun name => resolveSecret aead scope name (rows name)) compile header = .error e →
      evalHeader (fun name => resolveSecret aead scope name (rows name)) compile header' = .error e' →
      e = e' := by
  have heval : ∀ order : List (Text × Text), resolvedHeaders aead scope rows compile order =
      unordered (order.mapM (evalHeader (fun name => resolveSecret aead scope name (rows name))
        compile)) := by
    intro order
    rw [resolvedHeaders, evalConnectorHeaders_eq rfl]
    cases order.mapM (evalHeader _ compile) <;> rfl
  simp only [heval]
  exact unordered_mapM_iff

/-! How a header fails -/

/-- Of the calls that a program makes, the first one without a value fails with `e`. -/
inductive Program.FailsFirst (answers : Text → Except BrokerErr (Id × Bytes)) (e : BrokerErr) :
    Program → Prop where
  | here {name : Text} {next : Option Bytes → Program} (h : answers name = .error e) :
    FailsFirst answers e (.secret name next)
  | later {name : Text} {next : Option Bytes → Program} {id : Id} {value : Bytes}
    (h : answers name = .ok (id, value)) (hnext : FailsFirst answers e (next (some value))) :
    FailsFirst answers e (.secret name next)

/-- All of its calls are answered, and the program comes to something else than a string. -/
inductive Program.NoString (answers : Text → Except BrokerErr (Id × Bytes)) : Program → Prop where
  | done : NoString answers (.done none)
  | secret {name : Text} {next : Option Bytes → Program} {id : Id} {value : Bytes}
    (h : answers name = .ok (id, value)) (hnext : NoString answers (next (some value))) :
    NoString answers (.secret name next)

theorem runProgram_secret (answers : Text → Except BrokerErr (Id × Bytes)) (name : Text)
    (next : Option Bytes → Program) : runProgram (fun _ => answers) (.secret name next) [] =
      (⟨name, answers name⟩ :: (runProgram (fun _ => answers) (next (told (answers name))) []).1,
        (runProgram (fun _ => answers) (next (told (answers name))) []).2) := by
  rw [runProgram, List.nil_append]
  exact runProgram_append answers _ [_] []

theorem findSome_error_iff {program : Program} {e : BrokerErr} :
    (runProgram (fun _ => answers) program []).1.findSome? Call.error = some e ↔
      program.FailsFirst answers e := by
  induction program with
  | done value =>
    refine iff_of_false (by simp [runProgram]) fun h => ?_
    cases h
  | secret name next ih =>
    rw [runProgram_secret, List.findSome?_cons, Call.error]
    cases hanswer : answers name with
    | error e' =>
      constructor
      · rintro ⟨⟩
        exact .here hanswer
      · rintro (herror | ⟨hok, -⟩)
        · exact congrArg some (Except.error.inj (hanswer.symm.trans herror))
        · cases hanswer.symm.trans hok
    | ok found =>
      refine (ih (told (.ok found))).trans ⟨fun h => .later hanswer h, ?_⟩
      rintro (herror | ⟨hok, hnext⟩)
      · cases hanswer.symm.trans herror
      · cases hanswer.symm.trans hok
        exact hnext

theorem noString_iff {program : Program} : program.NoString answers ↔
    (runProgram (fun _ => answers) program []).1.findSome? Call.error = none ∧
      (runProgram (fun _ => answers) program []).2 = none := by
  induction program with
  | done value =>
    cases value with
    | none => exact iff_of_true .done ⟨rfl, rfl⟩
    | some value =>
      refine iff_of_false (fun h => ?_) (by simp [runProgram])
      cases h
  | secret name next ih =>
    rw [runProgram_secret, List.findSome?_cons, Call.error]
    cases hanswer : answers name with
    | error e =>
      refine iff_of_false ?_ (by simp)
      rintro (_ | ⟨hok, -⟩)
      cases hanswer.symm.trans hok
    | ok found =>
      refine Iff.trans ⟨?_, fun h => .secret hanswer h⟩ (ih (told (.ok found)))
      rintro (_ | ⟨hok, hnext⟩)
      cases hanswer.symm.trans hok
      exact hnext

/- The first call without a value that a header makes fails with `e`. -/
def FailsWith (answers : Text → Except BrokerErr (Id × Bytes)) (compile : Text → Option Program)
    (e : BrokerErr) (header : Text × Text) : Prop :=
  ∃ program, compile header.2 = some program ∧ program.FailsFirst answers e

/- A header does not compile, or comes to something else than a string. -/
def Malformed (answers : Text → Except BrokerErr (Id × Bytes)) (compile : Text → Option Program)
    (header : Text × Text) : Prop :=
  ∀ program, compile header.2 = some program → program.NoString answers

theorem evalHeader_eq_error {header : Text × Text} {e : BrokerErr} :
    evalHeader answers compile header = .error e ↔
      FailsWith answers compile e header ∨ e = .config ∧ Malformed answers compile header := by
  cases hcompile : compile header.2 with
  | none => simp [evalHeader, FailsWith, Malformed, hcompile, eq_comm]
  | some program =>
    have hmalformed : Malformed answers compile header ↔ program.NoString answers := by
      simp [Malformed, hcompile]
    have hfails : FailsWith answers compile e header ↔ program.FailsFirst answers e := by
      simp [FailsWith, hcompile]
    rw [hmalformed, hfails, noString_iff, ← findSome_error_iff]
    simp only [evalHeader, hcompile]
    cases (runProgram (fun _ => answers) program []).1.findSome? Call.error with
    | some e' => simp
    | none => cases (runProgram (fun _ => answers) program []).2 <;> simp [eq_comm]

theorem Program.FailsFirst.asked {program : Program} {e : BrokerErr}
    (h : program.FailsFirst answers e) : ∃ name, answers name = .error e := by
  induction h with
  | here h => exact ⟨_, h⟩
  | later _ _ ih => exact ih

theorem resolveSecret_error {aead : Aead} {scope : Scope} {name : Text} {rows : Option (Db store)}
    {e : BrokerErr} (h : resolveSecret aead scope name rows = .error e) :
    e = .config ∨ e = .retryable := by
  unfold resolveSecret at h
  grind -linarith

/-- A header fails as it is to be retried, or with an error of the config. -/
theorem evalHeader_error (hanswers : ∀ name e, answers name = .error e → e = .config ∨ e = .retryable)
    {header : Text × Text} {e : BrokerErr} (h : evalHeader answers compile header = .error e) :
    e = .retryable ∨ e = .config := by
  obtain ⟨program, -, hfirst⟩ | ⟨rfl, -⟩ := evalHeader_eq_error.mp h
  · obtain ⟨name, hname⟩ := hfirst.asked
    exact (hanswers name e hname).symm
  · exact .inr rfl

/-- Each order comes to the same if and only if there is no header whose first call without a value
fails in the database, or none that fails in any other way. -/
theorem header_order_iff (aead : Aead) (scope : Scope) (rows : Text → Option (Db store))
    (compile : Text → Option Program) (headers : List (Text × Text)) :
    (∀ order order' : List (Text × Text), order.Perm headers → order'.Perm headers →
      resolvedHeaders aead scope rows compile order =
        resolvedHeaders aead scope rows compile order') ↔
    (∀ header ∈ headers, ¬ FailsWith (fun name => resolveSecret aead scope name (rows name)) compile
      .retryable header) ∨
    ∀ header ∈ headers,
      ¬ FailsWith (fun name => resolveSecret aead scope name (rows name)) compile .config header ∧
      ¬ Malformed (fun name => resolveSecret aead scope name (rows name)) compile header := by
  have hclass : ∀ header ∈ headers, ∀ e,
      evalHeader (fun name => resolveSecret aead scope name (rows name)) compile header = .error e →
        e = .retryable ∨ e = .config :=
    fun _ _ _ herror => evalHeader_error (fun _ _ => resolveSecret_error) herror
  rw [order_iff_alike, alike_iff (by decide) hclass]
  simp only [ne_eq, evalHeader_eq_error, reduceCtorEq, false_and, or_false, true_and, not_or]

/- A header asks for a secret that does not exist, another for one whose lookup fails. -/
def goneHeader : Text × Text := ("X-Gone".toList, "secret(\"organizations/acme/secrets/gone\")".toList)

def downHeader : Text × Text := ("X-Down".toList, "secret(\"organizations/acme/secrets/down\")".toList)

/- The lookups of `down` fail. -/
def downRows (name : Text) : Option (Db store) :=
  if name = "organizations/acme/secrets/down".toList then none else some ∅

/-- One order ends the run, the other has the job retried. -/
theorem header_order_matters :
    ¬ ∀ (aead : Aead) (scope : Scope) (rows : Text → Option (Db store))
      (compile : Text → Option Program) (headers order order' : List (Text × Text)),
      (headers.map Prod.fst).Nodup → order.Perm headers → order'.Perm headers →
      resolvedHeaders aead scope rows compile order =
        resolvedHeaders aead scope rows compile order' := by
  intro h
  have heq := h prefixAead acme downRows compileCall [goneHeader, downHeader]
    [goneHeader, downHeader] [downHeader, goneHeader] (by decide) (.refl _) (.swap _ _ _)
  have hgone : resolvedHeaders prefixAead acme downRows compileCall [goneHeader, downHeader] =
      .error .config := by decide
  have hdown : resolvedHeaders prefixAead acme downRows compileCall [downHeader, goneHeader] =
      .error .retryable := by decide
  rw [hgone, hdown] at heq
  cases heq

end Pivox.Connectors
