import Mathlib.Data.List.Range
import Mathlib.Data.List.GetD
import Pivox.Sql

/-!
WHERE clauses as the trees that their texts spell. `A` is what stands where a value goes: the
value itself, or the number of the placeholder that it is bound to.
-/

namespace Pivox.Filter
open Sql

inductive FieldType where
  | string
  | timestamp
  | bool
  | int
  | map
  deriving DecidableEq, Repr

/- A column or expression, with the type that it is declared to have. -/
structure Column where
  text : String
  type : FieldType
  deriving DecidableEq, Repr

inductive Comparison where
  | eq
  | ne
  | lt
  | le
  | gt
  | ge
  deriving DecidableEq, Repr

/- `jsonText` is `x->>key`. -/
inductive Operand (A : Type) where
  | column (c : Column)
  | jsonText (x : Operand A) (key : A)
  deriving DecidableEq, Repr

inductive Atom (A : Type) where
  | operand (x : Operand A)
  | value (a : A)
  | compare (x : Operand A) (op : Comparison) (a : A)
  | ilike (x : Operand A) (a : A) (escape : Bool)
  | hasKey (x : Operand A) (a : A)
  deriving DecidableEq, Repr

/- `search` looks for each value in its column. -/
inductive Clause (A : Type) where
  | true
  | atom (a : Atom A)
  | search (clauses : List (Column × A))
  | and (l r : Clause A)
  | or (l r : Clause A)
  | not (e : Clause A)
  deriving DecidableEq, Repr

/- Text with the placeholders in it. -/
inductive Piece where
  | text (s : String)
  | placeholder (k : Nat)
  deriving DecidableEq, Repr

def Piece.number? : Piece → Option Nat
  | .text _ => none
  | .placeholder k => some k

/-- The placeholders of a text, in its order. -/
def placeholders (text : List Piece) : List Nat := text.filterMap Piece.number?

@[simp] theorem placeholders_nil : placeholders [] = [] := rfl

@[simp] theorem placeholders_text (s : String) (text : List Piece) :
    placeholders (.text s :: text) = placeholders text := rfl

@[simp] theorem placeholders_placeholder (k : Nat) (text : List Piece) :
    placeholders (.placeholder k :: text) = k :: placeholders text := rfl

@[simp] theorem placeholders_append (s t : List Piece) :
    placeholders (s ++ t) = placeholders s ++ placeholders t := List.filterMap_append

def Comparison.text : Comparison → String
  | .eq => "="
  | .ne => "!="
  | .lt => "<"
  | .le => "<="
  | .gt => ">"
  | .ge => ">="

def Operand.text : Operand Nat → List Piece
  | .column c => [.text c.text]
  | .jsonText x k => x.text ++ [.text "->>", .placeholder k]

def Atom.text : Atom Nat → List Piece
  | .operand x => x.text
  | .value k => [.placeholder k]
  | .compare x op k => x.text ++ [.text " ", .text op.text, .text " ", .placeholder k]
  | .ilike x k escape => x.text ++ [.text " ILIKE ", .placeholder k] ++
      if escape then [.text " ESCAPE '\\'"] else []
  | .hasKey x k => x.text ++ [.text " ? ", .placeholder k]

def searchText (clause : Column × Nat) : List Piece :=
  Atom.text (.ilike (.column clause.1) clause.2 false)

/- strings.Join -/
def join (sep : String) : List (List Piece) → List Piece
  | [] => []
  | [t] => t
  | t :: ts => t ++ [.text sep] ++ join sep ts

def Clause.text : Clause Nat → List Piece
  | .true => [.text "TRUE"]
  | .atom a => a.text
  | .search [clause] => searchText clause
  | .search clauses => [.text "("] ++ join " OR " (clauses.map searchText) ++ [.text ")"]
  | .and l r => [.text "("] ++ l.text ++ [.text " AND "] ++ r.text ++ [.text ")"]
  | .or l r => [.text "("] ++ l.text ++ [.text " OR "] ++ r.text ++ [.text ")"]
  | .not e => [.text "(NOT "] ++ e.text ++ [.text ")"]

section maps
variable {A B C : Type}

def Operand.map (f : A → B) : Operand A → Operand B
  | .column c => .column c
  | .jsonText x key => .jsonText (x.map f) (f key)

def Atom.map (f : A → B) : Atom A → Atom B
  | .operand x => .operand (x.map f)
  | .value a => .value (f a)
  | .compare x op a => .compare (x.map f) op (f a)
  | .ilike x a escape => .ilike (x.map f) (f a) escape
  | .hasKey x a => .hasKey (x.map f) (f a)

def Clause.map (f : A → B) : Clause A → Clause B
  | .true => .true
  | .atom a => .atom (a.map f)
  | .search clauses => .search (clauses.map fun c => (c.1, f c.2))
  | .and l r => .and (l.map f) (r.map f)
  | .or l r => .or (l.map f) (r.map f)
  | .not e => .not (e.map f)

/-- What stands in the places, in the order of the text. -/
def Operand.values : Operand A → List A
  | .column _ => []
  | .jsonText x key => x.values ++ [key]

def Atom.values : Atom A → List A
  | .operand x => x.values
  | .value a => [a]
  | .compare x _ a => x.values ++ [a]
  | .ilike x a _ => x.values ++ [a]
  | .hasKey x a => x.values ++ [a]

def Clause.values : Clause A → List A
  | .true => []
  | .atom a => a.values
  | .search clauses => clauses.map Prod.snd
  | .and l r => l.values ++ r.values
  | .or l r => l.values ++ r.values
  | .not e => e.values

theorem Operand.values_map (f : A → B) (x : Operand A) : (x.map f).values = x.values.map f := by
  induction x with
  | column c => rfl
  | jsonText x key ih => simp [Operand.map, Operand.values, ih]

theorem Atom.values_map (f : A → B) (a : Atom A) : (a.map f).values = a.values.map f := by
  cases a <;> simp [Atom.map, Atom.values, Operand.values_map]

theorem Clause.values_map (f : A → B) (c : Clause A) : (c.map f).values = c.values.map f := by
  induction c with
  | true => rfl
  | atom a => exact a.values_map f
  | search clauses => simp [Clause.map, Clause.values]
  | and l r ihl ihr => simp [Clause.map, Clause.values, ihl, ihr]
  | or l r ihl ihr => simp [Clause.map, Clause.values, ihl, ihr]
  | not e ih => simpa [Clause.map, Clause.values] using ih

theorem Operand.map_map (f : A → B) (g : B → C) (x : Operand A) :
    (x.map f).map g = x.map (g ∘ f) := by
  induction x with
  | column c => rfl
  | jsonText x key ih => simp [Operand.map, ih]

theorem Atom.map_map (f : A → B) (g : B → C) (a : Atom A) : (a.map f).map g = a.map (g ∘ f) := by
  cases a <;> simp [Atom.map, Operand.map_map]

theorem Clause.map_map (f : A → B) (g : B → C) (c : Clause A) :
    (c.map f).map g = c.map (g ∘ f) := by
  induction c with
  | true => rfl
  | atom a => simp [Clause.map, Atom.map_map]
  | search clauses => simp [Clause.map]
  | and l r ihl ihr => simp [Clause.map, ihl, ihr]
  | or l r ihl ihr => simp [Clause.map, ihl, ihr]
  | not e ih => simp [Clause.map, ih]

end maps

/-! The placeholders of a text are what its tree has in the places. -/

@[simp] theorem Operand.placeholders_text (x : Operand Nat) : placeholders x.text = x.values := by
  induction x with
  | column c => rfl
  | jsonText x k ih => simp [Operand.text, Operand.values, ih]

@[simp] theorem Atom.placeholders_text (a : Atom Nat) : placeholders a.text = a.values := by
  cases a with
  | operand x => exact x.placeholders_text
  | value k => rfl
  | compare x op k => simp [Atom.text, Atom.values]
  | ilike x k escape => cases escape <;> simp [Atom.text, Atom.values]
  | hasKey x k => simp [Atom.text, Atom.values]

@[simp] theorem placeholders_searchText (clause : Column × Nat) :
    placeholders (searchText clause) = [clause.2] := by
  simp [searchText, Atom.values, Operand.values]

theorem placeholders_join (sep : String) (texts : List (List Piece)) :
    placeholders (join sep texts) = texts.flatMap placeholders := by
  induction texts with
  | nil => rfl
  | cons t ts ih =>
    cases ts with
    | nil => simp [join]
    | cons t' ts => simpa [join] using ih

@[simp] theorem Clause.placeholders_text (c : Clause Nat) : placeholders c.text = c.values := by
  induction c with
  | true => rfl
  | atom a => exact a.placeholders_text
  | search clauses =>
    match clauses with
    | [] => rfl
    | [clause] => exact placeholders_searchText clause
    | clause :: clause' :: clauses =>
      simp [Clause.text, placeholders_join, Clause.values, List.flatMap_map, ← List.map_eq_flatMap]
  | and l r ihl ihr => simp [Clause.text, Clause.values, ihl, ihr]
  | or l r ihl ihr => simp [Clause.text, Clause.values, ihl, ihr]
  | not e ih => simp [Clause.text, Clause.values, ih]

/-! Numbering the places from `n`, in the order of the text. -/

section numbers
variable {A B : Type}

def Operand.number (n : Nat) : Operand A → Operand Nat
  | .column c => .column c
  | .jsonText x _ => .jsonText (x.number n) (n + x.values.length)

def Atom.number (n : Nat) : Atom A → Atom Nat
  | .operand x => .operand (x.number n)
  | .value _ => .value n
  | .compare x op _ => .compare (x.number n) op (n + x.values.length)
  | .ilike x _ escape => .ilike (x.number n) (n + x.values.length) escape
  | .hasKey x _ => .hasKey (x.number n) (n + x.values.length)

def Clause.number (n : Nat) : Clause A → Clause Nat
  | .true => .true
  | .atom a => .atom (a.number n)
  | .search clauses => .search ((clauses.zipIdx n).map fun c => (c.1.1, c.2))
  | .and l r => .and (l.number n) (r.number (n + l.values.length))
  | .or l r => .or (l.number n) (r.number (n + l.values.length))
  | .not e => .not (e.number n)

@[simp] theorem Operand.values_number (x : Operand A) (n : Nat) :
    (x.number n).values = List.range' n x.values.length := by
  induction x with
  | column c => rfl
  | jsonText x key ih =>
    simp [Operand.number, Operand.values, ih, List.range'_concat]

@[simp] theorem Atom.values_number (a : Atom A) (n : Nat) :
    (a.number n).values = List.range' n a.values.length := by
  cases a <;> simp [Atom.number, Atom.values, List.range'_concat]

theorem Clause.values_number (c : Clause A) (n : Nat) :
    (c.number n).values = List.range' n c.values.length := by
  induction c generalizing n with
  | true => rfl
  | atom a => exact a.values_number n
  | search clauses =>
    simp only [Clause.number, Clause.values, List.map_map, List.length_map]
    exact List.zipIdx_map_snd n clauses
  | and l r ihl ihr =>
    simp [Clause.number, Clause.values, ihl, ihr, List.range'_append_1]
  | or l r ihl ihr =>
    simp [Clause.number, Clause.values, ihl, ihr, List.range'_append_1]
  | not e ih => exact ih n

/-- `f` gives back what stood in the places that were numbered from `n`. -/
def Fills (f : Nat → B) (g : A → B) (n : Nat) (values : List A) : Prop :=
  (List.range' n values.length).map f = values.map g

variable {f : Nat → B} {g : A → B} {n : Nat}

theorem fills_append {l r : List A} :
    Fills f g n (l ++ r) ↔ Fills f g n l ∧ Fills f g (n + l.length) r := by
  have hlen : ((List.range' n l.length).map f).length = (l.map g).length := by simp
  unfold Fills
  rw [List.length_append, ← List.range'_append_1, List.map_append, List.map_append]
  exact ⟨fun h => List.append_inj h hlen, fun h => by rw [h.1, h.2]⟩

@[simp] theorem fills_singleton {a : A} : Fills f g n [a] ↔ f n = g a := by
  simp [Fills]

theorem Operand.map_number {x : Operand A} (h : Fills f g n x.values) :
    (x.number n).map f = x.map g := by
  induction x with
  | column c => rfl
  | jsonText x key ih =>
    obtain ⟨hx, hkey⟩ := fills_append.mp h
    simp [Operand.number, Operand.map, ih hx, fills_singleton.mp hkey]

theorem Atom.map_number {a : Atom A} (h : Fills f g n a.values) :
    (a.number n).map f = a.map g := by
  cases a with
  | operand x => exact congrArg Atom.operand (Operand.map_number h)
  | value a => exact congrArg Atom.value (fills_singleton.mp h)
  | compare x op a =>
    obtain ⟨hx, ha⟩ := fills_append.mp h
    simp [Atom.number, Atom.map, Operand.map_number hx, fills_singleton.mp ha]
  | ilike x a escape =>
    obtain ⟨hx, ha⟩ := fills_append.mp h
    simp [Atom.number, Atom.map, Operand.map_number hx, fills_singleton.mp ha]
  | hasKey x a =>
    obtain ⟨hx, ha⟩ := fills_append.mp h
    simp [Atom.number, Atom.map, Operand.map_number hx, fills_singleton.mp ha]

theorem map_zipIdx {clauses : List (Column × A)} (h : Fills f g n (clauses.map Prod.snd)) :
    (clauses.zipIdx n).map (fun c => (c.1.1, f c.2)) = clauses.map fun c => (c.1, g c.2) := by
  induction clauses generalizing n with
  | nil => rfl
  | cons c clauses ih =>
    obtain ⟨hc, hrest⟩ := fills_append.mp (show Fills f g n ([c.2] ++ clauses.map Prod.snd) from h)
    simpa [List.zipIdx_cons, fills_singleton.mp hc] using ih hrest

/-- A numbered clause, with its placeholders filled in, is the clause that was numbered. -/
theorem Clause.map_number {c : Clause A} (h : Fills f g n c.values) :
    (c.number n).map f = c.map g := by
  induction c generalizing n with
  | true => rfl
  | atom a => exact congrArg Clause.atom (Atom.map_number h)
  | search clauses =>
    simpa [Clause.number, Clause.map, Function.comp_def] using map_zipIdx h
  | and l r ihl ihr =>
    obtain ⟨hl, hr⟩ := fills_append.mp h
    simp [Clause.number, Clause.map, ihl hl, ihr hr]
  | or l r ihl ihr =>
    obtain ⟨hl, hr⟩ := fills_append.mp h
    simp [Clause.number, Clause.map, ihl hl, ihr hr]
  | not e ih => exact congrArg Clause.not (ih h)

end numbers

/-! The rows that satisfy a clause, given what its atoms come to. -/

def Clause.eval {A : Type} (truth : Atom A → Truth) : Clause A → Truth
  | .true => .yes
  | .atom a => truth a
  | .search clauses => (clauses.map fun c => truth (.ilike (.column c.1) c.2 false)).foldr .or .no
  | .and l r => (l.eval truth).and (r.eval truth)
  | .or l r => (l.eval truth).or (r.eval truth)
  | .not e => (e.eval truth).not

end Pivox.Filter
