import SpecEngine.Number.Numeral

/-!
# Expressions and statements of spec bodies

A body is a list of statements.  There are literals, names, callables without parameters, and
three things that can follow an expression: a property, a call and an assertion.  Numbers are
kept as they were written, and a callable keeps its own text.

`size` counts the parts of expressions and statements; it bounds how far evaluating them can go.
`beq` compares them part by part, so that their equality is decidable.
-/

namespace SpecEngine

mutual

/-- Expressions. -/
inductive Expr
  | undefined
  | null
  | bool (b : Bool)
  | number (n : Numeral)
  | string (s : String)
  | list (items : List Expr)
  | object (fields : List (String × Expr))
  | boxed (inner : Expr)
  | name (n : String)
  | callable (source : String) (body : List Statement)
  | property (target : Expr) (name : String)
  | call (target : Expr)
  | assertion (actual : Expr) (matcher : String) (negate : Bool) (expected : Option Expr)

/-- Statements: a binding, a failure, or an expression for its value and its assertions. -/
inductive Statement
  | bind (name : String) (value : Expr)
  | raise (value : Expr)
  | expr (value : Expr)

end

mutual

/-- How much is written in an expression; a part of it has a smaller size. -/
def Expr.size : Expr → Nat
  | .undefined | .null | .bool _ | .number _ | .string _ | .name _ => 1
  | .list items => Expr.sizeItems items + 1
  | .object fields => Expr.sizeFields fields + 1
  | .boxed inner => inner.size + 1
  | .callable _ body => Statement.sizeAll body + 1
  | .property target _ => target.size + 1
  | .call target => target.size + 1
  | .assertion actual _ _ expected => actual.size + Expr.sizeExpected expected + 1

/-- The size of an expected value, which may be missing. -/
def Expr.sizeExpected : Option Expr → Nat
  | none => 0
  | some e => e.size + 1

/-- The size of the items of a list. -/
def Expr.sizeItems : List Expr → Nat
  | [] => 0
  | e :: es => e.size + Expr.sizeItems es + 1

/-- The size of the fields of an object. -/
def Expr.sizeFields : List (String × Expr) → Nat
  | [] => 0
  | (_, e) :: fs => e.size + Expr.sizeFields fs + 1

/-- The size of a statement. -/
def Statement.size : Statement → Nat
  | .bind _ e => e.size + 1
  | .raise e => e.size + 1
  | .expr e => e.size + 1

/-- The size of a row of statements. -/
def Statement.sizeAll : List Statement → Nat
  | [] => 0
  | s :: ss => s.size + Statement.sizeAll ss + 1

end

mutual

/-- Whether two expressions are the same. -/
def Expr.beq : Expr → Expr → Bool
  | .undefined, .undefined => true
  | .null, .null => true
  | .bool b, .bool b' => b = b'
  | .number n, .number n' => n = n'
  | .string s, .string s' => s = s'
  | .list es, .list es' => Expr.beqItems es es'
  | .object fs, .object fs' => Expr.beqFields fs fs'
  | .boxed e, .boxed e' => e.beq e'
  | .name n, .name n' => n = n'
  | .callable c ss, .callable c' ss' => c = c' && Statement.beqAll ss ss'
  | .property e n, .property e' n' => e.beq e' && n = n'
  | .call e, .call e' => e.beq e'
  | .assertion e m b x, .assertion e' m' b' x' =>
    e.beq e' && m = m' && b = b' && Expr.beqExpected x x'
  | _, _ => false

/-- Whether two expected values are the same, or both are missing. -/
def Expr.beqExpected : Option Expr → Option Expr → Bool
  | none, none => true
  | some e, some e' => e.beq e'
  | _, _ => false

/-- Whether the items of two lists are the same. -/
def Expr.beqItems : List Expr → List Expr → Bool
  | [], [] => true
  | e :: es, e' :: es' => e.beq e' && Expr.beqItems es es'
  | _, _ => false

/-- Whether the fields of two objects are the same, in the same order. -/
def Expr.beqFields : List (String × Expr) → List (String × Expr) → Bool
  | [], [] => true
  | (k, e) :: fs, (k', e') :: fs' => k = k' && e.beq e' && Expr.beqFields fs fs'
  | _, _ => false

/-- Whether two statements are the same. -/
def Statement.beq : Statement → Statement → Bool
  | .bind n e, .bind n' e' => n = n' && e.beq e'
  | .raise e, .raise e' => e.beq e'
  | .expr e, .expr e' => e.beq e'
  | _, _ => false

/-- Whether two rows of statements are the same. -/
def Statement.beqAll : List Statement → List Statement → Bool
  | [], [] => true
  | s :: ss, s' :: ss' => s.beq s' && Statement.beqAll ss ss'
  | _, _ => false

end

mutual

theorem Expr.beq_iff : ∀ a b : Expr, a.beq b = true ↔ a = b
  | .undefined, b | .null, b | .bool _, b | .number _, b | .string _, b | .name _, b => by
    cases b <;> simp [Expr.beq]
  | .list es, b => by cases b <;> simp [Expr.beq, Expr.beqItems_iff es]
  | .object fs, b => by cases b <;> simp [Expr.beq, Expr.beqFields_iff fs]
  | .boxed e, b => by cases b <;> simp [Expr.beq, Expr.beq_iff e]
  | .callable _ ss, b => by cases b <;> simp [Expr.beq, Statement.beqAll_iff ss]
  | .property e _, b => by cases b <;> simp [Expr.beq, Expr.beq_iff e]
  | .call e, b => by cases b <;> simp [Expr.beq, Expr.beq_iff e]
  | .assertion e _ _ x, b => by
    cases b <;> simp [Expr.beq, Expr.beq_iff e, Expr.beqExpected_iff x, and_assoc]

theorem Expr.beqExpected_iff : ∀ a b : Option Expr, Expr.beqExpected a b = true ↔ a = b
  | none, b => by cases b <;> simp [Expr.beqExpected]
  | some e, b => by cases b <;> simp [Expr.beqExpected, Expr.beq_iff e]

theorem Expr.beqItems_iff : ∀ a b : List Expr, Expr.beqItems a b = true ↔ a = b
  | [], b => by cases b <;> simp [Expr.beqItems]
  | e :: es, b => by cases b <;> simp [Expr.beqItems, Expr.beq_iff e, Expr.beqItems_iff es]

theorem Expr.beqFields_iff :
    ∀ a b : List (String × Expr), Expr.beqFields a b = true ↔ a = b
  | [], b => by cases b <;> simp [Expr.beqFields]
  | (k, e) :: fs, b => by
    rcases b with _ | ⟨⟨k', e'⟩, fs'⟩ <;>
      simp [Expr.beqFields, Expr.beq_iff e, Expr.beqFields_iff fs]

theorem Statement.beq_iff : ∀ a b : Statement, a.beq b = true ↔ a = b
  | .bind _ e, b | .raise e, b | .expr e, b => by
    cases b <;> simp [Statement.beq, Expr.beq_iff e]

theorem Statement.beqAll_iff : ∀ a b : List Statement, Statement.beqAll a b = true ↔ a = b
  | [], b => by cases b <;> simp [Statement.beqAll]
  | s :: ss, b => by
    cases b <;> simp [Statement.beqAll, Statement.beq_iff s, Statement.beqAll_iff ss]

end

instance : DecidableEq Expr := fun a b => decidable_of_iff _ (Expr.beq_iff a b)
instance : DecidableEq Statement := fun a b => decidable_of_iff _ (Statement.beq_iff a b)

/-- Words that never name a binding. -/
def reservedWords : List String :=
  ["true", "false", "null", "undefined", "let", "raise", "box"]

end SpecEngine
