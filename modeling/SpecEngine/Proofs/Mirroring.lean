import Mathlib.Data.String.Basic
import SpecEngine.Matcher.Operator

/-!
# Comparing the other way round

What the operators say of two values, they say of them in the other order as well.

* `Double.compare_swap`, `orderNumber_swap`: the order of doubles;
* `conversion?`, `settled`: what loose equality does in one step; `looseEqWithin`: doing so a number
  of times; `looseEqWithin_eq`: the number of conversions that two values need bounds it;
* `looseEq_comm`: loose equality does not depend on which value comes first, although it converts
  the first one first;
* `Operator.Mirrors`, `mirrors_apply`: the laws of the operators.
-/

namespace SpecEngine

/-! ### Doubles -/

namespace Double

open Float.Model (UnpackedFloat)

theorem compare_finite_swap (d e : Int) (m n : Nat) :
    ((compare d e).then (compare m n)).swap = (compare e d).then (compare n m) := by
  rw [Ordering.swap_then, Int.compare_swap, Nat.compare_swap]

theorem compare_swap (x y : UnpackedFloat) : (x.compare y).map Ordering.swap = y.compare x := by
  cases x with
  | notANumber => cases y <;> rfl
  | infinity s =>
    cases y with
    | infinity t => cases s <;> cases t <;> rfl
    | _ => cases s <;> rfl
  | zero s =>
    cases y with
    | infinity t => cases t <;> rfl
    | finite t n e hn => cases t <;> rfl
    | _ => rfl
  | finite s m d hm =>
    cases y with
    | notANumber => rfl
    | infinity t => cases t <;> rfl
    | zero t => cases s <;> rfl
    | finite t n e hn =>
      cases s <;> cases t
      case negative.negative =>
        exact congrArg (fun o => some o.swap) (compare_finite_swap d e m n)
      case positive.positive => exact congrArg some (compare_finite_swap d e m n)
      all_goals rfl

theorem lt_iff (x y : Float) :
    x < y ↔ x.toModel.unpack.compare y.toModel.unpack = some .lt := by
  show decide (_ = true) = true ↔ _
  rw [decide_eq_true_iff]
  exact beq_iff_eq

theorem beq_iff (x y : Float) :
    (x == y) = true ↔ x.toModel.unpack.compare y.toModel.unpack = some .eq :=
  beq_iff_eq (a := x.toModel.unpack.compare y.toModel.unpack)

theorem beq_comm (x y : Float) : (x == y) = (y == x) := by
  rw [Bool.eq_iff_iff, beq_iff, beq_iff, ← compare_swap x.toModel.unpack]
  cases x.toModel.unpack.compare y.toModel.unpack with
  | none => simp
  | some o => cases o <;> simp

end Double

namespace Value

theorem orderNumber_eq (x y : Float) :
    orderNumber x y = x.toModel.unpack.compare y.toModel.unpack := by
  rw [orderNumber]
  simp only [Double.lt_iff, Double.beq_iff, ← Double.compare_swap x.toModel.unpack]
  cases x.toModel.unpack.compare y.toModel.unpack with
  | none => simp
  | some o => cases o <;> simp

theorem orderNumber_swap (x y : Float) :
    (orderNumber x y).map Ordering.swap = orderNumber y x := by
  rw [orderNumber_eq, orderNumber_eq, Double.compare_swap]

theorem orderText_swap (s t : String) : (orderText s t).swap = orderText t s := by
  unfold orderText
  rcases lt_trichotomy s t with h | rfl | h
  · simp [h, h.not_gt, h.ne']
  · simp
  · simp [h, h.not_gt, h.ne']

theorem order?_swap (a b : Value) : (a.order? b).map Ordering.swap = b.order? a := by
  by_cases h : ∃ s t, a = .string s ∧ b = .string t
  · obtain ⟨s, t, rfl, rfl⟩ := h
    exact congrArg some (orderText_swap s t)
  · have horder : ∀ a b : Value, (¬ ∃ s t, a = .string s ∧ b = .string t) →
        a.order? b = orderNumber a.toNumber b.toNumber := by
      intro a b h
      rw [order?]
      exact fun s t hs ht => h ⟨s, t, hs, ht⟩
    rw [horder a b h, horder b a fun ⟨s, t, hs, ht⟩ => h ⟨t, s, ht, hs⟩, orderNumber_swap]

/-! ### Strict equality -/

theorem strictEq_comm (a b : Value) : a.strictEq b = b.strictEq a := by
  cases a <;> cases b <;> simp [strictEq, Double.beq_comm, Bool.beq_comm, beq_eq_decide]

/-! ### Loose equality in steps -/

/-- Whether a value stands for the absence of one. -/
def isAbsent : Value → Bool
  | .undefined | .null => true
  | _ => false

@[simp] theorem isAbsent_boxed (v : Value) : (boxed v).isAbsent = false := rfl

/-- Whether a value is a number or a text. -/
def isPlain : Value → Bool
  | .number _ | .string _ => true
  | _ => false

/-- The two values that loose equality compares in place of two others. -/
def conversion? : Value → Value → Option (Value × Value)
  | .undefined, _ | .null, _ | _, .undefined | _, .null => none
  | .bool a, b => some (.number (toNumber (.bool a)), b)
  | a, .bool b => some (a, .number (toNumber (.bool b)))
  | .boxed a, b => some (a, b)
  | a, .boxed b => some (a, b)
  | a, b =>
    if a.isComposite && b.isPlain then some (.string a.text, b)
    else if a.isPlain && b.isComposite then some (a, .string b.text)
    else none

/-- What loose equality says of two values where it converts neither. -/
def settled : Value → Value → Bool
  | .undefined, .null | .null, .undefined => true
  | .number x, .string s => x == numberOfText s
  | .string s, .number x => numberOfText s == x
  | a, b => strictEq a b

/-- What loose equality says of two values, if `n` comparisons are enough for it. -/
def looseEqWithin : Nat → Value → Value → Option Bool
  | 0, _, _ => none
  | n + 1, a, b =>
    match conversion? a b with
    | none => some (settled a b)
    | some (c, d) => looseEqWithin n c d

theorem looseEq_of_conversion? {a b : Value} :
    a.looseEq b =
      match conversion? a b with
      | none => settled a b
      | some (c, d) => c.looseEq d := by
  cases a <;> cases b <;>
    simp [conversion?, looseEq, settled, strictEq, isComposite, isPlain]

theorem conversions_of_isComposite {v : Value} (h : v.isComposite) : v.conversions = 1 := by
  cases v with
  | list | object => rfl
  | _ => cases h

/-- Each conversion takes a truth value, a box or a composite away. -/
theorem conversions_lt {a b c d : Value} (h : conversion? a b = some (c, d)) :
    c.conversions + d.conversions < a.conversions + b.conversions := by
  have hnumber : ∀ x, (number x).conversions = 0 := fun _ => rfl
  have hstring : ∀ s, (string s).conversions = 0 := fun _ => rfl
  have hbool : ∀ b, (bool b).conversions = 1 := fun _ => rfl
  have hboxed : ∀ v, (boxed v).conversions = v.conversions + 1 := fun _ => rfl
  revert h
  fun_cases conversion? a b <;> intro h <;> cases h
  case case5 | case6 =>
    rw [hnumber, hbool]
    omega
  case case7 | case8 =>
    rw [hboxed]
    omega
  case case9 hc =>
    rw [Bool.and_eq_true] at hc
    rw [hstring, conversions_of_isComposite hc.1]
    omega
  case case10 hc =>
    rw [Bool.and_eq_true] at hc
    rw [hstring, conversions_of_isComposite hc.2]
    omega

/-- Two values need no more comparisons than one for each conversion and one to settle. -/
theorem looseEqWithin_eq {n : Nat} {a b : Value} (h : a.conversions + b.conversions < n) :
    looseEqWithin n a b = some (a.looseEq b) := by
  induction n generalizing a b with
  | zero => omega
  | succ n ih =>
    rw [looseEqWithin, looseEq_of_conversion?]
    cases hc : conversion? a b with
    | none => rfl
    | some r =>
      obtain ⟨c, d⟩ := r
      have := conversions_lt hc
      exact ih (by omega)

/-! ### Loose equality the other way round -/

theorem looseEq_absent_left {a : Value} (ha : a.isAbsent) (b : Value) :
    a.looseEq b = b.isAbsent := by
  cases a with
  | undefined | null => cases b <;> simp [looseEq, isAbsent]
  | _ => cases ha

theorem looseEq_absent_right (a : Value) {b : Value} (hb : b.isAbsent) :
    a.looseEq b = a.isAbsent := by
  cases b with
  | undefined | null => cases a <;> simp [looseEq, isAbsent]
  | _ => cases hb

theorem looseEq_bool_left (a : Bool) (b : Value) :
    (bool a).looseEq b = (number (toNumber (.bool a))).looseEq b := by
  cases b <;> simp [looseEq]

theorem looseEq_bool_right (a : Value) (b : Bool) :
    a.looseEq (.bool b) = a.looseEq (.number (toNumber (.bool b))) := by
  cases a <;> simp [looseEq]

/-- A box is opened where it is compared with anything but an absent value. -/
theorem looseEq_boxed_left (a : Value) {b : Value} (hb : b.isAbsent = false) :
    (boxed a).looseEq b = a.looseEq b := by
  cases b with
  | undefined | null => cases hb
  | bool b =>
    rw [looseEq_bool_right, looseEq_bool_right a]
    simp [looseEq]
  | _ => simp [looseEq]

theorem looseEq_boxed_right {a : Value} (ha : a.isAbsent = false) (b : Value) :
    a.looseEq (boxed b) = a.looseEq b := by
  induction a using unboxed.induct with
  | case1 a ih =>
    rw [looseEq_boxed_left a rfl]
    by_cases hb : b.isAbsent
    · -- neither a box nor what is in it equals an absent value
      rw [looseEq_absent_right (boxed a) hb, isAbsent_boxed]
      by_cases ha : a.isAbsent
      · rw [looseEq_absent_left ha, isAbsent_boxed]
      · rw [Bool.not_eq_true] at ha
        rw [ih ha, looseEq_absent_right a hb, ha]
    · rw [Bool.not_eq_true] at hb
      rw [looseEq_boxed_left a hb]
      by_cases ha : a.isAbsent
      · rw [looseEq_absent_left ha, looseEq_absent_left ha, isAbsent_boxed, hb]
      · rw [Bool.not_eq_true] at ha
        exact ih ha
  | case2 a hna =>
    cases a with
    | undefined | null => cases ha
    | bool a =>
      rw [looseEq_bool_left, looseEq_bool_left a]
      simp [looseEq]
    | boxed a => exact absurd rfl (hna a)
    | _ => simp [looseEq]

theorem looseEq_comm_of_unboxed {a b : Value} (ha : ∀ v, a ≠ boxed v) (hb : ∀ v, b ≠ boxed v) :
    a.looseEq b = b.looseEq a := by
  cases a with
  | boxed v => exact absurd rfl (ha v)
  | _ =>
    cases b with
    | boxed v => exact absurd rfl (hb v)
    | _ => simp [looseEq, strictEq, Double.beq_comm, Bool.beq_comm, beq_eq_decide]

/-- Loose equality does not depend on which value comes first. -/
theorem looseEq_comm (a b : Value) : a.looseEq b = b.looseEq a := by
  -- boxes on either side are opened until there are none, or until they meet an absent value
  induction a using unboxed.induct generalizing b with
  | case1 a ih =>
    by_cases hb : b.isAbsent
    · rw [looseEq_absent_left hb, looseEq_absent_right _ hb]
    · rw [Bool.not_eq_true] at hb
      rw [looseEq_boxed_left a hb, looseEq_boxed_right hb, ih]
  | case2 a hna =>
    induction b using unboxed.induct with
    | case1 b ih =>
      by_cases ha : a.isAbsent
      · rw [looseEq_absent_left ha, looseEq_absent_right _ ha]
      · rw [Bool.not_eq_true] at ha
        rw [looseEq_boxed_left b ha, looseEq_boxed_right ha, ih]
    | case2 b hnb => exact looseEq_comm_of_unboxed hna hnb

/-- What is strictly equal is loosely equal; truth values are, as the numbers they stand for. -/
theorem looseEq_of_strictEq {a b : Value} (h : a.strictEq b) : a.looseEq b := by
  have hbool : ∀ b, toNumber (bool b) == toNumber (bool b) := by decide +kernel
  cases a <;> cases b <;> simp [strictEq] at h <;> simp [looseEq, strictEq, h, hbool]

theorem strictEq_self_of_strictEqSelf {a : Value} (ha : ∀ v, a ≠ boxed v) (h : a.strictEqSelf) :
    a.strictEq a := by
  cases a with
  | boxed v => exact absurd rfl (ha v)
  | _ => exact h

end Value

/-! ### Operators -/

namespace Operator

/-- The laws that bind what the operators say of two values, what they say of them the other way
round, and their order. -/
structure Mirrors (there back : Operator → Bool) (order : Option Ordering) : Prop where
  equal : there .equal = back .equal
  strictEqual : there .strictEqual = back .strictEqual
  less : there .less = back .greater
  lessOrEqual : there .lessOrEqual = back .greaterOrEqual
  notEqual : there .notEqual = !there .equal
  strictNotEqual : there .strictNotEqual = !there .strictEqual
  lessOrEqual_split : there .lessOrEqual = (there .less || order == some .eq)

theorem mirrors_holds {strict loose strict' loose' : Bool} {order order' : Option Ordering}
    (hs : strict = strict') (hl : loose = loose') (ho : order.map Ordering.swap = order') :
    Mirrors (holds strict loose order) (holds strict' loose' order') order := by
  subst hs hl ho
  refine ⟨rfl, rfl, ?less, ?lessOrEqual, rfl, rfl, ?split⟩
  all_goals rcases order with _ | _ | _ | _ <;> rfl

/-- **Comparing the other way round.**  The operators say of two values what their mirror images
say of the values the other way round, be they two values or one seen through one handle; strict
equality implies loose equality outside boxes; and loose equality is settled after no more
conversions than the two values need. -/
theorem mirrors_apply (a b : Value) :
    Mirrors (fun o => o.apply a b) (fun o => o.apply b a) (a.order? b) ∧
    Mirrors (fun o => o.applySelf a) (fun o => o.applySelf a) (a.order? a) ∧
    ((∀ v, a ≠ .boxed v) →
      (strictEqual.apply a b → equal.apply a b) ∧
      (strictEqual.applySelf a → equal.applySelf a)) ∧
    a.looseEqWithin (a.conversions + b.conversions + 1) b = some (equal.apply a b) := by
  refine ⟨?_, ?_, fun ha => ⟨fun h => ?_, fun h => ?_⟩, ?_⟩
  · exact mirrors_holds (Value.strictEq_comm a b) (Value.looseEq_comm a b) (Value.order?_swap a b)
  · exact mirrors_holds rfl rfl (Value.order?_swap a a)
  · exact Value.looseEq_of_strictEq h
  · exact Value.looseEq_of_strictEq (Value.strictEq_self_of_strictEqSelf ha h)
  · exact Value.looseEqWithin_eq (Nat.lt_succ_self _)

/-- A list seen through one handle. -/
theorem mirrors_apply_list :
    (∀ v, Value.list 0 [.null] ≠ .boxed v) ∧ strictEqual.applySelf (.list 0 [.null]) = true ∧
      equal.applySelf (.list 0 [.null]) = true := by
  have hv : ∀ v, Value.list 0 [.null] ≠ .boxed v := by nofun
  exact ⟨hv, rfl, ((mirrors_apply (.list 0 [.null]) (.list 0 [.null])).2.2.1 hv).2 rfl⟩

/-- A box is strictly equal to itself, and not even loosely so if it is a box of nothing. -/
example : strictEqual.applySelf (.boxed .null) = true ∧ equal.applySelf (.boxed .null) = false := by
  decide +kernel

end Operator

end SpecEngine
