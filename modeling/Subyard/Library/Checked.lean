import Subyard.Library.Fallible

/-!
Word arithmetic that reports a wrap.

* `add`, `mul`, `sub`: the operations on 64-bit words, with no result if the exact one is not a
  word.
* `Exact c x`: the checked computation `c` ran without a wrap and answered `x`.  A sequence is
  exact if its parts are (`Exact.bind`), so that a program over the checked operations is compared
  with the same program over the wrapping ones step by step.
-/

namespace Checked

variable {a b : UInt64}

/-- Addition, if it does not wrap. -/
def add (a b : UInt64) : Option UInt64 := if a.toNat + b.toNat < 2 ^ 64 then some (a + b) else none

/-- Multiplication, if it does not wrap. -/
def mul (a b : UInt64) : Option UInt64 := if a.toNat * b.toNat < 2 ^ 64 then some (a * b) else none

/-- Subtraction, if it does not wrap. -/
def sub (a b : UInt64) : Option UInt64 := if b ≤ a then some (a - b) else none

lemma add_eq (h : a.toNat + b.toNat < 2 ^ 64) : add a b = some (a + b) := if_pos h

lemma mul_eq (h : a.toNat * b.toNat < 2 ^ 64) : mul a b = some (a * b) := if_pos h

lemma sub_eq (h : b ≤ a) : sub a b = some (a - b) := if_pos h

lemma toNat_add (h : a.toNat + b.toNat < 2 ^ 64) : (a + b).toNat = a.toNat + b.toNat := by
  rw [UInt64.toNat_add, Nat.mod_eq_of_lt h]

lemma toNat_mul (h : a.toNat * b.toNat < 2 ^ 64) : (a * b).toNat = a.toNat * b.toNat := by
  rw [UInt64.toNat_mul, Nat.mod_eq_of_lt h]

lemma toNat_sub (h : b ≤ a) : (a - b).toNat = a.toNat - b.toNat :=
  UInt64.toNat_sub_of_le _ _ h

lemma toNat_min (a b : UInt64) : (min a b).toNat = min a.toNat b.toNat := by
  change (if a ≤ b then a else b).toNat = _
  rw [apply_ite UInt64.toNat]
  rfl

lemma toNat_max (a b : UInt64) : (max a b).toNat = max a.toNat b.toNat := by
  change (if a ≤ b then b else a).toNat = _
  rw [apply_ite UInt64.toNat]
  rfl

/-- A subtraction of at most the whole does not wrap. -/
lemma min_le (a b : UInt64) : min a b ≤ a := by
  rw [UInt64.le_iff_toNat_le, toNat_min]
  exact Nat.min_le_left _ _

section Exact

variable {ε α β : Type}

/-- The checked computation ran without a wrap and answered `x`. -/
def Exact (c : ExceptT ε Option α) (x : Except ε α) : Prop := c.run = some x

lemma Exact.pure (a : α) : Exact (Pure.pure a : ExceptT ε Option α) (.ok a) := rfl

/-- A step that may fail but does no arithmetic. -/
lemma Exact.of_except (x : Except ε α) : Exact (ExceptT.mk (some x)) x := rfl

/-- A step of arithmetic that does not wrap. -/
lemma Exact.lift {c : Option α} {a : α} (h : c = some a) :
    Exact (ExceptT.lift c : ExceptT ε Option α) (.ok a) := by
  rw [h]
  rfl

lemma Exact.bind {c : ExceptT ε Option α} {x : Except ε α} {f : α → ExceptT ε Option β}
    {g : α → Except ε β} (hc : Exact c x) (hf : ∀ a, x = .ok a → Exact (f a) (g a)) :
    Exact (c >>= f) (x >>= g) := by
  cases x with
  | error e =>
    change (c.run >>= ExceptT.bindCont f) = _
    rw [hc]
    rfl
  | ok a =>
    change (c.run >>= ExceptT.bindCont f) = _
    rw [hc]
    exact hf a rfl

lemma Exact.tryCatch {c : ExceptT ε Option α} {x : Except ε α} {f : ε → ExceptT ε Option α}
    {g : ε → Except ε α} (hc : Exact c x) (hf : ∀ e, x = .error e → Exact (f e) (g e)) :
    Exact (ExceptT.tryCatch c f) (x.tryCatch g) := by
  cases x with
  | error e =>
    change (c.run >>= _) = _
    rw [hc]
    exact hf e rfl
  | ok a =>
    change (c.run >>= _) = _
    rw [hc]
    rfl

/-- A step of arithmetic that does not wrap, and what follows. -/
lemma Exact.lift_bind {c : Option α} {a : α} {f : α → ExceptT ε Option β} {x : Except ε β}
    (h : c = some a) (hf : Exact (f a) x) : Exact (ExceptT.lift c >>= f) x :=
  Exact.bind (g := fun _ => x) (Exact.lift h) fun b hb => by
    obtain rfl := Except.ok.inj hb
    exact hf

end Exact

end Checked
