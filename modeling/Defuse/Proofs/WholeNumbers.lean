import Mathlib.Data.Int.ModEq
import Defuse.Body.Value

namespace Defuse

/-!
# Sums of whole numbers

Literals of whole numbers and of characters, with minus signs and in sums.

* `Whole` — such trees, each of which stands for an expression;
* `Whole.TooLarge` — the trees with a literal that is out of range;
* `Whole.exact`, `Whole.widened` — the value of a tree without any bound, and the same where the
  parts that are no `long` are reduced to 32 bits first;
* `Whole.number_negate`, `Whole.number_add` — one operator on numbers that are reduced already;
* `whole_values` — which trees have a value, and that it is the exact one up to its width.
-/

/-- Trees of whole numbers. -/
inductive Whole where
  | int (value : Nat)
  | long (value : Nat)
  | char (unit : UInt16)
  | negate (operand : Whole)
  | add (left right : Whole)
deriving DecidableEq, Repr

namespace Whole

/-- The expression of a tree. -/
def expression : Whole → Expression
  | int value => .int value
  | long value => .long value
  | char unit => .char unit
  | negate operand => .negate operand.expression
  | add left right => .add left.expression right.expression

/-- Whether a literal of type `long` stands in a tree. -/
def hasLong : Whole → Bool
  | int _ => false
  | long _ => true
  | char _ => false
  | negate operand => operand.hasLong
  | add left right => left.hasLong || right.hasLong

/-- Some literal is out of range.  Directly behind a minus sign, the magnitude of the least number
is in range. -/
def TooLarge : Whole → Prop
  | int value => 2 ^ 31 ≤ value
  | long value => 2 ^ 63 ≤ value
  | char _ => False
  | negate operand => operand ≠ int (2 ^ 31) ∧ operand ≠ long (2 ^ 63) ∧ operand.TooLarge
  | add left right => left.TooLarge ∨ right.TooLarge

/-- The value of a tree, without any bound. -/
def exact : Whole → Int
  | int value => value
  | long value => value
  | char unit => unit.toNat
  | negate operand => -operand.exact
  | add left right => left.exact + right.exact

/-- The number of 32 bits, a sign among them, that is left of a number. -/
def reduced (n : Int) : Int := n.bmod (2 ^ 32)

/-- The value of a tree where every largest part without a `long` is reduced to an `int` first. -/
def widened : Whole → Int
  | int value => reduced value
  | long value => value
  | char unit => reduced unit.toNat
  | negate operand =>
    if operand.hasLong then -operand.widened else reduced (-operand.exact)
  | add left right =>
    if left.hasLong || right.hasLong then left.widened + right.widened
    else reduced (left.exact + right.exact)

/-- The number that a tree is promoted to. -/
def number (t : Whole) : Number :=
  if t.hasLong then .long (Int64.ofInt t.widened) else .int (Int32.ofInt t.exact)

/-- The value of a tree whose literals are in range. -/
def value : Whole → Value
  | char unit => .char unit
  | t => t.number.toValue

/-! ### One operator -/

/-- Without a `long` in it, a tree is widened to what is left of its value in an `int`. -/
theorem widened_eq {t : Whole} (h : t.hasLong = false) : t.widened = reduced t.exact := by
  cases t with
  | int value => rfl
  | long value => cases h
  | char unit => rfl
  | negate operand => exact if_neg (ne_true_of_eq_false h)
  | add left right => exact if_neg (ne_true_of_eq_false h)

/-- An `int` is widened to the number that it is. -/
theorem toInt64_ofInt {t : Whole} (h : t.hasLong = false) :
    (Int32.ofInt t.exact).toInt64 = Int64.ofInt t.widened := by
  rw [← Int64.ofInt_int32ToInt, Int32.toInt_ofInt, widened_eq h]
  rfl

/-- The sign is changed in the type that the tree is promoted to. -/
theorem number_negate (t : Whole) : t.number.negate = (negate t).number := by
  unfold number
  cases h : t.hasLong with
  | true => simp [hasLong, widened, h, Number.negate, Int64.ofInt_neg]
  | false => simp [hasLong, exact, h, Number.negate, Int32.ofInt_neg]

/-- The sum of an `int` and a `long` is one of 64 bits, and the `int` keeps its value. -/
theorem number_add (a b : Whole) : a.number.add b.number = (add a b).number := by
  unfold number
  cases ha : a.hasLong with
  | true =>
    cases hb : b.hasLong with
    | true => simp [hasLong, widened, ha, hb, Number.add, Int64.ofInt_add]
    | false => simp [hasLong, widened, ha, hb, Number.add, Int64.ofInt_add, toInt64_ofInt hb]
  | false =>
    cases hb : b.hasLong with
    | true => simp [hasLong, widened, ha, hb, Number.add, Int64.ofInt_add, toInt64_ofInt ha]
    | false => simp [hasLong, exact, ha, hb, Number.add, Int32.ofInt_add]

/-- Only a character by itself is no number yet. -/
theorem value_eq {t : Whole} (h : ∀ unit, t ≠ char unit) : t.value = t.number.toValue := by
  cases t with
  | char unit => exact absurd rfl (h unit)
  | _ => rfl

/-- The value of a tree is promoted to its number. -/
theorem promoted?_value (t : Whole) : t.value.promoted? = some t.number := by
  by_cases hchar : ∃ unit, t = char unit
  · obtain ⟨unit, rfl⟩ := hchar
    show some (Number.int (Int32.ofNat unit.toNat)) = some (.int (Int32.ofInt unit.toNat))
    rw [Int32.ofInt_eq_ofNat]
  · rw [value_eq fun unit h => hchar ⟨unit, h⟩]
    cases t.number <;> rfl

/-- The value of a tree is no string. -/
theorem isString_value (t : Whole) : t.value.isString = false := by
  cases h : t.value with
  | string text =>
    have hpromoted := t.promoted?_value
    rw [h] at hpromoted
    cases hpromoted
  | _ => rfl

/-! ### Trees -/

/-- Only two literals are magnitudes of least numbers. -/
theorem least?_expression {t : Whole} (hint : t ≠ int (2 ^ 31)) (hlong : t ≠ long (2 ^ 63)) :
    t.expression.least? = none := by
  cases t with
  | int value => exact if_neg fun h => hint (congrArg int h)
  | long value => exact if_neg fun h => hlong (congrArg long h)
  | _ => rfl

/-- Negating the value of a tree gives that of the negated tree. -/
theorem negate_value (t : Whole) : t.value.negate = .ok (negate t).value := by
  rw [Value.negate, t.promoted?_value]
  show Except.ok t.number.negate.toValue = _
  rw [t.number_negate]
  rfl

/-- Adding the values of two trees gives that of their sum. -/
theorem add_value (a b : Whole) : a.value.add b.value = .ok (add a b).value := by
  rw [Value.add, a.isString_value, b.isString_value, a.promoted?_value, b.promoted?_value]
  show Except.ok (a.number.add b.number).toValue = _
  rw [number_add]
  rfl

/-- A tree has a value, or a literal out of range. -/
theorem value_cases (t : Whole) :
    (t.expression.value = .ok t.value ∧ ¬ t.TooLarge) ∨
      ((∃ e, t.expression.value = .error e) ∧ t.TooLarge) := by
  induction t with
  | int value =>
    by_cases h : value < 2 ^ 31
    · refine .inl ⟨?_, Nat.not_le.mpr h⟩
      show (if value < 2 ^ 31 then Except.ok (Value.int (Int32.ofNat value)) else _) =
        .ok (.int (Int32.ofInt value))
      rw [if_pos h, Int32.ofInt_eq_ofNat]
    · exact .inr ⟨⟨_, if_neg h⟩, Nat.not_lt.mp h⟩
  | long value =>
    by_cases h : value < 2 ^ 63
    · refine .inl ⟨?_, Nat.not_le.mpr h⟩
      show (if value < 2 ^ 63 then Except.ok (Value.long (Int64.ofNat value)) else _) =
        .ok (.long (Int64.ofInt value))
      rw [if_pos h, Int64.ofInt_eq_ofNat]
    · exact .inr ⟨⟨_, if_neg h⟩, Nat.not_lt.mp h⟩
  | char unit => exact .inl ⟨rfl, id⟩
  | negate t ih =>
    -- the two magnitudes that only a minus sign in front brings into range
    by_cases hint : t = int (2 ^ 31)
    · subst hint
      exact .inl ⟨rfl, fun h => h.1 rfl⟩
    by_cases hlong : t = long (2 ^ 63)
    · subst hlong
      exact .inl ⟨rfl, fun h => h.2.1 rfl⟩
    rw [expression, Expression.value, least?_expression hint hlong]
    rcases ih with ⟨hvalue, hin⟩ | ⟨⟨e, herror⟩, hout⟩
    · rw [hvalue]
      exact .inl ⟨t.negate_value, fun h => hin h.2.2⟩
    · rw [herror]
      exact .inr ⟨⟨e, rfl⟩, hint, hlong, hout⟩
  | add a b iha ihb =>
    rw [expression, Expression.value]
    rcases iha with ⟨hleft, hin⟩ | ⟨⟨e, hleft⟩, hout⟩
    · rw [hleft]
      rcases ihb with ⟨hright, hright_in⟩ | ⟨⟨e, hright⟩, hout⟩
      · rw [hright]
        exact .inl ⟨add_value a b, fun h => h.elim hin hright_in⟩
      · rw [hright]
        exact .inr ⟨⟨e, rfl⟩, .inr hout⟩
    · rw [hleft]
      exact .inr ⟨⟨e, rfl⟩, .inl hout⟩

end Whole

/-- **Whole numbers.** A tree of whole numbers has no value just where a literal is out of range,
and no operator makes it lose one.  Otherwise a character by itself is a `char`; a tree without a
`long` is an `int`, which is the exact value up to multiples of `2 ^ 32`; and any other tree is a
`long`, up to multiples of `2 ^ 64` the value that is exact but for the parts that are reduced to an
`int` first. -/
theorem whole_values (t : Whole) :
    ((∃ e, t.expression.value = .error e) ↔ t.TooLarge) ∧
    (¬ t.TooLarge →
      (∀ unit, t = .char unit → t.expression.value = .ok (.char unit)) ∧
      ((∀ unit, t ≠ .char unit) → t.hasLong = false →
        ∃ n : Int32, t.expression.value = .ok (.int n) ∧ n.toInt ≡ t.exact [ZMOD 2 ^ 32]) ∧
      (t.hasLong = true →
        ∃ n : Int64, t.expression.value = .ok (.long n) ∧ n.toInt ≡ t.widened [ZMOD 2 ^ 64])) := by
  -- either the tree has a value, or a literal in it is too large
  rcases t.value_cases with ⟨hvalue, hin⟩ | ⟨herror, hout⟩
  · refine ⟨?_, fun _ => ⟨?_, ?_, ?_⟩⟩
    · simp [hvalue, hin]
    · rintro unit rfl
      rfl
    · intro hchar hlong
      refine ⟨Int32.ofInt t.exact, ?_, ?_⟩
      · rw [hvalue, Whole.value_eq hchar, Whole.number, hlong]
        rfl
      · rw [Int32.toInt_ofInt]
        exact Int.bmod_emod
    · intro hlong
      have hchar : ∀ unit, t ≠ .char unit := by
        rintro unit rfl
        cases hlong
      refine ⟨Int64.ofInt t.widened, ?_, ?_⟩
      · rw [hvalue, Whole.value_eq hchar, Whole.number, hlong]
        rfl
      · rw [Int64.toInt_ofInt]
        exact Int.bmod_emod
  · exact ⟨iff_of_true herror hout, fun hin => absurd hout hin⟩

/-- `2147483647 + 1` -/
def pastLast : Whole := .add (.int 2147483647) (.int 1)

/-- `2147483647 + 1 + 1L` -/
def overflowing : Whole := .add pastLast (.long 1)

/-- A sum of `int`s overflows, also where it is widened afterwards. -/
theorem whole_values_overflowing :
    ¬ pastLast.TooLarge ∧ (∀ unit, pastLast ≠ .char unit) ∧ pastLast.hasLong = false ∧
    (∃ n : Int32, pastLast.expression.value = .ok (.int n) ∧ n.toInt ≡ 2147483648 [ZMOD 2 ^ 32]) ∧
    ¬ overflowing.TooLarge ∧ overflowing.hasLong = true ∧ overflowing.widened = -2147483647 ∧
    ∃ n : Int64, overflowing.expression.value = .ok (.long n) ∧
      n.toInt ≡ -2147483647 [ZMOD 2 ^ 64] := by
  have hfirst : ¬ pastLast.TooLarge := by simp [pastLast, Whole.TooLarge]
  have hchar : ∀ unit, pastLast ≠ .char unit := fun _ h => by cases h
  have hin : ¬ overflowing.TooLarge := by simp [overflowing, pastLast, Whole.TooLarge]
  have hlong : overflowing.hasLong = true := rfl
  have hwidened : overflowing.widened = -2147483647 := rfl
  have hvalue := ((whole_values overflowing).2 hin).2.2 hlong
  rw [hwidened] at hvalue
  exact ⟨hfirst, hchar, rfl, ((whole_values pastLast).2 hfirst).2.1 hchar rfl, hin, hlong, hwidened,
    hvalue⟩

end Defuse
