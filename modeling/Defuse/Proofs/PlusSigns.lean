import Defuse.Body.Value
import Defuse.Proofs.Recognition

namespace Defuse

/-!
# Plus signs

In Java a plus sign in front of an operand is an operator: a character becomes a number, and what is
no number is refused.  Here it leaves no trace.

* `Value.plus?` — what the operator gives;
* `Written` — expressions with their plus signs, and their values with the operator;
* `Written.Sum`, `Written.Operand`, `Written.Primary` — the tokens of such an expression;
* `folded?` — the value of the expression that tokens are read as;
* `Written.Harmless.value_eq` — the plus signs that do nothing in Java either;
* `plus_sign` — what is read, and when this is right.
-/

/-! ### The operator -/

/-- A plus sign in front of a value: a number, promoted. -/
def Value.plus? : Value → Option Value
  | int value => some (.int value)
  | long value => some (.long value)
  | float bits => some (.float bits)
  | double bits => some (.double bits)
  | char unit => some (.int (Int32.ofNat unit.toNat))
  | string _ | boolean _ | null => none

/-- A number of a type that promotion keeps. -/
def Value.IsPromoted : Value → Prop
  | int _ | long _ | float _ | double _ => True
  | _ => False

/-- A plus sign keeps what it stands in front of, if that has been promoted. -/
theorem Value.plus?_eq_self {v : Value} : v.plus? = some v ↔ v.IsPromoted := by
  cases v <;> simp [plus?, IsPromoted]

/-- An expression with its plus signs. -/
inductive Written where
  /-- A literal, or a new object. -/
  | atom (e : Expression)
  | minus (operand : Written)
  | plus (operand : Written)
  | add (left right : Written)

namespace Written

/-- The expression without its plus signs. -/
def erased : Written → Expression
  | atom e => e
  | minus operand => .negate operand.erased
  | plus operand => operand.erased
  | add left right => .add left.erased right.erased

/-- The least number, if this is its magnitude. -/
def least? : Written → Option Value
  | atom e => e.least?
  | _ => none

/-- The value of an expression where plus signs are operators, if it has one. -/
def value? : Written → Option Value
  | atom e => e.value.toOption
  | minus operand =>
    match operand.least? with
    | some least => some least
    | none => operand.value?.bind fun v => v.negate.toOption
  | plus operand => operand.value?.bind Value.plus?
  | add left right => left.value?.bind fun a => right.value?.bind fun b => (a.add b).toOption

/-- No plus sign matters: what stands behind it has a value that promotion keeps, or none at all.
The magnitude of a least number has none, but a minus sign in front would give it one. -/
def Harmless : Written → Prop
  | atom _ => True
  | minus operand => operand.Harmless
  | plus operand => operand.Harmless ∧ operand.erased.least? = none ∧
      ∀ v, operand.value? = some v → v.IsPromoted
  | add left right => left.Harmless ∧ right.Harmless

/-- Without its plus signs, a harmless expression is the magnitude of the same least number, or of
none. -/
theorem Harmless.least?_erased {s : Written} (h : s.Harmless) : s.erased.least? = s.least? := by
  cases s with
  | atom e => rfl
  | minus operand => rfl
  | plus operand => exact h.2.1
  | add left right => rfl

/-- Where no plus sign matters, the expression without them has the same value. -/
theorem Harmless.value_eq {s : Written} (h : s.Harmless) : s.erased.value.toOption = s.value? := by
  induction s with
  | atom e => rfl
  | minus operand ih =>
    have hvalue := ih h
    -- the operand is looked at before it has a value, so a plus sign could hide a least number
    have hleast : operand.erased.least? = operand.least? := least?_erased h
    rw [erased, Expression.value, value?, hleast, ← hvalue]
    cases operand.least? with
    | some least => rfl
    | none => cases operand.erased.value <;> rfl
  | plus operand ih =>
    have hvalue := ih h.1
    rw [erased, value?, hvalue]
    cases hoperand : operand.value? with
    | none => rfl
    | some v => exact (Value.plus?_eq_self.mpr (h.2.2 v hoperand)).symm
  | add left right ihl ihr =>
    rw [erased, Expression.value, value?, ← ihl h.1, ← ihr h.2]
    cases left.erased.value with
    | error e => rfl
    | ok a => cases right.erased.value <;> rfl

/-! ### Tokens -/

mutual

/-- Operands with plus signs between them. -/
inductive Sum : List Token → Written → Prop
  | operand {ts : List Token} {s : Written} : Operand ts s → Sum ts s
  | add {ts us : List Token} {left right : Written} :
      Sum ts left → Operand us right → Sum (ts ++ .plus :: us) (.add left right)

/-- A primary expression behind signs. -/
inductive Operand : List Token → Written → Prop
  | minus {ts : List Token} {s : Written} : Operand ts s → Operand (.minus :: ts) (.minus s)
  | plus {ts : List Token} {s : Written} : Operand ts s → Operand (.plus :: ts) (.plus s)
  | primary {ts : List Token} {s : Written} : Primary ts s → Operand ts s

/-- An expression that nothing around it can split. -/
inductive Primary : List Token → Written → Prop
  | literal {t : Token} {e : Expression} : Grammar.Literal t e → Primary [t] (.atom e)
  | group {ts : List Token} {s : Written} :
      Sum ts s → Primary (.leftParen :: (ts ++ [.rightParen])) s
  | new {ts us : List Token} {name : String} {es : List Expression} :
      Grammar.ClassName ts name → Grammar.ArgumentList us es →
      Primary (.new :: (ts ++ .leftParen :: (us ++ [.rightParen]))) (.atom (.new name es))

end

mutual

/-- A sum without its plus signs is a sum. -/
theorem Sum.erased {ts : List Token} {s : Written} : Sum ts s → Grammar.Sum ts s.erased
  | .operand h => .operand h.erased
  | .add h hr => .add h.erased hr.erased

/-- An operand without its plus signs is an operand. -/
theorem Operand.erased {ts : List Token} {s : Written} : Operand ts s → Grammar.Operand ts s.erased
  | .minus h => .minus h.erased
  | .plus h => .plus h.erased
  | .primary h => .primary h.erased

/-- What stands for a value does so without its plus signs too. -/
theorem Primary.erased {ts : List Token} {s : Written} : Primary ts s → Grammar.Primary ts s.erased
  | .literal h => .literal h
  | .group h => .group h.erased
  | .new hname hgiven => .new hname hgiven

end

end Written

namespace Grammar

mutual

/-- Every sum is written with its plus signs in some way. -/
theorem Sum.written {ts : List Token} {e : Expression} : Sum ts e → ∃ s, Written.Sum ts s
  | .operand h =>
    have ⟨s, hs⟩ := h.written
    ⟨s, .operand hs⟩
  | .add h hr =>
    have ⟨_, hs⟩ := h.written
    have ⟨_, ht⟩ := hr.written
    ⟨_, .add hs ht⟩

/-- Every operand is written with its plus signs in some way. -/
theorem Operand.written {ts : List Token} {e : Expression} :
    Operand ts e → ∃ s, Written.Operand ts s
  | .minus h =>
    have ⟨_, hs⟩ := h.written
    ⟨_, .minus hs⟩
  | .plus h =>
    have ⟨_, hs⟩ := h.written
    ⟨_, .plus hs⟩
  | .primary h =>
    have ⟨_, hs⟩ := h.written
    ⟨_, .primary hs⟩

/-- What stands for a value is written with its plus signs in some way. -/
theorem Primary.written {ts : List Token} {e : Expression} :
    Primary ts e → ∃ s, Written.Primary ts s
  | .literal h => ⟨_, .literal h⟩
  | .group h =>
    have ⟨_, hs⟩ := h.written
    ⟨_, .group hs⟩
  | .new hname hgiven => ⟨_, .new hname hgiven⟩

end

end Grammar

/-- The value of the expression that tokens are read as behind `return`, if there is one. -/
def folded? (ts : List Token) : Option Value :=
  match parse ((.return :: (ts ++ [.semicolon, .endOfInput])).map fun t => ⟨t, .start⟩) with
  | .ok [.return (some e)] => e.value.toOption
  | _ => none

/-- What the tokens of a sum are folded to is the value of the sum, if it has one. -/
theorem folded?_sum {ts : List Token} {e : Expression} (h : Grammar.Sum ts e) :
    folded? ts = e.value.toOption := by
  have hbody : Grammar.Body ((.return :: (ts ++ [.semicolon])) ++ []) ([.return (some e)] ++ []) :=
    .cons (.return h) .nil
  have hparse : parse ((.return :: (ts ++ [.semicolon, .endOfInput])).map fun t => ⟨t, .start⟩) =
      .ok [.return (some e)] := by
    refine parse_of_body ?_ hbody
    -- the positions are of no account, so all tokens may stand at the start
    simp [Function.comp_def]
  rw [folded?, hparse]

/-- **Plus signs.** An operand with a plus sign in front is read as the operand alone.  This is what
the operator gives, just where the operand has no value or one that promotion keeps; a character
stays a character, and a string, a truth value and `null` are kept where Java refuses them.  Every
expression can be written with its plus signs as operators, and where none of them matters, it has
the value that it has in Java. -/
theorem plus_sign {ts : List Token} {e : Expression} (h : Grammar.Operand ts e) :
    folded? (.plus :: ts) = e.value.toOption ∧
    (folded? (.plus :: ts) = e.value.toOption.bind Value.plus? ↔
      ∀ v, e.value = .ok v → v.IsPromoted) ∧
    ∀ us larger, Grammar.Sum us larger → (∃ s, Written.Sum us s) ∧
      ∀ s, Written.Sum us s → s.Harmless → folded? us = s.value? := by
  have hread : folded? (.plus :: ts) = e.value.toOption := folded?_sum (.operand (.plus h))
  refine ⟨hread, ?_, ?_⟩
  · rw [hread]
    cases he : e.value with
    | error err => exact iff_of_true rfl fun v hv => nomatch hv
    | ok v =>
      constructor
      · rintro hplus w ⟨⟩
        exact Value.plus?_eq_self.mp hplus.symm
      · intro hpromoted
        exact (Value.plus?_eq_self.mpr (hpromoted v rfl)).symm
  · intro us larger hsum
    refine ⟨hsum.written, fun s hs hharmless => ?_⟩
    rw [folded?_sum hs.erased, hharmless.value_eq]

/-- `+7`, and the same behind a string: `"" + +7`. -/
theorem plus_sign_number :
    Grammar.Operand [.int 7] (.int 7) ∧
    folded? [.plus, .int 7] = (Expression.int 7).value.toOption.bind Value.plus? ∧
    folded? [.string "", .plus, .plus, .int 7] =
      (Written.add (.atom (.string "")) (.plus (.atom (.int 7)))).value? := by
  have hseven : Written.Operand [.int 7] (.atom (.int 7)) := .primary (.literal (.int 7))
  have hoperand : Grammar.Operand [.int 7] (.int 7) := hseven.erased
  have hpromoted : ∀ v, (Expression.int 7).value = .ok v → v.IsPromoted := by
    rintro v ⟨⟩
    trivial
  have hsum : Written.Sum [.string "", .plus, .plus, .int 7]
      (.add (.atom (.string "")) (.plus (.atom (.int 7)))) :=
    .add (.operand (.primary (.literal (.string "")))) (.plus hseven)
  have hharmless : (Written.add (.atom (.string "")) (.plus (.atom (.int 7)))).Harmless := by
    refine ⟨trivial, trivial, rfl, ?_⟩
    rintro v ⟨⟩
    trivial
  obtain ⟨-, hiff, hlarger⟩ := plus_sign hoperand
  exact ⟨hoperand, hiff.mpr hpromoted, (hlarger _ _ hsum.erased).2 _ hsum hharmless⟩

/-- A character behind a plus sign stays a character, and one added to a string is its own text. -/
theorem plus_sign_character :
    Grammar.Operand [.char 97] (.char 97) ∧ folded? [.plus, .char 97] = some (.char 97) ∧
    (Value.char 97).plus? = some (.int 97) ∧
    folded? [.string "", .plus, .plus, .char 97] = some (.string "a") ∧
    (Written.add (.atom (.string "")) (.plus (.atom (.char 97)))).value? = some (.string "97") := by
  have hcharacter : Grammar.Operand [.char 97] (.char 97) := .primary (.literal (.char 97))
  exact ⟨hcharacter, rfl, rfl, rfl, rfl⟩

end Defuse
