import Defuse.Body.Parse

namespace Defuse

/-!
# The grammar of bodies

Which tokens form a body, and which statements they stand for.

* `Grammar.Sum`, `Grammar.Operand`, `Grammar.Primary`, `Grammar.ArgumentList` — expressions: a sum
  is associated to the left, and parentheses and plus signs leave no trace;
* `Grammar.Body`, `Grammar.Item` — statements: blocks are flattened, and empty statements leave
  no trace;
* `Parse.run` — the machine on a row of tokens;
* `Grammar.Body.run` — the machine reads every body, as the statements that it stands for.
-/

namespace Grammar

/-! ### Expressions -/

/-- A token that is an expression by itself. -/
inductive Literal : Token → Expression → Prop
  | int (value : Nat) : Literal (.int value) (.int value)
  | long (value : Nat) : Literal (.long value) (.long value)
  | float (bits : UInt32) : Literal (.float bits) (.float bits)
  | double (bits : UInt64) : Literal (.double bits) (.double bits)
  | string (text : String) : Literal (.string text) (.string text)
  | char (unit : UInt16) : Literal (.char unit) (.char unit)
  | true : Literal .true (.boolean true)
  | false : Literal .false (.boolean false)
  | null : Literal .null .null

/-- The name of a class: names with points between them. -/
inductive ClassName : List Token → String → Prop
  | single (text : String) : ClassName [.name text] text
  | qualified {ts : List Token} {front : String} (text : String) :
      ClassName ts front → ClassName (ts ++ [.dot, .name text]) (front ++ "." ++ text)

mutual

/-- Operands with plus signs between them. -/
inductive Sum : List Token → Expression → Prop
  | operand {ts : List Token} {e : Expression} : Operand ts e → Sum ts e
  | add {ts us : List Token} {left right : Expression} :
      Sum ts left → Operand us right → Sum (ts ++ .plus :: us) (.add left right)

/-- A primary expression behind signs. -/
inductive Operand : List Token → Expression → Prop
  | minus {ts : List Token} {e : Expression} : Operand ts e → Operand (.minus :: ts) (.negate e)
  | plus {ts : List Token} {e : Expression} : Operand ts e → Operand (.plus :: ts) e
  | primary {ts : List Token} {e : Expression} : Primary ts e → Operand ts e

/-- An expression that nothing around it can split. -/
inductive Primary : List Token → Expression → Prop
  | literal {t : Token} {e : Expression} : Literal t e → Primary [t] e
  | group {ts : List Token} {e : Expression} :
      Sum ts e → Primary (.leftParen :: (ts ++ [.rightParen])) e
  | new {ts us : List Token} {name : String} {es : List Expression} :
      ClassName ts name → ArgumentList us es →
      Primary (.new :: (ts ++ .leftParen :: (us ++ [.rightParen]))) (.new name es)

/-- What stands between the parentheses of a new object. -/
inductive ArgumentList : List Token → List Expression → Prop
  | none : ArgumentList [] []
  | some {ts : List Token} {es : List Expression} : Given ts es → ArgumentList ts es

/-- One sum or more, with commas between them. -/
inductive Given : List Token → List Expression → Prop
  | single {ts : List Token} {e : Expression} : Sum ts e → Given ts [e]
  | more {ts us : List Token} {es : List Expression} {e : Expression} :
      Given ts es → Sum us e → Given (ts ++ .comma :: us) (es ++ [e])

end

/-! ### Statements -/

mutual

/-- Statements, one after another. -/
inductive Body : List Token → List Statement → Prop
  | nil : Body [] []
  | cons {ts us : List Token} {ss rs : List Statement} :
      Item ts ss → Body us rs → Body (ts ++ us) (ss ++ rs)

/-- What counts as one statement of a body; it can stand for none, or for many. -/
inductive Item : List Token → List Statement → Prop
  | block {ts : List Token} {ss : List Statement} :
      Body ts ss → Item (.leftBrace :: (ts ++ [.rightBrace])) ss
  | empty : Item [.semicolon] []
  | leave : Item [.return, .semicolon] [.return none]
  | return {ts : List Token} {e : Expression} :
      Sum ts e → Item (.return :: (ts ++ [.semicolon])) [.return (some e)]
  | throw {ts : List Token} {e : Expression} :
      Sum ts e → Item (.throw :: (ts ++ [.semicolon])) [.throw e]

end

end Grammar

/-! ### Rows of tokens -/

namespace Parse

/-- The machine on a row of tokens. -/
def run (m : Parse) (ts : List Token) : Except GrammarError Parse := ts.foldlM step m

theorem run_cons (m : Parse) (t : Token) (ts : List Token) :
    m.run (t :: ts) = m.step t >>= (run · ts) := rfl

/-- A run can be cut in two. -/
theorem run_append (m : Parse) (ts us : List Token) :
    m.run (ts ++ us) = m.run ts >>= (run · us) := by
  rw [run, List.foldlM_append]
  rfl

/-- The tokens that are expressions by themselves. -/
theorem literal?_eq_some {t : Token} {e : Expression} :
    literal? t = some e ↔ Grammar.Literal t e := by
  constructor
  · intro h
    cases t <;> cases h <;> constructor
  · rintro (_ | _) <;> rfl

end Parse

/-- On some tokens the machine goes from one juncture to another, and no statement and no block
begins or ends. -/
def Juncture.Goes (j : Juncture) (ts : List Token) (k : Juncture) : Prop :=
  ∀ ss depth, Parse.run ⟨ss, depth, j⟩ ts = .ok ⟨ss, depth, k⟩

namespace Juncture.Goes

variable {j k l : Juncture} {t : Token} {ts us : List Token}

theorem nil : Goes j [] j := fun _ _ => rfl

/-- One token is taken, then the others. -/
theorem cons (h : ∀ ss depth, Parse.step ⟨ss, depth, j⟩ t = .ok ⟨ss, depth, k⟩)
    (hrest : Goes k ts l) : Goes j (t :: ts) l := by
  intro ss depth
  rw [Parse.run_cons, h]
  exact hrest ss depth

theorem append (h : Goes j ts k) (hrest : Goes k us l) : Goes j (ts ++ us) l := by
  intro ss depth
  rw [Parse.run_append, h]
  exact hrest ss depth

end Juncture.Goes

/-- Minus signs can be counted from either end. -/
theorem Expression.repeat_negate_succ (n : Nat) (e : Expression) :
    Nat.repeat negate (n + 1) e = Nat.repeat negate n (negate e) := by
  induction n with
  | zero => rfl
  | succ n ih => exact congrArg negate ih

/-- A minus sign in front of an operand counts with those in front of it. -/
theorem Pending.close_negate (p : Pending) (e : Expression) :
    { p with negations := p.negations + 1 }.close e = p.close (.negate e) := by
  rw [close, close, Expression.repeat_negate_succ]

namespace Grammar

open Juncture (Goes)

/-! ### The machine on expressions -/

/-- Whether the first of some tokens closes no parentheses and no statement. -/
def Begins : List Token → Prop
  | [] => False
  | t :: _ => t ≠ .rightParen ∧ t ≠ .semicolon

/-- Tokens that begin so begin so too with others behind them. -/
theorem Begins.append {ts : List Token} (h : Begins ts) (us : List Token) :
    Begins (ts ++ us) := by
  cases ts with
  | nil => exact h.elim
  | cons t ts => exact h

mutual

/-- A sum begins as its first operand does. -/
theorem Sum.begins {ts : List Token} {e : Expression} : Sum ts e → Begins ts
  | .operand h => h.begins
  | .add h _ => h.begins.append _

/-- An operand begins with its sign, or as what it stands for. -/
theorem Operand.begins {ts : List Token} {e : Expression} : Operand ts e → Begins ts
  | .minus _ => by simp [Begins]
  | .plus _ => by simp [Begins]
  | .primary h => h.begins

/-- What stands for a value begins with a literal, a parenthesis or `new`. -/
theorem Primary.begins {ts : List Token} {e : Expression} : Primary ts e → Begins ts
  | .literal h => by cases h <;> simp [Begins]
  | .group _ => by simp [Begins]
  | .new _ _ => by simp [Begins]

end

/-- Behind the parenthesis that opens the arguments, the first one is read as any expression. -/
theorem goes_arguments {ts : List Token} {head : Head} {outer : List (Bracket × Pending)}
    {p : Pending} {name : String} {k : Juncture} (hbegins : Begins ts)
    (h : Goes (.operand ⟨head, (.arguments name [], p) :: outer⟩ .none) ts k) :
    Goes (.arguments ⟨head, outer⟩ p name) ts k := by
  cases ts with
  | nil => exact hbegins.elim
  | cons t ts =>
    intro ss depth
    rw [← h ss depth, Parse.run_cons, Parse.run_cons]
    simp only [Parse.step, if_neg hbegins.1]

/-- Behind `return`, an expression is read as behind `throw`. -/
theorem goes_returned {ts : List Token} {k : Juncture} (hbegins : Begins ts)
    (h : Goes (.operand ⟨.return, []⟩ .none) ts k) : Goes .returned ts k := by
  cases ts with
  | nil => exact hbegins.elim
  | cons t ts =>
    intro ss depth
    rw [← h ss depth, Parse.run_cons, Parse.run_cons]
    simp only [Parse.step, if_neg hbegins.2]

/-- The machine reads the name of a class part by part, up to what follows it. -/
theorem ClassName.goes {ts : List Token} {name : String} (h : ClassName ts name) (n : Nesting)
    (p : Pending) : Goes (.className n p "") ts (.classTail n p name) := by
  induction h with
  | single text =>
    have hname : "" ++ text = text := by simp
    intro ss depth
    rw [← hname]
    simp
    rfl
  | qualified text _ ih => exact ih.append (.cons (fun _ _ => rfl) (.cons (fun _ _ => rfl) .nil))

mutual

/-- The machine reads a sum from left to right. -/
theorem Sum.goes {ts : List Token} {e : Expression} :
    Sum ts e → ∀ n, Goes (.operand n .none) ts (.operator n e)
  | .operand h, n => h.goes n .none
  | .add h hr, n => by
    have hleft := h.goes n
    exact hleft.append (.cons (fun _ _ => rfl) (hr.goes n _))

/-- The machine counts the minus signs in front of an operand and forgets the plus signs. -/
theorem Operand.goes {ts : List Token} {e : Expression} :
    Operand ts e → ∀ n p, Goes (.operand n p) ts (.operator n (p.close e))
  | .minus h, n, p => by
    -- the count is taken off again where the operand ends
    have hsigned := h.goes n { p with negations := p.negations + 1 }
    rw [p.close_negate] at hsigned
    exact .cons (fun _ _ => rfl) hsigned
  | .plus h, n, p => .cons (fun _ _ => rfl) (h.goes n p)
  | .primary h, n, p => h.goes n p

/-- The machine reads what stands for a value, with what is pending in front of it. -/
theorem Primary.goes {ts : List Token} {e : Expression} :
    Primary ts e → ∀ n p, Goes (.operand n p) ts (.operator n (p.close e))
  | .literal h, n, p => by
    refine .cons ?_ .nil
    intro ss depth
    simp only [Parse.step, Parse.onOperand, Parse.literal?_eq_some.mpr h]
    rfl
  -- one bracket is opened, and closed again around the same sum
  | .group h, n, p => by
    have hinside := h.goes { n with brackets := (.group, p) :: n.brackets }
    exact .cons (fun _ _ => rfl) (hinside.append (.cons (fun _ _ => rfl) .nil))
  | .new hname .none, n, p => by
    have hclass := hname.goes n p
    exact .cons (fun _ _ => rfl)
      (hclass.append (.cons (fun _ _ => rfl) (.cons (fun _ _ => rfl) .nil)))
  | .new hname (.some hgiven), n, p => by
    have hclass := hname.goes n p
    obtain ⟨front, last, rfl, hgoes⟩ := hgiven.goes n.head n.brackets p _
    refine .cons (fun _ _ => rfl) (hclass.append (.cons (fun _ _ => rfl)
      (hgoes.append (.cons (fun _ _ => ?_) .nil))))
    -- the machine keeps the arguments backwards
    have hall : front ++ [last] = (last :: front.reverse).reverse := by simp
    rw [hall]
    rfl

/-- The machine collects the arguments: those that are complete in a list, the last one outside of
it. -/
theorem Given.goes {ts : List Token} {es : List Expression} :
    Given ts es → ∀ head outer p name, ∃ front last, es = front ++ [last] ∧
      Goes (.arguments ⟨head, outer⟩ p name) ts
        (.operator ⟨head, (.arguments name front.reverse, p) :: outer⟩ last)
  | .single h, head, outer, p, name => ⟨[], _, rfl, goes_arguments h.begins (h.goes _)⟩
  | .more h hs, head, outer, p, name => by
    obtain ⟨front, last, rfl, hgoes⟩ := h.goes head outer p name
    have hnext := hs.goes ⟨head, (.arguments name (last :: front.reverse), p) :: outer⟩
    refine ⟨front ++ [last], _, rfl, hgoes.append (.cons (fun _ _ => rfl) ?_)⟩
    rw [List.reverse_append]
    exact hnext

end

/-! ### The machine on statements -/

mutual

/-- **Every body is read**, as the statements that it stands for. -/
theorem Body.run {ts : List Token} {ss : List Statement} : Body ts ss → ∀ rs depth,
    Parse.run ⟨rs, depth, .statement⟩ ts = .ok ⟨ss.reverse ++ rs, depth, .statement⟩
  | .nil, rs, depth => rfl
  | .cons hitem hbody, rs, depth => by
    rw [Parse.run_append, hitem.run rs depth]
    refine (hbody.run _ depth).trans ?_
    rw [List.reverse_append, List.append_assoc]

/-- The machine reads the statements of an item, and is then ready for the next one. -/
theorem Item.run {ts : List Token} {ss : List Statement} : Item ts ss → ∀ rs depth,
    Parse.run ⟨rs, depth, .statement⟩ ts = .ok ⟨ss.reverse ++ rs, depth, .statement⟩
  | .block h, rs, depth => by
    show Parse.run ⟨rs, depth + 1, .statement⟩ _ = _
    rw [Parse.run_append, h.run rs (depth + 1)]
    rfl
  | .empty, rs, depth => rfl
  | .leave, rs, depth => rfl
  | .return h, rs, depth => by
    show Parse.run ⟨rs, depth, .returned⟩ _ = _
    rw [Parse.run_append, goes_returned h.begins (h.goes _) rs depth]
    rfl
  | .throw h, rs, depth => by
    show Parse.run ⟨rs, depth, .operand ⟨.throw, []⟩ .none⟩ _ = _
    rw [Parse.run_append, h.goes _ rs depth]
    rfl

end

end Grammar

end Defuse
