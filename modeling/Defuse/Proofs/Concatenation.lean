import Mathlib.Data.List.Forall2
import Defuse.Body.Value
import Defuse.Proofs.ShortestForms

namespace Defuse

open Text (isHighHalf isLowHalf)

/-!
# Sums that become strings

A sum is added from the left, so numbers in front of the first string are added up, and each of
those behind it is converted for itself.

* `IsNumeral`, `Value.ConvertsTo` — the string conversion of Java;
* `Expression.sum` — operands with plus signs between them;
* `Value.addAll`, `value_sum_append` — the value of a sum, operand by operand;
* `addAll_string` — behind a string every operand adds its text;
* `sum_from_string` — the value of a sum with a string in it.
-/

/-! ### String conversion -/

/-- The decimal digits of a number.  The first one is no zero, unless it is the only one. -/
inductive IsDecimal : Nat → List Char → Prop where
  | digit {d : Nat} (h : d < 10) : IsDecimal d [Nat.digitChar d]
  | more {n d : Nat} {cs : List Char} (hn : n ≠ 0) (h : IsDecimal n cs) (hd : d < 10) :
      IsDecimal (10 * n + d) (cs ++ [Nat.digitChar d])

/-- The decimal spelling of a whole number. -/
inductive IsNumeral : Int → String → Prop where
  | natural {n : Nat} {cs : List Char} (h : IsDecimal n cs) : IsNumeral n (String.ofList cs)
  | negative {n : Nat} {cs : List Char} (hn : n ≠ 0) (h : IsDecimal n cs) :
      IsNumeral (-n) (String.ofList ('-' :: cs))

/-- The text of a value in Java, for all values but floating-point numbers and code units that are
no character. -/
inductive Value.ConvertsTo : Value → String → Prop where
  | string (text : String) : ConvertsTo (.string text) text
  | int {n : Int32} {text : String} (h : IsNumeral n.toInt text) : ConvertsTo (.int n) text
  | long {n : Int64} {text : String} (h : IsNumeral n.toInt text) : ConvertsTo (.long n) text
  | true : ConvertsTo (.boolean true) "true"
  | false : ConvertsTo (.boolean false) "false"
  | char {unit : UInt16} {c : Char} (h : c.toNat = unit.toNat) :
      ConvertsTo (.char unit) (String.singleton c)
  | null : ConvertsTo .null "null"

/-- Neither a floating-point number nor half of a pair of code units. -/
def Value.IsConvertible : Value → Prop
  | float _ | double _ => False
  | char unit => isHighHalf unit = false ∧ isLowHalf unit = false
  | _ => True

/-- The digits that are printed of a natural number are its decimal digits, without zeros in
front. -/
theorem isDecimal_toDigits (n : Nat) : IsDecimal n (Nat.toDigits 10 n) := by
  -- by induction on the number: its last digit is the remainder, the others are those of the
  -- quotient
  induction n using Nat.strongRecOn with
  | ind n ih =>
    rw [Nat.toDigits_eq_if (by decide)]
    split
    · next hdigit => exact .digit hdigit
    · next hmore =>
      have hfront : n / 10 ≠ 0 := by omega
      have hdecimal := IsDecimal.more hfront (ih (n / 10) (by omega)) (Nat.mod_lt n (by decide))
      rwa [Nat.div_add_mod] at hdecimal

/-- An integer is printed as its numeral. -/
theorem isNumeral_toString (n : Int) : IsNumeral n (toString n) := by
  cases n with
  | ofNat n =>
    have hrepr : toString (Int.ofNat n) = String.ofList (Nat.toDigits 10 n) :=
      Nat.repr_eq_ofList_toDigits
    rw [hrepr]
    exact .natural (isDecimal_toDigits n)
  | negSucc n =>
    have hrepr : toString (Int.negSucc n) =
        String.ofList (['-'] ++ Nat.toDigits 10 (n + 1)) := by
      rw [String.ofList_append, ← Nat.repr_eq_ofList_toDigits]
      rfl
    rw [hrepr]
    exact .negative (Nat.succ_ne_zero n) (isDecimal_toDigits (n + 1))

/-- The text that a value adds to a string is that of its conversion. -/
theorem Value.text_convertsTo {v : Value} (h : v.IsConvertible) :
    ∃ text, v.text = .ok text ∧ v.ConvertsTo text := by
  cases v with
  | string text => exact ⟨text, rfl, .string text⟩
  | int n => exact ⟨_, rfl, .int (isNumeral_toString _)⟩
  | long n => exact ⟨_, rfl, .long (isNumeral_toString _)⟩
  | float bits => exact h.elim
  | double bits => exact h.elim
  | boolean b =>
    cases b with
    | true => exact ⟨"true", rfl, .true⟩
    | false => exact ⟨"false", rfl, .false⟩
  | char unit => exact ⟨_, rfl, .char (Text.toNat_ofUnit h.1 h.2)⟩
  | null => exact ⟨"null", rfl, .null⟩

/-! ### Sums of values -/

/-- One computation behind another that succeeds. -/
theorem exceptBind_eq_ok {ε α β : Type} {x : Except ε α} {f : α → Except ε β} {b : β} :
    x >>= f = .ok b ↔ ∃ a, x = .ok a ∧ f a = .ok b := by
  cases x with
  | error e =>
    constructor
    · intro h
      cases h
    · rintro ⟨a, ha, -⟩
      cases ha
  | ok a =>
    constructor
    · intro h
      exact ⟨a, rfl, h⟩
    · rintro ⟨_, ⟨⟩, h⟩
      exact h

namespace Value

variable {a b c : Value} {s t : String}

/-- Behind a string, a value is added as its text. -/
theorem string_add (h : b.text = .ok t) : (string s).add b = .ok (.string (s ++ t)) := by
  show join (string s) b = _
  rw [join, h]
  rfl

/-- In front of a string, a value is added as its text. -/
theorem add_string (h : a.text = .ok s) : a.add (.string t) = .ok (.string (s ++ t)) := by
  rw [add, isString, isString.eq_def, Bool.or_true, if_pos rfl, join, h]
  rfl

/-- A string on either side makes the sum a string. -/
theorem isString_add (h : a.add b = .ok c) (hs : a.isString = true ∨ b.isString = true) :
    c.isString = true := by
  have hjoin : join a b = .ok c := by
    rw [← h, add, if_pos (by simpa using hs)]
  obtain ⟨left, -, hright⟩ := exceptBind_eq_ok.mp hjoin
  obtain ⟨right, -, hc⟩ := exceptBind_eq_ok.mp hright
  cases hc
  rfl

/-- What can stand in front of the first string of a sum. -/
def IsPlain (v : Value) : Prop := v.IsConvertible ∧ v.isString = false

/-- Without floating-point numbers, what is promoted is a whole number. -/
theorem IsConvertible.promoted? (h : a.IsConvertible) {n : Number} (hn : a.promoted? = some n) :
    (∃ m, n = .int m) ∨ ∃ m, n = .long m := by
  cases a with
  | int m =>
    cases hn
    exact .inl ⟨_, rfl⟩
  | long m =>
    cases hn
    exact .inr ⟨_, rfl⟩
  | char unit =>
    cases hn
    exact .inl ⟨_, rfl⟩
  | float bits => exact h.elim
  | double bits => exact h.elim
  | string text => cases hn
  | boolean value => cases hn
  | null => cases hn

/-- Values that can stand in front of the first string add up to one that can. -/
theorem IsPlain.add (ha : a.IsPlain) (hb : b.IsPlain) (h : a.add b = .ok c) : c.IsPlain := by
  rw [Value.add, ha.2, hb.2] at h
  cases hm : a.promoted? with
  -- both are numbers, or they have no sum
  | none =>
    rw [hm] at h
    cases h
  | some m =>
    cases hn : b.promoted? with
    | none =>
      rw [hm, hn] at h
      cases h
    | some n =>
      rw [hm, hn] at h
      cases h
      obtain ⟨m, rfl⟩ | ⟨m, rfl⟩ := ha.1.promoted? hm <;>
        obtain ⟨n, rfl⟩ | ⟨n, rfl⟩ := hb.1.promoted? hn <;> exact ⟨trivial, rfl⟩

/-! ### Operand by operand -/

/-- Adds operands from the left. -/
def addAll (a : Value) (es : List Expression) : Except CompileError Value :=
  es.foldlM (fun a e => e.value >>= a.add) a

/-- The values are added from the left, one operand at a time. -/
theorem addAll_cons (a : Value) (e : Expression) (es : List Expression) :
    a.addAll (e :: es) = (e.value >>= a.add) >>= (addAll · es) := rfl

end Value

open Value (addAll)

/-- Operands have these values. -/
def HaveValues (es : List Expression) (vs : List Value) : Prop :=
  List.Forall₂ (fun e v => e.value = .ok v) es vs

/-- Operands with plus signs between them. -/
def Expression.sum : (es : List Expression) → es ≠ [] → Expression
  | e :: es, _ => es.foldl .add e

/-- The value of a sum is the sum of the values, the left one first. -/
theorem value_add (left right : Expression) :
    (left.add right).value = left.value >>= fun a => right.value >>= a.add := by
  rw [Expression.value]
  cases left.value with
  | error e => rfl
  | ok a => cases right.value <;> rfl

/-- A sum that is nested to the left adds up its operands in their order. -/
theorem value_foldl_add (e : Expression) (es : List Expression) :
    (es.foldl .add e).value = e.value >>= (addAll · es) := by
  induction es generalizing e with
  | nil => exact (bind_pure e.value).symm
  | cons right es ih =>
    rw [List.foldl_cons, ih, value_add, bind_assoc]
    rfl

/-- A sum goes on behind the value of its front. -/
theorem value_sum_append {front : List Expression} (h : front ≠ []) (e : Expression)
    (back : List Expression) :
    (Expression.sum (front ++ e :: back) (by simp)).value =
      (Expression.sum front h).value >>= fun d => e.value >>= d.add >>= (addAll · back) := by
  cases front with
  | nil => exact absurd rfl h
  | cons first front =>
    show ((front ++ e :: back).foldl .add first).value = (front.foldl .add first).value >>= _
    rw [List.foldl_append, List.foldl_cons, value_foldl_add, value_add, bind_assoc]

/-- Behind a string every operand adds its text. -/
theorem addAll_string {es : List Expression} {vs : List Value} (h : HaveValues es vs)
    (hvs : ∀ v ∈ vs, v.IsConvertible) (text : String) :
    ∃ texts, List.Forall₂ Value.ConvertsTo vs texts ∧
      addAll (.string text) es = .ok (.string (text ++ String.join texts)) := by
  -- `text` is what has been joined so far, and grows with each operand
  induction h generalizing text with
  | nil => exact ⟨[], .nil, by simp [addAll]; rfl⟩
  | @cons e v es vs he _ ih =>
    obtain ⟨hv, hrest⟩ := List.forall_mem_cons.mp hvs
    obtain ⟨t, ht, hconverts⟩ := Value.text_convertsTo hv
    obtain ⟨texts, htexts, hadded⟩ := ih hrest (text ++ t)
    refine ⟨t :: texts, .cons hconverts htexts, ?_⟩
    rw [Value.addAll_cons, he]
    show (Value.add (.string text) v >>= (addAll · es)) = _
    rw [Value.string_add ht, String.join_cons, ← String.append_assoc]
    exact hadded

/-- Without a string among its operands, a sum is none. -/
theorem addAll_isPlain {es : List Expression} {vs : List Value} (h : HaveValues es vs)
    (hvs : ∀ v ∈ vs, v.IsPlain) {a d : Value} (ha : a.IsPlain) (hd : addAll a es = .ok d) :
    d.IsPlain := by
  induction h generalizing a with
  | nil =>
    cases hd
    exact ha
  | @cons e v es vs he _ ih =>
    obtain ⟨hv, hrest⟩ := List.forall_mem_cons.mp hvs
    rw [Value.addAll_cons, he] at hd
    obtain ⟨b, hadd, hback⟩ := exceptBind_eq_ok.mp hd
    exact ih hrest (ha.add hv hadd) hback

/-- A sum without a string in it is no string. -/
theorem sum_isPlain {es : List Expression} {vs : List Value} (hne : es ≠ [])
    (h : HaveValues es vs) (hvs : ∀ v ∈ vs, v.IsPlain) {d : Value}
    (hd : (Expression.sum es hne).value = .ok d) : d.IsPlain := by
  cases h with
  | nil => exact absurd rfl hne
  | @cons e v es vs he hes =>
    obtain ⟨hv, hrest⟩ := List.forall_mem_cons.mp hvs
    have hadded : (es.foldl .add e).value = .ok d := hd
    rw [value_foldl_add, he] at hadded
    exact addAll_isPlain hes hrest hv hadded

/-- A sum with a string among its operands is a string. -/
theorem addAll_isString {es : List Expression} {a d : Value} (hd : addAll a es = .ok d)
    (hs : a.isString = true ∨ ∃ e ∈ es, ∃ text, e.value = .ok (.string text)) :
    d.isString = true := by
  induction es generalizing a with
  | nil =>
    cases hd
    exact hs.resolve_right (by simp)
  | cons e es ih =>
    rw [Value.addAll_cons] at hd
    obtain ⟨b, hadd, hback⟩ := exceptBind_eq_ok.mp hd
    obtain ⟨v, hv, hadd⟩ := exceptBind_eq_ok.mp hadd
    apply ih hback
    -- the string is in front, or it is this operand, or one that is still to come
    rcases hs with hs | ⟨e', he', text, htext⟩
    · exact .inl (Value.isString_add hadd (.inl hs))
    rcases List.mem_cons.mp he' with rfl | he'
    · cases hv.symm.trans htext
      exact .inl (Value.isString_add hadd (.inr rfl))
    · exact .inr ⟨e', he', text, htext⟩

/-- A sum with a string in it is a string, if it has a value at all. -/
theorem sum_isString {es : List Expression} (hne : es ≠ []) {d : Value}
    (hd : (Expression.sum es hne).value = .ok d)
    (hs : ∃ e ∈ es, ∃ text, e.value = .ok (.string text)) : d.isString = true := by
  cases es with
  | nil => exact absurd rfl hne
  | cons e es =>
    have hadded : (es.foldl .add e).value = .ok d := hd
    rw [value_foldl_add] at hadded
    obtain ⟨a, ha, hback⟩ := exceptBind_eq_ok.mp hadded
    apply addAll_isString hback
    obtain ⟨e', he', text, htext⟩ := hs
    rcases List.mem_cons.mp he' with rfl | he'
    · cases ha.symm.trans htext
      exact .inl rfl
    · exact .inr ⟨e', he', text, htext⟩

/-- A string is not joined with a floating-point number. -/
theorem Value.add_floating {a c : Value} (ha : a.isString = true)
    (hc : c.type = .float ∨ c.type = .double) :
    a.add c = .error (.generation (.floatingConcatenation c.type)) := by
  cases a with
  | string text =>
    cases c with
    | float bits => rfl
    | double bits => rfl
    | _ => rcases hc with hc | hc <;> cases hc
  | _ => cases ha

/-! ### From the first string on -/

section

variable {front back : List Expression} {e : Expression} {ws : List Value} {text : String}

/-- A string in front takes in the texts of all that follows. -/
theorem value_sum_first (he : e.value = .ok (.string text)) (hback : HaveValues back ws)
    (hws : ∀ w ∈ ws, w.IsConvertible) : ∃ texts, List.Forall₂ Value.ConvertsTo ws texts ∧
      (Expression.sum (e :: back) (by simp)).value = .ok (.string (text ++ String.join texts)) := by
  obtain ⟨texts, htexts, hadded⟩ := addAll_string hback hws text
  refine ⟨texts, htexts, ?_⟩
  show (back.foldl .add e).value = _
  rw [value_foldl_add, he]
  exact hadded

/-- A string in the middle takes in the text of the sum in front of it, then those of what
follows. -/
theorem value_sum_behind (hne : front ≠ []) {d : Value}
    (hd : (Expression.sum front hne).value = .ok d) (hconvertible : d.IsConvertible)
    (he : e.value = .ok (.string text)) (hback : HaveValues back ws)
    (hws : ∀ w ∈ ws, w.IsConvertible) : ∃ lead texts, d.ConvertsTo lead ∧
      List.Forall₂ Value.ConvertsTo ws texts ∧
      (Expression.sum (front ++ e :: back) (by simp)).value =
        .ok (.string (lead ++ text ++ String.join texts)) := by
  obtain ⟨lead, hlead, hconverts⟩ := Value.text_convertsTo hconvertible
  obtain ⟨texts, htexts, hadded⟩ := addAll_string hback hws (lead ++ text)
  refine ⟨lead, texts, hconverts, htexts, ?_⟩
  rw [value_sum_append hne, hd, he]
  show (d.add (.string text) >>= (addAll · back)) = _
  rw [Value.add_string hlead]
  exact hadded

/-- Behind a string, a floating-point operand is refused. -/
theorem value_sum_floating (hne : front ≠ []) {c d : Value}
    (hs : ∃ s ∈ front, ∃ text, s.value = .ok (.string text))
    (hd : (Expression.sum front hne).value = .ok d) (he : e.value = .ok c)
    (hc : c.type = .float ∨ c.type = .double) :
    (Expression.sum (front ++ e :: back) (by simp)).value =
      .error (.generation (.floatingConcatenation c.type)) := by
  rw [value_sum_append hne, hd, he]
  show (d.add c >>= (addAll · back)) = _
  rw [Value.add_floating (sum_isString hne hd hs) hc]
  rfl

end

/-- **Sums from the first string on.** The operands of a sum have values, none of them a
floating-point number or half of a pair, and the first string among them stands behind `front`.
The sum has a value just where `front` is empty or has one; it is then the text of that value, the
string, and the texts of all operands behind it.  And wherever a floating-point number stands behind
a string, and what stands in front of it has a value, the sum has none: this is the error that says
so, whatever comes behind. -/
theorem sum_from_string :
    (∀ {front back : List Expression} {e : Expression} {vs ws : List Value} {text : String},
      HaveValues front vs → (∀ v ∈ vs, v.IsConvertible ∧ v.isString = false) →
      e.value = .ok (.string text) → HaveValues back ws → (∀ w ∈ ws, w.IsConvertible) →
      ((∃ v, (Expression.sum (front ++ e :: back) (by simp)).value = .ok v) ↔
        front = [] ∨ ∃ h : front ≠ [], ∃ d, (Expression.sum front h).value = .ok d) ∧
      ∀ v, (Expression.sum (front ++ e :: back) (by simp)).value = .ok v →
        ∃ lead texts, v = .string (lead ++ text ++ String.join texts) ∧
          List.Forall₂ Value.ConvertsTo ws texts ∧ (front = [] → lead = "") ∧
          ∀ h : front ≠ [], ∃ d, (Expression.sum front h).value = .ok d ∧ d.ConvertsTo lead) ∧
    ∀ {front back : List Expression} {e : Expression} {c d : Value} (h : front ≠ []),
      (∃ s ∈ front, ∃ text, s.value = .ok (.string text)) →
      (Expression.sum front h).value = .ok d → e.value = .ok c →
      c.type = .float ∨ c.type = .double →
      (Expression.sum (front ++ e :: back) (by simp)).value =
        .error (.generation (.floatingConcatenation c.type)) := by
  refine ⟨?_, fun h hs hd he hc => value_sum_floating h hs hd he hc⟩
  intro front back e vs ws text hfront hvs he hback hws
  by_cases hne : front = []
  · -- the sum starts with the string, so nothing is converted in front of it
    subst hne
    obtain ⟨texts, htexts, hvalue⟩ := value_sum_first he hback hws
    refine ⟨iff_of_true ⟨_, hvalue⟩ (.inl rfl), ?_⟩
    intro v hv
    cases hvalue.symm.trans hv
    exact ⟨"", texts, by rw [String.empty_append], htexts, fun _ => rfl, fun h => absurd rfl h⟩
  · cases hd : (Expression.sum front hne).value with
    | error err =>
      have hfails : (Expression.sum (front ++ e :: back) (by simp)).value = .error err := by
        rw [value_sum_append hne, hd]
        rfl
      refine ⟨?_, fun v hv => nomatch hfails.symm.trans hv⟩
      refine iff_of_false (fun ⟨v, hv⟩ => nomatch hfails.symm.trans hv) ?_
      rintro (h | ⟨_, d, h⟩)
      · exact hne h
      · cases hd.symm.trans h
    | ok d =>
      -- what is in front is no string yet, but a number, a truth value or `null`
      have hplain : d.IsPlain := sum_isPlain hne hfront hvs hd
      obtain ⟨lead, texts, hconverts, htexts, hvalue⟩ :=
        value_sum_behind hne hd hplain.1 he hback hws
      refine ⟨iff_of_true ⟨_, hvalue⟩ (.inr ⟨hne, d, hd⟩), ?_⟩
      intro v hv
      cases hvalue.symm.trans hv
      exact ⟨lead, texts, rfl, htexts, fun h => absurd h hne, fun _ => ⟨d, hd, hconverts⟩⟩

/-- `'a' + 1 + "x" + 2 + null`, where the character is a number, and `"v" + 0.5 + null`. -/
theorem sum_from_string_mixed :
    (Expression.sum [.char 97, .int 1] (by simp)).value = .ok (.int 98) ∧
    (∃ lead texts, (Expression.sum [.char 97, .int 1, .string "x", .int 2, .null] (by simp)).value =
        .ok (.string (lead ++ "x" ++ String.join texts)) ∧
      (Value.int 98).ConvertsTo lead ∧ List.Forall₂ Value.ConvertsTo [.int 2, .null] texts) ∧
    (Expression.sum [.string "v", .double 0x3FE0000000000000, .null] (by simp)).value =
      .error (.generation (.floatingConcatenation .double)) := by
  have hnumber : (Expression.sum [.char 97, .int 1] (by simp)).value = .ok (.int 98) := rfl
  have hfront : HaveValues [.char 97, .int 1] [.char 97, .int 1] := .cons rfl (.cons rfl .nil)
  have hvs : ∀ v ∈ [Value.char 97, .int 1], v.IsConvertible ∧ v.isString = false := by
    simp [Value.IsConvertible, Value.isString, isHighHalf, isLowHalf]
  have hback : HaveValues [.int 2, .null] [.int 2, .null] := .cons rfl (.cons rfl .nil)
  have hws : ∀ w ∈ [Value.int 2, .null], w.IsConvertible := by simp [Value.IsConvertible]
  have hmiddle : (Expression.string "x").value = .ok (.string "x") := rfl
  obtain ⟨hiff, htext⟩ := sum_from_string.1 hfront hvs hmiddle hback hws
  obtain ⟨v, hv⟩ := hiff.mpr (.inr ⟨by simp, _, hnumber⟩)
  obtain ⟨lead, texts, rfl, htexts, -, hlead⟩ := htext v hv
  obtain ⟨d, hd, hconverts⟩ := hlead (by simp)
  cases hnumber.symm.trans hd
  have hstring : ∃ s ∈ [Expression.string "v"], ∃ text, s.value = .ok (.string text) :=
    ⟨_, List.mem_cons_self, "v", rfl⟩
  have hhalf : (Expression.double 0x3FE0000000000000).value = .ok (.double 0x3FE0000000000000) :=
    rfl
  have hfloating : (Expression.sum ([.string "v"] ++ .double 0x3FE0000000000000 :: [.null])
      (by simp)).value = .error (.generation (.floatingConcatenation .double)) :=
    sum_from_string.2 (List.cons_ne_nil _ _) hstring rfl hhalf (.inr rfl)
  exact ⟨hnumber, ⟨lead, texts, hv, hconverts, htexts⟩, hfloating⟩

end Defuse
