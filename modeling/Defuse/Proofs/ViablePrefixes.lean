import Defuse.Proofs.Recognition

namespace Defuse

/-!
# The first token that does not fit

Wherever the machine stands, what is open can be closed, so the tokens that it has read begin some
body.  A token that it refuses ends this: it is the first one behind which no body can be reached
any more, and the place of the error is its place.

* `Parse.Completes` — some tokens lead the machine to the end of a body;
* `Parse.completes` — they do from everywhere, one bracket and one block after another;
* `EndsOnce`, `IsViable` — rows of tokens that end with the end of the input, and rows that such a
  row, when it is accepted, begins with;
* `isViable_of_run`, `not_isViable_of_step` — viable are the rows that the machine reads;
* `first_bad_token` — an error stands at the first token that makes a viable row another.
-/

/-! ### Closing what is open -/

/-- Some tokens and the end of the input behind them lead the machine to the end of a body. -/
def Parse.Completes (m : Parse) : Prop :=
  ∃ ts m', .endOfInput ∉ ts ∧ m.run (ts ++ [.endOfInput]) = .ok m'

namespace Parse

variable {ss : List Statement} {depth : Nat}

/-- A token that leads to a machine that completes. -/
theorem Completes.step {m next : Parse} {t : Token} (ht : t ≠ .endOfInput)
    (hstep : m.step t = .ok next) (h : next.Completes) : m.Completes := by
  obtain ⟨ts, m', honly, hrun⟩ := h
  refine ⟨t :: ts, m', ?_, ?_⟩
  · rw [List.mem_cons, not_or]
    exact ⟨ht.symm, honly⟩
  · rw [List.cons_append, run_cons, hstep]
    exact hrun

/-- Before a statement, the open blocks are closed, one after another. -/
theorem completes_statement : Completes ⟨ss, depth, .statement⟩ := by
  induction depth with
  | zero =>
    have hnone : Token.endOfInput ∉ [] := List.not_mem_nil
    exact ⟨[], _, hnone, rfl⟩
  | succ depth ih =>
    have hclose : step ⟨ss, depth + 1, .statement⟩ .rightBrace = .ok ⟨ss, depth, .statement⟩ := rfl
    exact .step Token.noConfusion hclose ih

/-- Behind an operand, the open brackets are closed from the inside, then the statement. -/
theorem completes_operator {n : Nesting} {sum : Expression} :
    Completes ⟨ss, depth, .operator n sum⟩ := by
  obtain ⟨head, brackets⟩ := n
  induction brackets generalizing sum with
  | nil =>
    have hend : step ⟨ss, depth, .operator ⟨head, []⟩ sum⟩ .semicolon =
        .ok ⟨head.statement sum :: ss, depth, .statement⟩ := rfl
    exact .step Token.noConfusion hend completes_statement
  | cons open_ outer ih =>
    obtain ⟨bracket, p⟩ := open_
    -- a parenthesis closes either bracket; what it leaves behind is an operand again
    cases bracket with
    | group =>
      have hclose : step ⟨ss, depth, .operator ⟨head, (.group, p) :: outer⟩ sum⟩ .rightParen =
          .ok ⟨ss, depth, .operator ⟨head, outer⟩ (p.close sum)⟩ := rfl
      exact .step Token.noConfusion hclose ih
    | arguments name given =>
      have hclose : step ⟨ss, depth, .operator ⟨head, (.arguments name given, p) :: outer⟩ sum⟩
          .rightParen = .ok ⟨ss, depth, onNew ⟨head, outer⟩ p name (sum :: given)⟩ := rfl
      exact .step Token.noConfusion hclose ih

/-- Behind the parenthesis that opens the arguments, there may be none. -/
theorem completes_arguments {n : Nesting} {p : Pending} {name : String} :
    Completes ⟨ss, depth, .arguments n p name⟩ := by
  have hclose : step ⟨ss, depth, .arguments n p name⟩ .rightParen =
      .ok ⟨ss, depth, onNew n p name []⟩ := rfl
  exact .step Token.noConfusion hclose completes_operator

/-- Behind the name of a class, parentheses can be opened and closed again. -/
theorem completes_classTail {n : Nesting} {p : Pending} {name : String} :
    Completes ⟨ss, depth, .classTail n p name⟩ := by
  have hopen : step ⟨ss, depth, .classTail n p name⟩ .leftParen =
      .ok ⟨ss, depth, .arguments n p name⟩ := rfl
  exact .step Token.noConfusion hopen completes_arguments

/-- **What is open can be closed**, wherever the machine stands. -/
theorem completes (m : Parse) : m.Completes := by
  obtain ⟨ss, depth, juncture⟩ := m
  -- at each place the machine takes some token, to a place from where it can go on to the end
  cases juncture with
  | statement => exact completes_statement
  | returned =>
    have hend : step ⟨ss, depth, .returned⟩ .semicolon =
        .ok ⟨.return none :: ss, depth, .statement⟩ := rfl
    exact .step Token.noConfusion hend completes_statement
  | operand n p =>
    have hnull : step ⟨ss, depth, .operand n p⟩ .null =
        .ok ⟨ss, depth, .operator n (p.close .null)⟩ := rfl
    exact .step Token.noConfusion hnull completes_operator
  | operator n sum => exact completes_operator
  | className n p front =>
    have hname : step ⟨ss, depth, .className n p front⟩ (.name "a") =
        .ok ⟨ss, depth, .classTail n p (front ++ "a")⟩ := rfl
    exact .step Token.noConfusion hname completes_classTail
  | classTail n p name => exact completes_classTail
  | arguments n p name => exact completes_arguments

end Parse

/-! ### Viable rows of tokens -/

/-- The end of the input is the last token of a row, and none before. -/
def EndsOnce (tokens : List Located) : Prop :=
  ∃ ts, tokens.map (·.token) = ts ++ [.endOfInput] ∧ .endOfInput ∉ ts

/-- Some row that is accepted begins with these tokens. -/
def IsViable (front : List Located) : Prop :=
  ∃ back ss, EndsOnce (front ++ back) ∧ parse (front ++ back) = .ok ss

/-- What a viable row begins with is viable. -/
theorem IsViable.of_append {front back : List Located} (h : IsViable (front ++ back)) :
    IsViable front := by
  obtain ⟨rest, ss, hend, hparse⟩ := h
  rw [List.append_assoc] at hend hparse
  exact ⟨back ++ rest, ss, hend, hparse⟩

/-- The machine reads no more of a row than can be completed to a body. -/
theorem isViable_of_run {front : List Located} {m : Parse}
    (honly : .endOfInput ∉ front.map (·.token))
    (h : Parse.start.run (front.map (·.token)) = .ok m) : IsViable front := by
  obtain ⟨ts, m', hts, hrest⟩ := m.completes
  -- the places of the tokens that close the body are of no account
  let back : List Located := (ts ++ [Token.endOfInput]).map (⟨·, .start⟩)
  have htokens : (front ++ back).map (·.token) =
      front.map (·.token) ++ ts ++ [.endOfInput] := by
    simp [back, Function.comp_def]
  refine ⟨back, m'.statements.reverse, ⟨_, htokens, ?_⟩, ?_⟩
  · rw [List.mem_append, not_or]
    exact ⟨honly, hts⟩
  · refine parse_eq_ok.mpr ⟨m', ?_, rfl⟩
    rw [htokens, List.append_assoc, Parse.run_append, h]
    exact hrest

/-- A row is not viable any more behind a token that the machine refuses. -/
theorem not_isViable_of_step {front : List Located} {t : Located} {m : Parse}
    {cause : GrammarError} (h : Parse.start.run (front.map (·.token)) = .ok m)
    (hstep : m.step t.token = .error cause) (back : List Located) :
    ¬ IsViable (front ++ t :: back) := by
  intro hviable
  obtain ⟨rest, ss, -, hparse⟩ := hviable
  obtain ⟨m', hrun, -⟩ := parse_eq_ok.mp hparse
  rw [List.append_assoc, List.map_append, Parse.run_append, h] at hrun
  have hnext : m.step t.token >>= (Parse.run · ((back ++ rest).map (·.token))) = .ok m' := hrun
  rw [hstep] at hnext
  cases hnext

/-- In a row that ends once, no token with another one behind it is the end of the input. -/
theorem EndsOnce.front {front back : List Located} {t : Located}
    (h : EndsOnce (front ++ t :: back)) : .endOfInput ∉ front.map (·.token) := by
  obtain ⟨ts, hts, honly⟩ := h
  rw [List.map_append] at hts
  have hpassed : front.map (·.token) <+: ts := by
    refine List.prefix_of_prefix_length_le ⟨_, hts⟩ ⟨_, rfl⟩ ?_
    have hlength := congrArg List.length hts
    simp only [List.length_append, List.length_map, List.length_cons, List.length_nil] at hlength ⊢
    omega
  intro hmem
  exact honly (hpassed.subset hmem)

/-- **Syntax errors stand at the first bad token.** Of a row of tokens that ends with the end of
the input, the only one, and that is refused, the parts that some accepted row begins with are
those up to one token, exclusively; the place of the error is the place of this token. -/
theorem first_bad_token {tokens : List Located} {e : CompileError} (hend : EndsOnce tokens)
    (h : parse tokens = .error e) :
    ∃ i, ∃ hi : i < tokens.length, (∃ cause, e = .grammar tokens[i].position cause) ∧
      ∀ j ≤ tokens.length, IsViable (tokens.take j) ↔ j ≤ i := by
  obtain ⟨front, t, back, m, cause, rfl, hrun, hstep, rfl⟩ := parse_error h
  have hviable : IsViable front := isViable_of_run hend.front hrun
  refine ⟨front.length, by simp, ⟨cause, by simp⟩, ?_⟩
  intro j hj
  constructor
  · intro hbegins
    -- a longer part holds the token that is refused
    apply Nat.le_of_not_lt
    intro hlonger
    obtain ⟨k, rfl⟩ : ∃ k, j = front.length + (k + 1) := ⟨j - front.length - 1, by omega⟩
    rw [List.take_length_add_append, List.take_succ_cons] at hbegins
    exact not_isViable_of_step hrun hstep _ hbegins
  · intro hshorter
    rw [List.take_append_of_le_length hshorter]
    rw [← List.take_append_drop j front] at hviable
    exact hviable.of_append

/-- `{ return 1 - 2; }` -/
def differenceTokens : List Located :=
  [⟨.leftBrace, ⟨1, 1⟩⟩, ⟨.return, ⟨1, 3⟩⟩, ⟨.int 1, ⟨1, 10⟩⟩, ⟨.minus, ⟨1, 12⟩⟩,
    ⟨.int 2, ⟨1, 14⟩⟩, ⟨.semicolon, ⟨1, 15⟩⟩, ⟨.rightBrace, ⟨1, 17⟩⟩, ⟨.endOfInput, ⟨1, 18⟩⟩]

/-- The minus sign is the first bad token: what stands before it can still become a body. -/
theorem first_bad_token_difference :
    EndsOnce differenceTokens ∧
    parse differenceTokens = .error (.grammar ⟨1, 12⟩ .binaryMinus) ∧
    ∀ j ≤ 8, IsViable (differenceTokens.take j) ↔ j ≤ 3 := by
  have hend : EndsOnce differenceTokens :=
    ⟨[.leftBrace, .return, .int 1, .minus, .int 2, .semicolon, .rightBrace], rfl, by decide⟩
  have hparse : parse differenceTokens = .error (.grammar ⟨1, 12⟩ .binaryMinus) := rfl
  -- no other token stands in this column
  have honly : ∀ k : Fin 8, differenceTokens[k].position = ⟨1, 12⟩ → k = 3 := by decide
  obtain ⟨i, hi, ⟨cause, hplace⟩, hviable⟩ := first_bad_token hend hparse
  have hposition : differenceTokens[i].position = ⟨1, 12⟩ :=
    (CompileError.grammar.inj hplace).1.symm
  obtain rfl : i = 3 := congrArg Fin.val (honly ⟨i, hi⟩ hposition)
  exact ⟨hend, hparse, hviable⟩

end Defuse
