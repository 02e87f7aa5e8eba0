import Defuse.Proofs.Grammar

namespace Defuse

/-!
# What the parser has read

Between two tokens, the machine keeps all that matters of the tokens before: what they derive,
and what the constructs that are still open wait for.

* `Signs`, `Waits`, `Within`, `Blocks` — the tokens of an open operand, of open brackets and of
  open blocks;
* `Juncture.Stands`, `Parse.Stands` — the tokens that lead to a juncture, and to a machine;
* `Parse.Stands.step`, `Parse.Stands.run` — a step that succeeds takes one more token, and so
  does a run;
* `parse_derives` — the parser accepts exactly the bodies of the grammar.
-/

open Grammar (ClassName Given ArgumentList Literal Item Operand Primary)

/-! ### Open constructs -/

/-- Signs in front of an operand, with the number of minus signs. -/
inductive Signs : List Token → Nat → Prop
  | nil : Signs [] 0
  | minus {ts : List Token} {n : Nat} : Signs ts n → Signs (ts ++ [.minus]) (n + 1)
  | plus {ts : List Token} {n : Nat} : Signs ts n → Signs (ts ++ [.plus]) n

/-- What waits for an operand: signs, behind a sum and a plus sign perhaps. -/
inductive Waits : Pending → List Token → Prop
  | first {ts : List Token} {n : Nat} : Signs ts n → Waits ⟨none, n⟩ ts
  | more {ts us : List Token} {left : Expression} {n : Nat} :
      Grammar.Sum ts left → Signs us n → Waits ⟨some left, n⟩ (ts ++ .plus :: us)

/-- The arguments up to the next one, each with the comma behind it; the last one comes
first. -/
inductive Passed : List Token → List Expression → Prop
  | nil : Passed [] []
  | cons {ts : List Token} {es : List Expression} :
      Given ts es → Passed (ts ++ [.comma]) es.reverse

/-- The open brackets of an expression, with all that stands in front of them. -/
inductive Within : List (Bracket × Pending) → List Token → Prop
  | nil : Within [] []
  | group {outer : List (Bracket × Pending)} {p : Pending} {ts us : List Token} :
      Within outer ts → Waits p us → Within ((.group, p) :: outer) (ts ++ us ++ [.leftParen])
  | arguments {outer : List (Bracket × Pending)} {p : Pending} {ts us vs ws : List Token}
      {name : String} {given : List Expression} :
      Within outer ts → Waits p us → ClassName vs name → Passed ws given →
      Within ((.arguments name given, p) :: outer)
        (ts ++ us ++ .new :: (vs ++ .leftParen :: ws))

/-- The word that a statement begins with. -/
def Head.token : Head → Token
  | .return => .return
  | .throw => .throw

/-- The tokens of a statement up to an open expression. -/
inductive Opened : Nesting → List Token → Prop
  | mk {head : Head} {brackets : List (Bracket × Pending)} {ts : List Token} :
      Within brackets ts → Opened ⟨head, brackets⟩ (head.token :: ts)

/-- Open blocks, with the statements that have been read. -/
inductive Blocks : Nat → List Token → List Statement → Prop
  | body {ts : List Token} {ss : List Statement} : Grammar.Body ts ss → Blocks 0 ts ss
  | block {depth : Nat} {ts us : List Token} {ss rs : List Statement} :
      Blocks depth ts ss → Grammar.Body us rs →
        Blocks (depth + 1) (ts ++ .leftBrace :: us) (ss ++ rs)

/-- The part of a class name in front of its next part. -/
inductive NameFront : List Token → String → Prop
  | nil : NameFront [] ""
  | dot {ts : List Token} {name : String} :
      ClassName ts name → NameFront (ts ++ [.dot]) (name ++ ".")

/-- The tokens of a statement that lead to a juncture. -/
inductive Juncture.Stands : Juncture → List Token → Prop
  | statement : Stands .statement []
  | returned : Stands .returned [.return]
  | operand {n : Nesting} {p : Pending} {ts us : List Token} :
      Opened n ts → Waits p us → Stands (.operand n p) (ts ++ us)
  | operator {n : Nesting} {e : Expression} {ts us : List Token} :
      Opened n ts → Grammar.Sum us e → Stands (.operator n e) (ts ++ us)
  | className {n : Nesting} {p : Pending} {front : String} {ts us vs : List Token} :
      Opened n ts → Waits p us → NameFront vs front →
      Stands (.className n p front) (ts ++ us ++ .new :: vs)
  | classTail {n : Nesting} {p : Pending} {name : String} {ts us vs : List Token} :
      Opened n ts → Waits p us → ClassName vs name →
      Stands (.classTail n p name) (ts ++ us ++ .new :: vs)
  | arguments {n : Nesting} {p : Pending} {name : String} {ts us vs : List Token} :
      Opened n ts → Waits p us → ClassName vs name →
      Stands (.arguments n p name) (ts ++ us ++ .new :: (vs ++ [.leftParen]))

/-- The tokens that lead to a machine. -/
inductive Parse.Stands : Parse → List Token → Prop
  | mk {ss : List Statement} {depth : Nat} {j : Juncture} {ts us : List Token} :
      Blocks depth ts ss.reverse → j.Stands us → Stands ⟨ss, depth, j⟩ (ts ++ us)

/-! ### Closing what is open -/

/-- Signs in front of an operand make an operand. -/
theorem Signs.operand {ts us : List Token} {n : Nat} {e : Expression} (h : Signs ts n)
    (he : Operand us e) : Operand (ts ++ us) (Nat.repeat .negate n e) := by
  -- the last sign goes to the operand, those before it are the smaller row
  induction h generalizing us e with
  | nil => exact he
  | @minus ts n _ ih =>
    have hnegated : Operand (.minus :: us) (.negate e) := .minus he
    rw [List.append_assoc, Expression.repeat_negate_succ]
    exact ih hnegated
  | @plus ts n _ ih =>
    have hsigned : Operand (.plus :: us) e := .plus he
    rw [List.append_assoc]
    exact ih hsigned

/-- Nothing has been read of an expression. -/
theorem Waits.none : Waits .none [] := .first .nil

/-- One more minus sign waits for its operand. -/
theorem Waits.minus {p : Pending} {ts : List Token} (h : Waits p ts) :
    Waits { p with negations := p.negations + 1 } (ts ++ [.minus]) := by
  cases h with
  | first hsigns => exact .first hsigns.minus
  | more hleft hsigns =>
    rw [List.append_assoc]
    exact .more hleft hsigns.minus

/-- One more plus sign waits for its operand. -/
theorem Waits.plus {p : Pending} {ts : List Token} (h : Waits p ts) :
    Waits p (ts ++ [.plus]) := by
  cases h with
  | first hsigns => exact .first hsigns.plus
  | more hleft hsigns =>
    rw [List.append_assoc]
    exact .more hleft hsigns.plus

/-- An operand in its place makes a sum. -/
theorem Waits.close {p : Pending} {ts us : List Token} {e : Expression} (h : Waits p ts)
    (he : Operand us e) : Grammar.Sum (ts ++ us) (p.close e) := by
  cases h with
  | first hsigns => exact .operand (hsigns.operand he)
  | more hleft hsigns =>
    rw [List.append_assoc]
    exact .add hleft (hsigns.operand he)

/-- A statement behind others. -/
theorem Grammar.Body.snoc {us : List Token} {rs : List Statement} (hitem : Item us rs) :
    ∀ {ts : List Token} {ss : List Statement}, Grammar.Body ts ss →
      Grammar.Body (ts ++ us) (ss ++ rs)
  | _, _, .nil => by
    have hsingle : Grammar.Body (us ++ []) (rs ++ []) := .cons hitem .nil
    rwa [List.append_nil, List.append_nil] at hsingle
  | _, _, .cons hfirst hbody => by
    rw [List.append_assoc, List.append_assoc]
    exact .cons hfirst (hbody.snoc hitem)

/-- A statement behind others, inside open blocks. -/
theorem Blocks.snoc {depth : Nat} {ts us : List Token} {ss rs : List Statement}
    (h : Blocks depth ts ss) (hitem : Item us rs) : Blocks depth (ts ++ us) (ss ++ rs) := by
  cases h with
  | body hbody => exact .body (hbody.snoc hitem)
  | block houter hbody =>
    have hlonger := houter.block (hbody.snoc hitem)
    rw [List.append_assoc, List.append_assoc]
    exact hlonger

/-- A block that ends is one statement of the block around it. -/
theorem Blocks.close {depth : Nat} {ts : List Token} {ss : List Statement}
    (h : Blocks (depth + 1) ts ss) : Blocks depth (ts ++ [.rightBrace]) ss := by
  cases h with
  | block houter hbody =>
    rw [List.append_assoc]
    exact houter.snoc (.block hbody)

/-- A class name, once its next part is there. -/
theorem NameFront.name {ts : List Token} {front : String} (h : NameFront ts front)
    (text : String) : ClassName (ts ++ [.name text]) (front ++ text) := by
  cases h with
  | nil =>
    have hname : "" ++ text = text := by simp
    rw [hname]
    exact .single text
  | dot hname =>
    have hqualified := hname.qualified text
    rwa [List.append_assoc]

/-- The arguments that have been read, with the last one. -/
theorem Passed.given {ts us : List Token} {es : List Expression} {e : Expression}
    (h : Passed ts es) (he : Grammar.Sum us e) : Given (ts ++ us) (e :: es).reverse := by
  rw [List.reverse_cons]
  cases h with
  | nil => exact .single he
  | cons hgiven =>
    rw [List.reverse_reverse, List.append_assoc]
    exact .more hgiven he

/-! ### One token within a statement -/

namespace Juncture.Stands

variable {n : Nesting} {head : Head} {outer : List (Bracket × Pending)} {p : Pending} {t : Token}
  {ts us vs ws : List Token} {j k : Juncture} {e : Expression} {es : List Expression}
  {name : String}

/-- Tokens in front of an open bracket, and the bracket. -/
theorem opened {brackets : List (Bracket × Pending)} (head : Head) (h : Within brackets ts) :
    (Juncture.operand ⟨head, brackets⟩ .none).Stands (head.token :: ts) := by
  have hopened : Opened ⟨head, brackets⟩ (head.token :: ts) := .mk h
  have hstands := operand hopened .none
  rwa [List.append_nil] at hstands

/-- A token before an operand. -/
theorem onOperand (hn : Opened n ts) (hp : Waits p us) (h : Parse.onOperand n p t = .ok k) :
    k.Stands (ts ++ us ++ [t]) := by
  unfold Parse.onOperand at h
  -- the token is an operand, or one of those that an operand begins with
  split at h
  · next e he =>
    cases h
    have hsum := hp.close (.primary (.literal (Parse.literal?_eq_some.mp he)))
    rw [List.append_assoc]
    exact operator hn hsum
  · split at h
    · cases h
      rw [List.append_assoc]
      exact operand hn hp.minus
    · cases h
      rw [List.append_assoc]
      exact operand hn hp.plus
    · cases h
      cases hn with
      | mk hwithin => exact opened _ (hwithin.group hp)
    · cases h
      exact className hn hp .nil
    · cases h
    · cases h

/-- A new object behind its last parenthesis. -/
theorem onNew (hn : Opened n ts) (hp : Waits p us) (hname : ClassName vs name)
    (hgiven : ArgumentList ws es.reverse) :
    (Parse.onNew n p name es).Stands
      (ts ++ us ++ .new :: (vs ++ .leftParen :: (ws ++ [.rightParen]))) := by
  have hsum := hp.close (.primary (.new hname hgiven))
  rw [List.append_assoc]
  exact operator hn hsum

/-- A token behind an operand, inside a bracket. -/
theorem onBracket {bracket : Bracket} (hn : Opened ⟨head, (bracket, p) :: outer⟩ ts)
    (he : Grammar.Sum us e) (h : Parse.onBracket head bracket p outer e t = .ok k) :
    k.Stands (ts ++ us ++ [t]) := by
  obtain ⟨hwithin⟩ := hn
  unfold Parse.onBracket at h
  -- one case for each token that can follow a sum in brackets
  split at h
  · cases h
    cases hwithin with
    | @group _ _ front _ houter hp =>
      have hopened : Opened ⟨head, outer⟩ (head.token :: front) := .mk houter
      have hsum := hp.close (.primary (.group he))
      have hstands := operator hopened hsum
      simpa only [List.append_assoc, List.cons_append, List.nil_append] using hstands
  · cases h
    cases hwithin with
    | @arguments _ _ front _ _ _ _ _ houter hp hname hpassed =>
      have hopened : Opened ⟨head, outer⟩ (head.token :: front) := .mk houter
      have hstands := onNew hopened hp hname (.some (hpassed.given he))
      simpa only [List.append_assoc, List.cons_append, List.nil_append] using hstands
  · cases h
    cases hwithin with
    | arguments houter hp hname hpassed =>
      have hlonger := Passed.cons (hpassed.given he)
      rw [List.reverse_reverse] at hlonger
      have hstands := opened head (houter.arguments hp hname hlonger)
      simpa only [List.append_assoc, List.cons_append, List.nil_append] using hstands
  · cases h

end Juncture.Stands

/-! ### One token -/

/-- A step within a statement, if it succeeds. -/
theorem go_eq_ok {ss : List Statement} {depth : Nat} {r : Except GrammarError Juncture}
    {m : Parse} (h : r.map (Parse.mk ss depth) = .ok m) : ∃ k, r = .ok k ∧ m = ⟨ss, depth, k⟩ := by
  cases r with
  | error cause => cases h
  | ok k =>
    cases h
    exact ⟨k, rfl, rfl⟩

/-- Tokens that lead to a juncture within a statement. -/
theorem Parse.Stands.go {ss : List Statement} {depth : Nat} {k : Juncture} {t : Token}
    {ts us : List Token} (h : Blocks depth ts ss.reverse) (hk : k.Stands (us ++ [t])) :
    Parse.Stands ⟨ss, depth, k⟩ (ts ++ us ++ [t]) := by
  rw [List.append_assoc]
  exact .mk h hk

/-- Tokens that lead behind a statement. -/
theorem Parse.Stands.item {ss : List Statement} {depth : Nat} {s : Statement}
    {ts us : List Token} (h : Blocks depth ts ss.reverse) (hitem : Item us [s]) :
    Parse.Stands ⟨s :: ss, depth, .statement⟩ (ts ++ us) := by
  have hblocks := h.snoc hitem
  rw [← List.reverse_cons] at hblocks
  have hstands := mk hblocks .statement
  rwa [List.append_nil] at hstands

/-- A token before a statement. -/
theorem Parse.Stands.onStatement {ss : List Statement} {depth : Nat} {m' : Parse} {t : Token}
    {ts : List Token} (h : Blocks depth ts ss.reverse) (ht : t ≠ .endOfInput)
    (hstep : Parse.step ⟨ss, depth, .statement⟩ t = .ok m') : m'.Stands (ts ++ [t]) := by
  simp only [Parse.step] at hstep
  split at hstep
  · -- a block begins
    cases hstep
    have hblocks : Blocks (depth + 1) (ts ++ [.leftBrace]) (ss.reverse ++ []) := h.block .nil
    rw [List.append_nil] at hblocks
    have hstands := mk hblocks .statement
    rwa [List.append_nil] at hstands
  · -- an empty statement
    cases hstep
    have hblocks := h.snoc .empty
    rw [List.append_nil] at hblocks
    have hstands := mk hblocks .statement
    rwa [List.append_nil] at hstands
  · cases hstep
    exact mk h .returned
  · cases hstep
    exact mk h (.opened .throw .nil)
  · -- a block ends, if there is one
    cases depth with
    | zero => cases hstep
    | succ depth =>
      cases hstep
      have hstands := mk h.close .statement
      rwa [List.append_nil] at hstands
  · exact absurd rfl ht
  · cases hstep

/-- A token behind an operand. -/
theorem Parse.Stands.onOperator {ss : List Statement} {depth : Nat} {m' : Parse} {n : Nesting}
    {e : Expression} {t : Token} {ts us vs : List Token} (h : Blocks depth ts ss.reverse)
    (hn : Opened n us) (he : Grammar.Sum vs e)
    (hstep : Parse.step ⟨ss, depth, .operator n e⟩ t = .ok m') :
    m'.Stands (ts ++ (us ++ vs) ++ [t]) := by
  obtain ⟨head, brackets⟩ := n
  simp only [Parse.step] at hstep
  split at hstep
  · -- the sum goes on
    cases hstep
    have hwaits : Waits ⟨some e, 0⟩ (vs ++ [.plus]) := .more he .nil
    refine .go h ?_
    rw [List.append_assoc]
    exact .operand hn hwaits
  · cases hstep
  · cases brackets with
    | cons bracket outer =>
      obtain ⟨k, hk, rfl⟩ := go_eq_ok hstep
      exact .go h (.onBracket hn he hk)
    | nil =>
      -- the statement ends
      dsimp only at hstep
      split at hstep
      · next hsemicolon =>
        cases hstep
        subst hsemicolon
        obtain ⟨⟨⟩⟩ := hn
        rw [List.append_assoc]
        cases head with
        | «return» => exact .item h (.return he)
        | throw => exact .item h (.throw he)
      · cases hstep

/-- **One token.** What a step succeeds on is read: behind the tokens that lead to the machine,
it leads to what the step leaves. -/
theorem Parse.Stands.step {m m' : Parse} {ts : List Token} {t : Token} (h : m.Stands ts)
    (ht : t ≠ .endOfInput) (hstep : m.step t = .ok m') : m'.Stands (ts ++ [t]) := by
  -- one case for each place in the grammar, and in it one for each token that can follow there
  obtain @⟨ss, depth, j, ts, us, hblocks, hj⟩ := h
  cases hj with
  | statement =>
    rw [List.append_nil]
    exact onStatement hblocks ht hstep
  | returned =>
    simp only [Parse.step] at hstep
    split at hstep
    · next hsemicolon =>
      cases hstep
      subst hsemicolon
      rw [List.append_assoc]
      exact .item hblocks .leave
    · obtain ⟨k, hk, rfl⟩ := go_eq_ok hstep
      have hopened : Opened ⟨.return, []⟩ [.return] := .mk .nil
      exact .go hblocks (.onOperand hopened .none hk)
  | operand hn hp =>
    obtain ⟨k, hk, rfl⟩ := go_eq_ok hstep
    exact .go hblocks (.onOperand hn hp hk)
  | operator hn he => exact onOperator hblocks hn he hstep
  | @className _ _ _ _ _ vs hn hp hfront =>
    simp only [Parse.step] at hstep
    split at hstep
    · next text =>
      cases hstep
      refine .go hblocks ?_
      have hstands := Juncture.Stands.classTail hn hp (hfront.name text)
      simpa only [List.append_assoc, List.cons_append] using hstands
    · cases hstep
  | classTail hn hp hname =>
    simp only [Parse.step] at hstep
    split at hstep
    · cases hstep
      refine .go hblocks ?_
      have hstands := Juncture.Stands.className hn hp (.dot hname)
      simpa only [List.append_assoc, List.cons_append] using hstands
    · cases hstep
      refine .go hblocks ?_
      have hstands := Juncture.Stands.arguments hn hp hname
      simpa only [List.append_assoc, List.cons_append] using hstands
    · cases hstep
  | arguments hn hp hname =>
    simp only [Parse.step] at hstep
    split at hstep
    · next hclosed =>
      cases hstep
      subst hclosed
      refine .go hblocks ?_
      have hnone : ArgumentList [] [].reverse := .none
      have hstands := Juncture.Stands.onNew hn hp hname hnone
      simpa only [List.append_assoc, List.cons_append, List.nil_append] using hstands
    · obtain ⟨k, hk, rfl⟩ := go_eq_ok hstep
      refine .go hblocks ?_
      obtain ⟨hwithin⟩ := hn
      have hstands := Juncture.Stands.onOperand (.mk (hwithin.arguments hp hname .nil)) .none hk
      simpa only [List.append_assoc, List.cons_append, List.nil_append] using hstands

/-! ### Rows of tokens -/

/-- Nothing leads to the machine before the first token. -/
theorem Parse.Stands.start : Parse.start.Stands [] := by
  have hblocks : Blocks 0 [] [].reverse := .body .nil
  exact .mk hblocks .statement

/-- **A row of tokens.** What a run succeeds on is read. -/
theorem Parse.Stands.run {us : List Token} (hus : .endOfInput ∉ us) {m m' : Parse}
    {ts : List Token} (h : m.Stands ts) (hrun : m.run us = .ok m') : m'.Stands (ts ++ us) := by
  induction us generalizing m ts with
  | nil =>
    cases hrun
    rwa [List.append_nil]
  | cons t us ih =>
    rw [Parse.run_cons] at hrun
    cases hstep : m.step t with
    | error cause =>
      rw [hstep] at hrun
      cases hrun
    | ok next =>
      rw [hstep] at hrun
      have ht : t ≠ .endOfInput := by
        rintro rfl
        exact hus List.mem_cons_self
      have hrest : .endOfInput ∉ us := fun hmem => hus (List.mem_cons_of_mem _ hmem)
      have hread := ih hrest (h.step ht hstep) hrun
      rwa [List.append_assoc] at hread

/-- Where the input ends well, no statement and no block is open. -/
theorem Parse.step_endOfInput {m m' : Parse} (h : m.step .endOfInput = .ok m') :
    m.juncture = .statement ∧ m.depth = 0 ∧ m' = m := by
  obtain ⟨ss, depth, j⟩ := m
  cases j with
  | statement =>
    cases depth with
    | zero =>
      cases h
      exact ⟨rfl, rfl, rfl⟩
    | succ depth => cases h
  | operator n e =>
    obtain ⟨head, brackets⟩ := n
    cases brackets with
    | nil => cases h
    | cons bracket outer =>
      obtain ⟨_ | _, p⟩ := bracket <;> cases h
  | returned => cases h
  | operand n p => cases h
  | className n p front => cases h
  | classTail n p name => cases h
  | arguments n p name => cases h

/-- A body that the machine has read to its end is one of the grammar. -/
theorem Parse.Stands.body {ss : List Statement} {ts : List Token}
    (h : Parse.Stands ⟨ss, 0, .statement⟩ ts) : Grammar.Body ts ss.reverse := by
  obtain ⟨⟨hbody⟩, ⟨⟩⟩ := h
  rwa [List.append_nil]

/-- What the machine has read when the input ends well is a body of the grammar. -/
theorem Parse.body_of_run {ts : List Token} {m : Parse} (honly : .endOfInput ∉ ts)
    (h : start.run (ts ++ [.endOfInput]) = .ok m) : Grammar.Body ts m.statements.reverse := by
  rw [run_append] at h
  cases hread : start.run ts with
  | error cause =>
    rw [hread] at h
    cases h
  | ok last =>
    rw [hread] at h
    have hstands : last.Stands ts := Stands.start.run honly hread
    have hend : last.step .endOfInput >>= pure = .ok m := h
    rw [bind_pure] at hend
    obtain ⟨hjuncture, hdepth, rfl⟩ := step_endOfInput hend
    obtain ⟨ss, depth, j⟩ := m
    cases hjuncture
    cases hdepth
    exact hstands.body

/-- A body of the grammar is read to its end. -/
theorem Parse.run_of_body {ts : List Token} {ss : List Statement} (h : Grammar.Body ts ss) :
    start.run (ts ++ [.endOfInput]) = .ok ⟨ss.reverse, 0, .statement⟩ := by
  have hrun : start.run ts = .ok ⟨ss.reverse ++ [], 0, .statement⟩ := h.run [] 0
  rw [List.append_nil] at hrun
  rw [run_append, hrun]
  rfl

/-- The places of tokens decide nothing. -/
theorem foldlM_advance_eq_ok {tokens : List Located} {m m' : Parse} :
    tokens.foldlM Parse.advance m = .ok m' ↔ m.run (tokens.map (·.token)) = .ok m' := by
  induction tokens generalizing m with
  | nil =>
    constructor
    · rintro ⟨⟩
      rfl
    · rintro ⟨⟩
      rfl
  | cons t tokens ih =>
    rw [List.map_cons, Parse.run_cons, List.foldlM_cons, Parse.advance]
    cases m.step t.token with
    | error cause => simp [bind, Except.bind]
    | ok next => exact ih

/-- Only a token is to blame: the one that the machine behind those before it has no step for. -/
theorem foldlM_advance_error {tokens : List Located} {m : Parse} {e : CompileError}
    (h : tokens.foldlM Parse.advance m = .error e) :
    ∃ front t back last cause, tokens = front ++ t :: back ∧
      m.run (front.map (·.token)) = .ok last ∧ last.step t.token = .error cause ∧
      e = .grammar t.position cause := by
  induction tokens generalizing m with
  | nil => cases h
  | cons t tokens ih =>
    rw [List.foldlM_cons, Parse.advance] at h
    cases hstep : m.step t.token with
    | error cause =>
      rw [hstep] at h
      cases h
      exact ⟨[], t, tokens, m, cause, rfl, rfl, hstep, rfl⟩
    | ok next =>
      rw [hstep] at h
      obtain ⟨front, found, back, last, cause, rfl, hrun, hfound, hcause⟩ := ih h
      refine ⟨t :: front, found, back, last, cause, rfl, ?_, hfound, hcause⟩
      rw [List.map_cons, Parse.run_cons, hstep]
      exact hrun

/-- A body is parsed to the statements of the machine behind its last token. -/
theorem parse_eq_ok {tokens : List Located} {ss : List Statement} :
    parse tokens = .ok ss ↔
      ∃ m, Parse.start.run (tokens.map (·.token)) = .ok m ∧ ss = m.statements.reverse := by
  unfold parse
  split
  · next m hm =>
    have hrun := foldlM_advance_eq_ok.mp hm
    rw [hrun]
    simp [eq_comm]
  · next e he =>
    simp only [reduceCtorEq, false_iff]
    rintro ⟨m, hrun, -⟩
    rw [foldlM_advance_eq_ok.mpr hrun] at he
    cases he

/-- Tokens that make a body, in front of the end of the input, are parsed. -/
theorem parse_of_body {tokens : List Located} {ts : List Token} {ss : List Statement}
    (htokens : tokens.map (·.token) = ts ++ [.endOfInput]) (h : Grammar.Body ts ss) :
    parse tokens = .ok ss := by
  refine parse_eq_ok.mpr ⟨⟨ss.reverse, 0, .statement⟩, ?_, (List.reverse_reverse ss).symm⟩
  rw [htokens]
  exact Parse.run_of_body h

/-- What is refused is refused at a token. -/
theorem parse_error {tokens : List Located} {e : CompileError} (h : parse tokens = .error e) :
    ∃ front t back last cause, tokens = front ++ t :: back ∧
      Parse.start.run (front.map (·.token)) = .ok last ∧ last.step t.token = .error cause ∧
      e = .grammar t.position cause := by
  unfold parse at h
  split at h
  · cases h
  · next e' he =>
    cases h
    exact foldlM_advance_error he

/-- **The parser accepts exactly its grammar.** A row of tokens that ends with the end of the
input, the only one, is parsed to some statements if and only if they are what the tokens before
derive; a row that derives nothing is refused at one of its tokens. -/
theorem parse_derives {tokens : List Located} {ts : List Token}
    (hend : tokens.map (·.token) = ts ++ [.endOfInput]) (honly : .endOfInput ∉ ts) :
    (∀ ss, parse tokens = .ok ss ↔ Grammar.Body ts ss) ∧
    ((∀ ss, ¬ Grammar.Body ts ss) →
      ∃ t ∈ tokens, ∃ cause, parse tokens = .error (.grammar t.position cause)) := by
  have haccepts : ∀ ss, parse tokens = .ok ss ↔ Grammar.Body ts ss := by
    intro ss
    rw [parse_eq_ok, hend]
    constructor
    · rintro ⟨m, hrun, rfl⟩
      exact Parse.body_of_run honly hrun
    · intro hbody
      exact ⟨_, Parse.run_of_body hbody, (List.reverse_reverse ss).symm⟩
  refine ⟨haccepts, fun hnone => ?_⟩
  cases hparse : parse tokens with
  | ok ss => exact absurd ((haccepts ss).mp hparse) (hnone ss)
  | error e =>
    obtain ⟨front, t, back, -, cause, rfl, -, -, rfl⟩ := parse_error hparse
    exact ⟨t, by simp, cause, rfl⟩

/-- `{ ; return -(+1 + 2L); } throw new a.B("x", null);` -/
def nestedBody : List Token :=
  [.leftBrace, .semicolon, .return, .minus, .leftParen, .plus, .int 1, .plus, .long 2,
    .rightParen, .semicolon, .rightBrace, .throw, .new, .name "a", .dot, .name "B", .leftParen,
    .string "x", .comma, .null, .rightParen, .semicolon]

/-- The block, the empty statement, the parentheses and the plus sign leave no trace. -/
theorem parse_derives_nested :
    Token.endOfInput ∉ nestedBody ∧
    Grammar.Body nestedBody
      [.return (some (.negate (.add (.int 1) (.long 2)))),
        .throw (.new "a.B" [.string "x", .null])] := by
  have honly : Token.endOfInput ∉ nestedBody := by decide
  let tokens : List Located := (nestedBody ++ [Token.endOfInput]).map fun t => ⟨t, .start⟩
  have hend : tokens.map (·.token) = nestedBody ++ [.endOfInput] := rfl
  exact ⟨honly, ((parse_derives hend honly).1 _).mp rfl⟩

end Defuse
