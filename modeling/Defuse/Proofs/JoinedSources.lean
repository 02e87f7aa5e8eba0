import Defuse.Proofs.Recognition
import Defuse.Proofs.Relocation

namespace Defuse

open Scan

/-!
# Source texts one below the other

A source text means the same whatever stands on the lines above it and below it.

* `lineEnds`, `Position.after_lineEnd` — where a text starts that stands below another;
* `Scan.Yields.join` — the tokens of one text and those of the other;
* `tokenize_eq_ok`, `parseBody_eq_ok` — when a source text has tokens, and when it is a body;
* `sources_compose` — source texts one below the other have the tokens and the statements of both,
  and a body in braces has those of the body.
-/

/-- The number of line ends of a source text. -/
def lineEnds (source : String) : Nat := source.toList.count '\n'

/-- Each line end moves a position down by one line. -/
theorem Position.line_afterAll (p : Position) (cs : List Char) :
    (p.afterAll cs).line = p.line + cs.count '\n' := by
  induction cs generalizing p with
  | nil => rfl
  | cons c cs ih =>
    rw [afterAll_cons, ih, List.count_cons]
    by_cases hc : c = '\n'
    · simp only [after, hc, ↓reduceIte, beq_self_eq_true]
      omega
    · simp [after, hc]

/-- Below a text, the first column is one line further down than its last line. -/
theorem Position.after_lineEnd (source : String) :
    (Position.start.afterAll source.toList).after '\n' = start.down (1 + lineEnds source) := by
  rw [after, if_pos rfl, line_afterAll]
  show Position.mk (1 + _ + 1) 1 = ⟨1 + (1 + _), 1⟩
  rw [Nat.add_right_comm, Nat.add_assoc]
  rfl

/-! ### Tokens -/

/-- A line end belongs to the gap in front of what stands behind it. -/
theorem Scan.tokensOnto_lineEnd (acc : List Located) (p : Position) (cs : List Char) :
    tokensOnto acc p ('\n' :: cs) = tokensOnto acc (p.after '\n') cs :=
  tokensOnto_congr rfl

/-- A text below another ends as many lines further down as it starts. -/
theorem Position.afterAll_join (a b : String) :
    Position.start.afterAll (a ++ "\n" ++ b).toList =
      (Position.start.afterAll b.toList).down (1 + lineEnds a) := by
  have hchars : (a ++ "\n" ++ b).toList = a.toList ++ '\n' :: b.toList := by simp
  rw [hchars, afterAll_append, afterAll_cons, after_lineEnd, afterAll_down]

/-- The tokens of a text below another are its own, some lines further down. -/
theorem Scan.Yields.join {a b : String} {ts us : List Located}
    (ha : Yields .start a.toList ts) (hb : Yields .start b.toList us) :
    Yields .start (a ++ "\n" ++ b).toList (ts ++ us.map (·.down (1 + lineEnds a))) where
  proper := by
    intro t ht
    rcases List.mem_append.mp ht with ht | ht
    · exact ha.proper t ht
    · obtain ⟨u, hu, rfl⟩ := List.mem_map.mp ht
      exact hb.proper u hu
  moved := by
    intro n tail acc ht
    let m := 1 + lineEnds a
    have hchars : (a ++ "\n" ++ b).toList = a.toList ++ '\n' :: b.toList := by simp
    have hbelow : ((Position.start.afterAll a.toList).down n).after '\n' =
        Position.start.down (m + n) := by
      rw [Position.after_down, Position.after_lineEnd, Position.down_down]
    have htokens : (ts ++ us.map (·.down m)).map (·.down n) =
        ts.map (·.down n) ++ us.map (·.down (m + n)) := by
      rw [List.map_append, List.map_map]
      simp [Function.comp_def, Located.down_down]
    -- the first text, then its line end, then the second text that much further down
    calc tokensOnto acc (Position.start.down n) ((a ++ "\n" ++ b).toList ++ tail)
        = tokensOnto acc (Position.start.down n) (a.toList ++ '\n' :: (b.toList ++ tail)) := by
          rw [hchars, List.append_assoc, List.cons_append]
      _ = tokensOnto ((ts.map (·.down n)).reverse ++ acc)
            ((Position.start.afterAll a.toList).down n) ('\n' :: (b.toList ++ tail)) :=
          ha.moved n _ acc (.line _)
      _ = tokensOnto ((ts.map (·.down n)).reverse ++ acc) (Position.start.down (m + n))
            (b.toList ++ tail) := by
          rw [tokensOnto_lineEnd, hbelow]
      _ = tokensOnto ((us.map (·.down (m + n))).reverse ++ ((ts.map (·.down n)).reverse ++ acc))
            ((Position.start.afterAll b.toList).down (m + n)) tail :=
          hb.moved _ tail _ ht
      _ = _ := by
          rw [Position.afterAll_join, Position.down_down, htokens, List.reverse_append,
            List.append_assoc]

/-- A source text has its tokens, and behind them the end of the input. -/
theorem tokenize_eq_ok {source : String} {ts : List Located} :
    tokenize source = .ok ts ↔
      ∃ us, Yields .start source.toList us ∧
        ts = us ++ [⟨.endOfInput, Position.start.afterAll source.toList⟩] := by
  constructor
  · intro h
    unfold tokenize at h
    split at h
    · next tokens hscan =>
      cases h
      exact yields_of_tokensOnto hscan
    · cases h
  · rintro ⟨us, hus, rfl⟩
    have hmoved : tokensOnto [] .start (source.toList ++ []) = _ := hus.moved 0 [] [] .nothing
    -- no line further down, and with nothing behind it
    have hscan : tokensOnto [] .start source.toList =
        .ok (us ++ [⟨.endOfInput, Position.start.afterAll source.toList⟩]) := by
      have hsame : us.map (·.down 0) = us := List.map_id' us
      rw [List.append_nil, hsame] at hmoved
      rw [hmoved, tokensOnto_end rfl]
      simp [Position.down]
    rw [tokenize, hscan]

/-! ### Statements -/

/-- Two bodies, one behind the other, are a body. -/
theorem Grammar.Body.append {ts us : List Token} {ss rs : List Statement} :
    Body ts ss → Body us rs → Body (ts ++ us) (ss ++ rs)
  | .nil, h => h
  | .cons hitem hbody, h => by
    rw [List.append_assoc, List.append_assoc]
    exact .cons hitem (hbody.append h)

/-- A source text is a body if its tokens are. -/
theorem parseBody_eq_ok {source : String} {ss : List Statement} :
    parseBody source = .ok ss ↔
      ∃ ts, Yields .start source.toList ts ∧ Grammar.Body (ts.map (·.token)) ss := by
  constructor
  · intro h
    unfold parseBody at h
    split at h
    · next tokens htokens =>
      obtain ⟨ts, hts, rfl⟩ := tokenize_eq_ok.mp htokens
      obtain ⟨m, hrun, rfl⟩ := parse_eq_ok.mp h
      rw [List.map_append] at hrun
      refine ⟨ts, hts, Parse.body_of_run ?_ hrun⟩
      intro hmem
      obtain ⟨t, ht, hend⟩ := List.mem_map.mp hmem
      exact hts.proper t ht hend
    · cases h
  · rintro ⟨ts, hts, hbody⟩
    have htokens := tokenize_eq_ok.mpr ⟨ts, hts, rfl⟩
    rw [parseBody, htokens]
    exact parse_of_body (by rw [List.map_append]; rfl) hbody

/-- Further down stand the same tokens. -/
theorem map_token_down (ts : List Located) (n : Nat) :
    (ts.map (·.down n)).map (·.token) = ts.map (·.token) := by
  rw [List.map_map]
  rfl

/-- A brace is a token by itself. -/
theorem yields_open : Yields .start "\x7b".toList [⟨.leftBrace, .start⟩] :=
  .cons (k := ⟨⟨1, 2⟩, []⟩) rfl rfl (.gap rfl)

/-- A closing brace is one token. -/
theorem yields_close : Yields .start "\x7d".toList [⟨.rightBrace, .start⟩] :=
  .cons (k := ⟨⟨1, 2⟩, []⟩) rfl rfl (.gap rfl)

/-- **Source texts compose.** Of two source texts that have tokens, the second one below the first
has those of the first without the end of the input, and behind them its own: in their columns, and
one line further down for each line end of the first, and one more.  If both are bodies, so are they
together, with the statements of the first and then of the second.  A body on lines of its own
between braces has the statements of the body. -/
theorem sources_compose (a b : String) :
    (∀ ts us, tokenize a = .ok ts → tokenize b = .ok us →
      ∃ front last, ts = front ++ [last] ∧ last.token = .endOfInput ∧
        (∀ t ∈ front, t.token ≠ .endOfInput) ∧
        tokenize (a ++ "\n" ++ b) = .ok (front ++ us.map (·.down (1 + lineEnds a)))) ∧
    (∀ ss rs, parseBody a = .ok ss → parseBody b = .ok rs →
      parseBody (a ++ "\n" ++ b) = .ok (ss ++ rs)) ∧
    ∀ ss, parseBody a = .ok ss → parseBody ("\x7b\n" ++ a ++ "\n\x7d") = .ok ss := by
  refine ⟨?_, ?_, ?_⟩
  · -- the line end is a break, so the first text yields its tokens in front of the second one
    intro ts us ha hb
    obtain ⟨ts, hts, rfl⟩ := tokenize_eq_ok.mp ha
    obtain ⟨us, hus, rfl⟩ := tokenize_eq_ok.mp hb
    refine ⟨ts, _, rfl, rfl, hts.proper, tokenize_eq_ok.mpr ⟨_, hts.join hus, ?_⟩⟩
    rw [Position.afterAll_join, List.map_append, List.append_assoc]
    rfl
  · -- a body is a matter of its tokens, wherever they stand
    intro ss rs ha hb
    obtain ⟨ts, hts, hss⟩ := parseBody_eq_ok.mp ha
    obtain ⟨us, hus, hrs⟩ := parseBody_eq_ok.mp hb
    refine parseBody_eq_ok.mpr ⟨_, hts.join hus, ?_⟩
    rw [List.map_append, map_token_down]
    exact hss.append hrs
  · -- with its braces, a body is three texts below each other
    intro ss ha
    obtain ⟨ts, hts, hss⟩ := parseBody_eq_ok.mp ha
    have hsource : "\x7b\n" ++ a ++ "\n\x7d" = "\x7b" ++ "\n" ++ a ++ "\n" ++ "\x7d" := by
      simp [← String.toList_inj]
    rw [hsource]
    refine parseBody_eq_ok.mpr ⟨_, (yields_open.join hts).join yields_close, ?_⟩
    have hblock : Grammar.Body (.leftBrace :: (ts.map (·.token) ++ [.rightBrace]) ++ [])
        (ss ++ []) := .cons (.block hss) .nil
    simpa [Function.comp_def, Located.down] using hblock

/-- A text that ends in a comment, and one that goes on below it. -/
theorem sources_compose_commented :
    tokenize "return 1; // one" =
      .ok [⟨.return, ⟨1, 1⟩⟩, ⟨.int 1, ⟨1, 8⟩⟩, ⟨.semicolon, ⟨1, 9⟩⟩, ⟨.endOfInput, ⟨1, 17⟩⟩] ∧
    tokenize "return null;" =
      .ok [⟨.return, ⟨1, 1⟩⟩, ⟨.null, ⟨1, 8⟩⟩, ⟨.semicolon, ⟨1, 12⟩⟩, ⟨.endOfInput, ⟨1, 13⟩⟩] ∧
    tokenize ("return 1; // one" ++ "\n" ++ "return null;") =
      .ok [⟨.return, ⟨1, 1⟩⟩, ⟨.int 1, ⟨1, 8⟩⟩, ⟨.semicolon, ⟨1, 9⟩⟩, ⟨.return, ⟨2, 1⟩⟩,
        ⟨.null, ⟨2, 8⟩⟩, ⟨.semicolon, ⟨2, 12⟩⟩, ⟨.endOfInput, ⟨2, 13⟩⟩] ∧
    parseBody "return 1; // one" = .ok [.return (some (.int 1))] ∧
    parseBody "return null;" = .ok [.return (some .null)] ∧
    parseBody ("return 1; // one" ++ "\n" ++ "return null;") =
      .ok [.return (some (.int 1)), .return (some .null)] ∧
    parseBody ("\x7b\n" ++ "return 1; // one" ++ "\n\x7d") = .ok [.return (some (.int 1))] := by
  have hone : tokenize "return 1; // one" = .ok [⟨.return, ⟨1, 1⟩⟩, ⟨.int 1, ⟨1, 8⟩⟩,
      ⟨.semicolon, ⟨1, 9⟩⟩, ⟨.endOfInput, ⟨1, 17⟩⟩] := by
    have hchars : "return 1; // one".toList = ['r', 'e', 't', 'u', 'r', 'n', ' ', '1', ';', ' ',
        '/', '/', ' ', 'o', 'n', 'e'] := by
      simp
    rw [tokenize, hchars]
    iterate 3 rw [tokensOnto_token rfl rfl]
    rw [tokensOnto_end rfl]
    rfl
  have hnull : tokenize "return null;" = .ok [⟨.return, ⟨1, 1⟩⟩, ⟨.null, ⟨1, 8⟩⟩,
      ⟨.semicolon, ⟨1, 12⟩⟩, ⟨.endOfInput, ⟨1, 13⟩⟩] := by
    have hchars : "return null;".toList =
        ['r', 'e', 't', 'u', 'r', 'n', ' ', 'n', 'u', 'l', 'l', ';'] := by
      simp
    rw [tokenize, hchars]
    iterate 3 rw [tokensOnto_token rfl rfl]
    rw [tokensOnto_end rfl]
    rfl
  have hparseOne : parseBody "return 1; // one" = .ok [.return (some (.int 1))] := by
    rw [parseBody, hone]
    rfl
  have hparseNull : parseBody "return null;" = .ok [.return (some .null)] := by
    rw [parseBody, hnull]
    rfl
  -- the general law, from the tokens of the first text to those of both
  obtain ⟨htokens, hjoined, hbraced⟩ := sources_compose "return 1; // one" "return null;"
  obtain ⟨front, last, hfront, -, -, hlines⟩ := htokens _ _ hone hnull
  obtain rfl : _ = front := by simpa using congrArg List.dropLast hfront
  exact ⟨hone, hnull, hlines, hparseOne, hparseNull, hjoined _ _ hparseOne hparseNull,
    hbraced _ hparseOne⟩

end Defuse
