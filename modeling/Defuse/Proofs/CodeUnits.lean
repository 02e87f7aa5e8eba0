import Defuse.Proofs.Gaps
import Defuse.Proofs.JoinedSources
import Defuse.Proofs.ReturnedValues
import Defuse.Proofs.ShortestForms

namespace Defuse

open Text Scan CompileM ConstantPool

/-!
# The code units of returned literals

A method can return a string literal, and other literals in quotes added to it.

* `Quoted`, `ReturnsLiterals` — such literals by the UTF-16 units that they denote, and the source
  texts that return them;
* `ReturnsLiterals.parseBody` — such a text is the return of the sum;
* `value_sumOf`, `stored_string` — the text of the sum, and the constants that it is kept as;
* `returned_literals` — the bytes that the class keeps, and when they are those of the units.
-/

/-! ### Literals in quotes -/

/-- A literal in quotes, by the units that it denotes. -/
inductive Quoted where
  | string (units : List UInt16)
  | char (unit : UInt16)

namespace Quoted

/-- The units of a literal. -/
def units : Quoted → List UInt16
  | string units => units
  | char unit => [unit]

/-- The token of a literal. -/
def token : Quoted → Token
  | string units => .string (String.ofList (ofUnits units))
  | char unit => .char unit

/-- The expression of a literal. -/
def expression : Quoted → Expression
  | string units => .string (String.ofList (ofUnits units))
  | char unit => .char unit

/-- How a literal is written. -/
inductive Written : List Char → Quoted → Prop where
  | string {body : List Char} {us : List UInt16} (h : Denotes '"' body us) :
      Written ('"' :: (body ++ ['"'])) (.string us)
  | char {body : List Char} {u : UInt16} (h : Denotes '\'' body [u]) :
      Written ('\'' :: (body ++ ['\''])) (.char u)

end Quoted

/-- What may stand behind the first literal of a sum that is returned: a plus sign in front of each
further literal, then a semicolon.  Gaps may stand anywhere between them. -/
inductive Joined : List Char → List Quoted → Prop where
  | last {gap rest : List Char} (hgap : IsGap (';' :: rest) gap) (hrest : IsGap [] rest) :
      Joined (gap ++ ';' :: rest) []
  | plus {gap inner text rest : List Char} {l : Quoted} {ls : List Quoted}
      (hgap : IsGap ('+' :: (inner ++ (text ++ rest))) gap) (hinner : IsGap (text ++ rest) inner)
      (htext : l.Written text) :
      Joined rest ls → Joined (gap ++ '+' :: (inner ++ (text ++ rest))) (l :: ls)

/-- A source text that returns a sum of literals, the first of them a string. -/
inductive ReturnsLiterals : List Char → List UInt16 → List Quoted → Prop where
  | intro {gap inner text rest : List Char} {us : List UInt16} {ls : List Quoted}
      (hgap : IsGap ('r' :: 'e' :: 't' :: 'u' :: 'r' :: 'n' :: (inner ++ (text ++ rest))) gap)
      (hinner : IsGap (text ++ rest) inner) (htext : Quoted.Written text (.string us)) :
      Joined rest ls →
      ReturnsLiterals (gap ++ 'r' :: 'e' :: 't' :: 'u' :: 'r' :: 'n' :: (inner ++ (text ++ rest)))
        us ls

namespace Scan

variable {gap rest text : List Char} {acc : List Located} {p : Position} {c : Char}

/-! ### Tokens -/

/-- Behind a gap stands what is no gap. -/
theorem skipGap_upto (h : IsGap (c :: rest) gap)
    (hc : ∀ q, skipGap .blank q (c :: rest) = .ok ⟨q, c :: rest⟩) :
    skipGap .blank p (gap ++ c :: rest) = .ok ⟨p.afterAll gap, c :: rest⟩ := by
  rw [skipGap_append h, hc]

/-- A literal behind a gap is a token. -/
theorem tokensOnto_quoted {l : Quoted} (hgap : IsGap (text ++ rest) gap) (h : l.Written text) :
    tokensOnto acc p (gap ++ (text ++ rest)) =
      tokensOnto (⟨l.token, p.afterAll gap⟩ :: acc) ((p.afterAll gap).afterAll text) rest := by
  cases h with
  | @string body us hbody =>
    have hchars : '"' :: (body ++ ['"']) ++ rest = '"' :: (body ++ '"' :: rest) := by simp
    rw [hchars] at hgap ⊢
    rw [tokensOnto_token (skipGap_upto hgap fun _ => rfl) (readToken_string hbody _ _)]
    simp
    rfl
  | @char body u hbody =>
    have hchars : '\'' :: (body ++ ['\'']) ++ rest = '\'' :: (body ++ '\'' :: rest) := by simp
    rw [hchars] at hgap ⊢
    rw [tokensOnto_token (skipGap_upto hgap fun _ => rfl) (readToken_character hbody _ _)]
    simp
    rfl

/-- The tokens behind the first literal. -/
theorem tokensOnto_joined {cs : List Char} {ls : List Quoted} (h : Joined cs ls)
    (acc : List Located) (p : Position) :
    ∃ ts, tokensOnto acc p cs = .ok (acc.reverse ++ ts) ∧
      ts.map (·.token) = ls.flatMap (fun l => [.plus, l.token]) ++ [.semicolon, .endOfInput] := by
  -- by induction on the literals that are left; in front of each of them stands a plus sign
  induction h generalizing acc p with
  | @last gap rest hgap hrest =>
    have hend (q : Position) : skipGap .blank q rest = .ok ⟨q.afterAll rest, []⟩ := by
      have hpassed := skipGap_append hrest q
      rw [List.append_nil] at hpassed
      exact hpassed
    have hsemicolon (q : Position) :
        readToken q ';' rest = .ok (.semicolon, ⟨q.after ';', rest⟩) := rfl
    rw [tokensOnto_token (skipGap_upto hgap fun _ => rfl) (hsemicolon _), tokensOnto_end (hend _),
      List.reverse_cons, List.reverse_cons, List.append_assoc]
    exact ⟨_, rfl, rfl⟩
  | @plus gap inner text rest l ls hgap hinner htext _ ih =>
    have hplus (q : Position) : readToken q '+' (inner ++ (text ++ rest)) =
        .ok (.plus, ⟨q.after '+', inner ++ (text ++ rest)⟩) := rfl
    rw [tokensOnto_token (skipGap_upto hgap fun _ => rfl) (hplus _), tokensOnto_quoted hinner htext]
    obtain ⟨ts, hts, htokens⟩ := ih
      (⟨l.token, ((p.afterAll gap).after '+').afterAll inner⟩ :: ⟨.plus, p.afterAll gap⟩ :: acc)
      ((((p.afterAll gap).after '+').afterAll inner).afterAll text)
    rw [List.reverse_cons, List.reverse_cons, List.append_assoc, List.append_assoc] at hts
    exact ⟨_, hts, by simp [htokens]⟩

/-! ### The word in front -/

/-- Where a gap and a literal follow, a name is at its end. -/
theorem isNamePart_head {l : Quoted} (hgap : IsGap (text ++ rest) gap) (h : l.Written text) :
    ∃ c cs, gap ++ (text ++ rest) = c :: cs ∧ isNamePart c = false := by
  cases gap with
  | nil =>
    cases h with
    | string _ => exact ⟨'"', _, rfl, by decide +kernel⟩
    | char _ => exact ⟨'\'', _, rfl, by decide +kernel⟩
  | cons c gap => exact ⟨c, _, rfl, hgap.isNamePart_head c rfl⟩

/-- The word in front of a gap and a literal. -/
theorem readToken_return {l : Quoted} (hgap : IsGap (text ++ rest) gap) (h : l.Written text)
    (p : Position) :
    readToken p 'r' ('e' :: 't' :: 'u' :: 'r' :: 'n' :: (gap ++ (text ++ rest))) =
      .ok (.return, ⟨p.afterAll ['r', 'e', 't', 'u', 'r', 'n'], gap ++ (text ++ rest)⟩) := by
  have hletters : ['r', 'e', 't', 'u', 'r', 'n'].all isNamePart = true := by decide +kernel
  have hword : ∀ c ∈ ['r', 'e', 't', 'u', 'r', 'n'], isNamePart c = true :=
    List.all_eq_true.mp hletters
  obtain ⟨c, cs, hcs, hc⟩ := isNamePart_head hgap h
  have hstop : (c :: cs).takeWhile isNamePart = [] ∧ (c :: cs).dropWhile isNamePart = c :: cs := by
    simp [hc]
  rw [hcs]
  show Except.ok (readWord p (['r', 'e', 't', 'u', 'r', 'n'] ++ c :: cs)) = _
  rw [readWord, List.takeWhile_append_of_pos hword, List.dropWhile_append_of_pos hword, hstop.1,
    hstop.2]
  rfl

/-- All tokens. -/
theorem tokensOnto_returnsLiterals {cs : List Char} {us : List UInt16} {ls : List Quoted}
    (h : ReturnsLiterals cs us ls) :
    ∃ ts, tokensOnto [] .start cs = .ok ts ∧ ts.map (·.token) =
      .return :: (Quoted.string us).token ::
        (ls.flatMap (fun l => [.plus, l.token]) ++ [.semicolon, .endOfInput]) := by
  cases h with
  | @intro gap inner text rest us ls hgap hinner htext hjoined =>
    rw [tokensOnto_token (skipGap_upto hgap fun _ => rfl) (readToken_return hinner htext _),
      tokensOnto_quoted hinner htext]
    obtain ⟨ts, hts, htokens⟩ := tokensOnto_joined hjoined _ _
    exact ⟨_, hts, by simp [htokens]⟩

end Scan

/-! ### Statements -/

/-- The sum of literals, the first of them a string. -/
def sumOf (us : List UInt16) (ls : List Quoted) : Expression :=
  ls.foldl (fun e l => .add e l.expression) (Quoted.string us).expression

/-- A literal is a primary expression of its own. -/
theorem Quoted.primary (l : Quoted) : Grammar.Primary [l.token] l.expression := by
  cases l with
  | string units => exact .literal (.string _)
  | char unit => exact .literal (.char _)

/-- A sum goes on with plus signs and literals. -/
theorem Grammar.Sum.quoted {ts : List Token} {e : Expression} (h : Sum ts e) (ls : List Quoted) :
    Sum (ts ++ ls.flatMap fun l => [.plus, l.token])
      (ls.foldl (fun e l => .add e l.expression) e) := by
  induction ls generalizing ts e with
  | nil => simpa using h
  | cons l ls ih =>
    have hnext := ih (.add h (.primary l.primary))
    rw [List.append_assoc] at hnext
    exact hnext

/-- **What is read** is the return of the sum. -/
theorem ReturnsLiterals.parseBody {source : String} {us : List UInt16} {ls : List Quoted}
    (h : ReturnsLiterals source.toList us ls) :
    parseBody source = .ok [.return (some (sumOf us ls))] := by
  have hsum : Grammar.Sum ([(Quoted.string us).token] ++ ls.flatMap fun l => [.plus, l.token])
      (sumOf us ls) := Grammar.Sum.quoted (.operand (.primary (Quoted.primary _))) ls
  have hbody := Grammar.Body.cons (.return hsum) .nil
  obtain ⟨ts, hts, htokens⟩ := tokensOnto_returnsLiterals h
  rw [Defuse.parseBody, tokenize, hts]
  exact parse_of_body (by simp [htokens]) hbody

/-! ### Values -/

/-- The text of a literal that is added to a string. -/
theorem Quoted.value_text (l : Quoted) :
    ∃ v, l.expression.value = .ok v ∧ v.text = .ok (String.ofList (ofUnits l.units)) := by
  cases l with
  | string units => exact ⟨_, rfl, rfl⟩
  | char unit => exact ⟨_, rfl, rfl⟩

/-- A literal that is added to a text. -/
theorem Quoted.value_add {e : Expression} {text : List Char} (l : Quoted)
    (h : e.value = .ok (.string (String.ofList text))) :
    (e.add l.expression).value = .ok (.string (String.ofList (text ++ ofUnits l.units))) := by
  obtain ⟨v, hv, htext⟩ := l.value_text
  rw [Expression.value, h, hv, String.ofList_append]
  show Value.join (.string (String.ofList text)) v = _
  rw [Value.join, htext]
  rfl

/-- The text of the sum: the units of each literal are read for themselves. -/
theorem value_sumOf (us : List UInt16) (ls : List Quoted) :
    (sumOf us ls).value =
      .ok (.string (String.ofList ((us :: ls.map Quoted.units).flatMap ofUnits))) := by
  -- on what is already added, of any text
  have hfold (e : Expression) (text : List Char)
      (h : e.value = .ok (.string (String.ofList text))) :
      (ls.foldl (fun e l => .add e l.expression) e).value =
        .ok (.string (String.ofList (text ++ (ls.map Quoted.units).flatMap ofUnits))) := by
    induction ls generalizing e text with
    | nil => simpa using h
    | cons l ls ih =>
      rw [List.foldl_cons, ih _ _ (l.value_add h), List.append_assoc]
      rfl
  exact hfold _ _ rfl

/-- The bytes of a string that is returned. -/
theorem stored_string {text : String} {p q : ConstantPool} {is : List Instruction}
    (h : outcome ((Value.string text).loadAs (.reference "java/lang/String")) p = (.ok is, q))
    (hq : q.slots.length ≤ 65535) :
    ∃ i n, is = [loadConstant i, .areturn] ∧ q.at? i = some (.string n) ∧
      q.at? n = some (.utf8 (ModifiedUtf8.encode text)) := by
  obtain ⟨load, mid, hload, his⟩ := outcome_bind_eq_ok.mp h
  cases his
  unfold loadString at hload
  split at hload
  · cases hload
  · obtain ⟨i, mid, hi, hloads⟩ := outcome_bind_eq_ok.mp hload
    cases hloads
    obtain ⟨n, hn, hstring⟩ := part_of_intern (.utf8 text) (by simp) (outcome_compile.mp hi)
    exact ⟨i, n, rfl, at?_intern hstring hq, at?_intern hn hq⟩

/-! ### What is kept -/

/-- **Returned literals.** A source text that returns a string literal, with further literals added,
is compiled for a method that returns a string, on a pool of at most 65535 slots.  The code loads a
constant of the class and returns it.  Its bytes are those of the text in which each literal is read
for itself, every half of a pair without its other half as U+FFFD; these are the bytes of the units
that the literals denote just where, within each literal, every half stands beside its other one. -/
theorem returned_literals {source : String} {us : List UInt16} {ls : List Quoted}
    {method : MethodContext} {type : MethodType} {p q : ConstantPool} {g : GeneratedCode}
    (hp : p.slots.length ≤ 65535) (hsource : ReturnsLiterals source.toList us ls)
    (htype : MethodType.read method.descriptor = some type)
    (hreturned : type.returned = .reference "java/lang/String")
    (h : (compile method source).run.run p = (.ok g, q)) :
    ∃ i n bytes, g.instructions = [loadConstant i, .areturn] ∧ q.at? i = some (.string n) ∧
      q.at? n = some (.utf8 bytes) ∧
      bytes = ModifiedUtf8.encodeUnits (unitsOf ((us :: ls.map Quoted.units).flatMap ofUnits)) ∧
      (bytes = ModifiedUtf8.encodeUnits (us :: ls.map Quoted.units).flatten ↔
        ∀ vs ∈ us :: ls.map Quoted.units, HalvesMeet vs) := by
  -- the body is parsed to the sum of the literals, whose value is the joined text
  have hq : q.slots.length ≤ 65535 := (compile_grown h).length_le hp
  obtain ⟨type', statements, htype', hparse, hbody, -, -⟩ := compile_eq_ok.mp h
  cases htype.symm.trans htype'
  cases hsource.parseBody.symm.trans hparse
  obtain ⟨v, hv, hload⟩ := code_return_eq_ok hbody
  cases (value_sumOf us ls).symm.trans hv
  rw [hreturned] at hload
  obtain ⟨i, n, his, hi, hn⟩ := stored_string hload hq
  rw [ModifiedUtf8.encode, String.toList_ofList] at hn
  refine ⟨i, n, _, his, hi, hn, rfl, ?_⟩
  rw [ModifiedUtf8.encodeUnits_inj]
  exact unitsOf_flatMap_ofUnits_iff _

/-! ### Pairs -/

/-- An escape of four hexadecimal digits. -/
theorem denotes_unicode {quote a b c d : Char} {w x y z : Nat} {cs : List Char}
    {us : List UInt16} (ha : IsDigit 16 a w) (hb : IsDigit 16 b x) (hc : IsDigit 16 c y)
    (hd : IsDigit 16 d z) (h : Denotes quote cs us) :
    Denotes quote ('\\' :: 'u' :: a :: b :: c :: d :: cs)
      ((Nat.ofDigits 16 [z, y, x, w]).toUInt16 :: us) := by
  have hescape : Escape (['u'] ++ [a, b, c, d]) (Nat.ofDigits 16 [w, x, y, z].reverse).toUInt16 :=
    .unicode (List.cons_ne_nil _ _) (by simp) rfl (.cons ha (.cons hb (.cons hc (.cons hd .nil))))
  exact .escape hescape (.of_head rfl) h

/-- The first half of a pair. -/
theorem denotes_high {quote : Char} {cs : List Char} {us : List UInt16} (h : Denotes quote cs us) :
    Denotes quote ('\\' :: 'u' :: 'd' :: '8' :: '3' :: 'd' :: cs) (0xD83D :: us) := by
  have hd : IsDigit 16 'd' 13 := ⟨by decide, .inl rfl⟩
  have height : IsDigit 16 '8' 8 := ⟨by decide, .inl rfl⟩
  have hthree : IsDigit 16 '3' 3 := ⟨by decide, .inl rfl⟩
  have hunit : (Nat.ofDigits 16 [13, 3, 8, 13]).toUInt16 = 0xD83D := rfl
  rw [← hunit]
  exact denotes_unicode hd height hthree hd h

/-- The second half of the same pair. -/
theorem denotes_low {quote : Char} {cs : List Char} {us : List UInt16} (h : Denotes quote cs us) :
    Denotes quote ('\\' :: 'u' :: 'd' :: 'e' :: '0' :: '0' :: cs) (0xDE00 :: us) := by
  have hd : IsDigit 16 'd' 13 := ⟨by decide, .inl rfl⟩
  have he : IsDigit 16 'e' 14 := ⟨by decide, .inl rfl⟩
  have hzero : IsDigit 16 '0' 0 := ⟨by decide, .inl rfl⟩
  have hunit : (Nat.ofDigits 16 [0, 0, 14, 13]).toUInt16 = 0xDE00 := rfl
  rw [← hunit]
  exact denotes_unicode hd he hzero hzero h

/-- The pool of a class that returns a string of these bytes. -/
def textPool (bytes : List UInt8) : ConstantPool where
  storedSize := 3
  slots := [.utf8 bytes, .string 1]

/-- A method without parameters that returns a string. -/
def textMethod : MethodContext := ⟨"lookup", "()Ljava/lang/String;", true⟩

/-- The method of the example takes nothing and returns a string. -/
theorem read_textMethod :
    MethodType.read textMethod.descriptor = some ⟨[], .reference "java/lang/String"⟩ := by
  decide +kernel

/-- A pair within one literal, and another literal. -/
theorem returnsLiterals_pair :
    ReturnsLiterals "return \"\\ud83d\\ude00\" + '!';".toList [0xD83D, 0xDE00] [.char 0x21] := by
  have hchars : "return \"\\ud83d\\ude00\" + '!';".toList =
      [] ++ 'r' :: 'e' :: 't' :: 'u' :: 'r' :: 'n' :: ([' '] ++ ('"' ::
        (['\\', 'u', 'd', '8', '3', 'd', '\\', 'u', 'd', 'e', '0', '0'] ++ ['"']) ++
          ([' '] ++ '+' :: ([' '] ++ ('\'' :: (['!'] ++ ['\'']) ++ ([] ++ ';' :: [])))))) := by
    simp
  have hmark : Denotes '\'' ['!'] [0x21] := .raw (by decide) .nil
  rw [hchars]
  exact .intro .nothing (.blank rfl .nothing) (.string (denotes_high (denotes_low .nil)))
    (.plus (.blank rfl .nothing) (.blank rfl .nothing) (.char hmark) (.last .nothing .nothing))

/-- A pair within one literal is kept. -/
theorem returned_literals_pair :
    outcome (compile textMethod "return \"\\ud83d\\ude00\" + '!';") .empty =
      (.ok ⟨[.ldc 2, .areturn], 1, 0⟩, textPool [0xED, 0xA0, 0xBD, 0xED, 0xB8, 0x80, 0x21]) ∧
    ∃ i n, [.ldc 2, .areturn] = [loadConstant i, .areturn] ∧
      (textPool [0xED, 0xA0, 0xBD, 0xED, 0xB8, 0x80, 0x21]).at? i = some (.string n) ∧
      (textPool [0xED, 0xA0, 0xBD, 0xED, 0xB8, 0x80, 0x21]).at? n =
        some (.utf8 (ModifiedUtf8.encodeUnits [0xD83D, 0xDE00, 0x21])) := by
  have hbody : outcome (bodyCode (.reference "java/lang/String")
      [.return (some (sumOf [0xD83D, 0xDE00] [.char 0x21]))]) .empty =
      (.ok [.ldc 2, .areturn], textPool [0xED, 0xA0, 0xBD, 0xED, 0xB8, 0x80, 0x21]) := rfl
  have hcompile : outcome (compile textMethod "return \"\\ud83d\\ude00\" + '!';") .empty =
      (.ok ⟨[.ldc 2, .areturn], 1, 0⟩, textPool [0xED, 0xA0, 0xBD, 0xED, 0xB8, 0x80, 0x21]) :=
    compile_eq_ok.mpr
      ⟨_, _, read_textMethod, returnsLiterals_pair.parseBody, hbody, rfl, rfl⟩
  have hpair : HalvesMeet [0xD83D, 0xDE00] := .pair .nil rfl rfl
  have hmark : HalvesMeet [0x21] := .cons .nil rfl rfl
  obtain ⟨i, n, bytes, his, hi, hn, -, hkept⟩ :=
    returned_literals (Nat.zero_le _) returnsLiterals_pair read_textMethod rfl hcompile
  obtain rfl := hkept.mpr (by simp [hpair, hmark, Quoted.units])
  exact ⟨hcompile, i, n, his, hi, hn⟩

/-- The same pair, its halves in literals of their own. -/
theorem returnsLiterals_split :
    ReturnsLiterals "return \"\\ud83d\" + '\\ude00';".toList [0xD83D] [.char 0xDE00] := by
  have hchars : "return \"\\ud83d\" + '\\ude00';".toList =
      [] ++ 'r' :: 'e' :: 't' :: 'u' :: 'r' :: 'n' :: ([' '] ++ ('"' ::
        (['\\', 'u', 'd', '8', '3', 'd'] ++ ['"']) ++ ([' '] ++ '+' :: ([' '] ++ ('\'' ::
          (['\\', 'u', 'd', 'e', '0', '0'] ++ ['\'']) ++ ([] ++ ';' :: [])))))) := by
    simp
  rw [hchars]
  exact .intro .nothing (.blank rfl .nothing) (.string (denotes_high .nil))
    (.plus (.blank rfl .nothing) (.blank rfl .nothing) (.char (denotes_low .nil))
      (.last .nothing .nothing))

/-- Halves that only meet in the sum are each replaced. -/
theorem split_pair_replaced :
    ReturnsLiterals "return \"\\ud83d\" + '\\ude00';".toList [0xD83D] [.char 0xDE00] ∧
    outcome (compile textMethod "return \"\\ud83d\" + '\\ude00';") .empty =
      (.ok ⟨[.ldc 2, .areturn], 1, 0⟩, textPool [0xEF, 0xBF, 0xBD, 0xEF, 0xBF, 0xBD]) ∧
    (textPool [0xEF, 0xBF, 0xBD, 0xEF, 0xBF, 0xBD]).at? 2 = some (.string 1) ∧
    (textPool [0xEF, 0xBF, 0xBD, 0xEF, 0xBF, 0xBD]).at? 1 =
      some (.utf8 [0xEF, 0xBF, 0xBD, 0xEF, 0xBF, 0xBD]) ∧
    ModifiedUtf8.encodeUnits [0xD83D, 0xDE00] = [0xED, 0xA0, 0xBD, 0xED, 0xB8, 0x80] := by
  have hbody : outcome (bodyCode (.reference "java/lang/String")
      [.return (some (sumOf [0xD83D] [.char 0xDE00]))]) .empty =
      (.ok [.ldc 2, .areturn], textPool [0xEF, 0xBF, 0xBD, 0xEF, 0xBF, 0xBD]) := rfl
  refine ⟨returnsLiterals_split, ?_, rfl, rfl, by decide⟩
  exact compile_eq_ok.mpr
    ⟨_, _, read_textMethod, returnsLiterals_split.parseBody, hbody, rfl, rfl⟩

end Defuse
