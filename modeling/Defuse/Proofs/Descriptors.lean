import Defuse.Descriptor

namespace Defuse

/-!
# Which texts are descriptors

* `JavaType.IsSpellable` — the types that a descriptor can spell;
* `JavaType.read_eq_some_iff` — what is read off a text is the descriptor of such a type, and
  every such descriptor is read;
* `MethodType.descriptor`, `MethodType.IsSpellable` — the same for the types of a method;
* `MethodType.Covers` — how far the parameters of a method are read: until they reach the first
  closing parenthesis of the text, which the last of them may pass;
* `MethodType.read_of_descriptor`, `MethodType.read_eq_none` — a descriptor is read as its types, or
  not at all, as a closing parenthesis stands among the parameters;
* `MethodType.read_descriptor` — hence a method descriptor is read as its types, unless the name
  of a class among its parameters has a closing parenthesis;
* `MethodType.read_past_parenthesis` — a text and a descriptor where this goes wrong.
-/

/-! ### Texts up to a character -/

/-- A text is cut at the first place of a character. -/
theorem takeWhile_dropWhile_eq_iff {c : Char} {cs front back : List Char} :
    cs.takeWhile (· ≠ c) = front ∧ cs.dropWhile (· ≠ c) = c :: back ↔
      c ∉ front ∧ cs = front ++ c :: back := by
  constructor
  · rintro ⟨rfl, hback⟩
    refine ⟨fun hc => ?_, ?_⟩
    · simpa using List.all_eq_true.mp List.all_takeWhile c hc
    · rw [← hback, List.takeWhile_append_dropWhile]
  · rintro ⟨hc, rfl⟩
    have hfront : ∀ d ∈ front, (decide (d ≠ c)) = true := by
      intro d hd
      simpa using fun h : d = c => hc (h ▸ hd)
    constructor
    · rw [List.takeWhile_append_of_pos hfront]
      simp
    · rw [List.dropWhile_append_of_pos hfront]
      simp

/-- What is left from the first place of a character on starts with it. -/
theorem head_dropWhile_ne {c d : Char} {cs back : List Char}
    (h : cs.dropWhile (· ≠ c) = d :: back) : d = c := by
  have hhead := List.head?_dropWhile_not (· ≠ c) cs
  rw [h] at hhead
  simpa using hhead

/-! ### Types -/

namespace JavaType

/-- The types that a descriptor can spell: the name of a class is not empty and has no semicolon,
and there are no arrays of `void`. -/
def IsSpellable : JavaType → Prop
  | reference name => name.toList ≠ [] ∧ ';' ∉ name.toList
  | array element => element ≠ .void ∧ element.IsSpellable
  | _ => True

instance decidableIsSpellable : (t : JavaType) → Decidable t.IsSpellable
  | reference _ => inferInstanceAs (Decidable (_ ∧ _))
  | array element =>
    have := decidableIsSpellable element
    inferInstanceAs (Decidable (_ ∧ _))
  | int | long | float | double | byte | char | short | boolean | void => .isTrue trivial

/-- The types that a parameter can have. -/
def IsParameter (t : JavaType) : Prop := t ≠ .void ∧ t.IsSpellable

instance (t : JavaType) : Decidable t.IsParameter := inferInstanceAs (Decidable (_ ∧ _))

/-- A class is read where a name and its semicolon stand, and the name is a class name. -/
theorem readClass_eq_some_iff {cs rest : List Char} {t : JavaType} :
    readClass cs = some (t, rest) ↔
      ∃ name, t = reference name ∧ t.IsSpellable ∧ cs = name.toList ++ ';' :: rest := by
  constructor
  · intro h
    unfold readClass at h
    split at h
    · next hname hback =>
      obtain rfl := head_dropWhile_ne hback
      cases h
      obtain ⟨hmem, hcs⟩ := takeWhile_dropWhile_eq_iff.mp ⟨hname, hback⟩
      exact ⟨_, rfl, ⟨by simp, by simpa using hmem⟩, by simpa using hcs⟩
    · cases h
  · rintro ⟨name, rfl, ⟨hne, hmem⟩, hcs⟩
    obtain ⟨hfront, hback⟩ := takeWhile_dropWhile_eq_iff.mpr ⟨hmem, hcs⟩
    obtain ⟨d, ds, hname⟩ := List.exists_cons_of_ne_nil hne
    have htext : String.ofList (d :: ds) = name := by rw [← hname, String.ofList_toList]
    rw [readClass, hfront, hback, hname]
    simp only [htext]

/-- Reading takes off a text exactly what it spells. -/
theorem read_eq_some_iff {cs rest : List Char} {t : JavaType} :
    read cs = some (t, rest) ↔ t.IsSpellable ∧ cs = t.descriptor ++ rest := by
  constructor
  · intro h
    -- by induction along the reading, with one case for each character that a type can start with
    induction cs using read.induct generalizing t rest with
    | case1 => cases h
    | case2 cs _ hvoid => simp [read, hvoid] at h
    | case3 cs hnone => simp [read, hnone] at h
    | case4 cs element back hnot helement ih =>
      simp only [read, helement] at h
      cases h
      obtain ⟨hspell, rfl⟩ := ih helement
      exact ⟨⟨hnot, hspell⟩, rfl⟩
    | case5 cs =>
      obtain ⟨name, rfl, hspell, rfl⟩ := readClass_eq_some_iff.mp h
      exact ⟨hspell, by simp [descriptor]⟩
    | case6 c cs hbracket hclass =>
      simp only [read, Option.map_eq_some_iff, Prod.mk.injEq] at h
      obtain ⟨_, hletter, rfl, rfl⟩ := h
      rw [ofLetter?_eq_some hletter]
      refine ⟨?_, rfl⟩
      unfold ofLetter? at hletter
      split at hletter <;> cases hletter <;> trivial
  · rintro ⟨hspell, rfl⟩
    -- the other way round, by induction on the type
    induction t with
    | reference name => exact readClass_eq_some_iff.mpr ⟨name, rfl, hspell, by simp⟩
    | array element ih =>
      have hnot := hspell.1
      simp only [descriptor, List.cons_append, read, ih hspell.2]
    | _ => rfl

/-- No descriptor has more than one semicolon. -/
theorem count_semicolon_le {t : JavaType} (h : t.IsSpellable) : t.descriptor.count ';' ≤ 1 := by
  induction t with
  | reference name =>
    have hname : name.toList.count ';' = 0 := List.count_eq_zero.mpr h.2
    simp [descriptor, hname]
  | array element ih =>
    have helement := ih h.2
    simpa [descriptor] using helement
  | _ => decide

/-- Only the name of a class can have a closing parenthesis, and a semicolon ends it. -/
theorem getLast?_descriptor {t : JavaType} (h : ')' ∈ t.descriptor) :
    t.descriptor.getLast? = some ';' := by
  induction t with
  | reference name => exact List.getLast?_concat (l := 'L' :: name.toList)
  | array element ih =>
    have hmem : ')' ∈ element.descriptor := by simpa [descriptor] using h
    rw [descriptor, List.getLast?_cons, ih hmem]
    rfl
  | _ => exact absurd h (by decide)

end JavaType

/-! ### Parameters -/

namespace MethodType

open JavaType

/-- The descriptors of types go up to a number of characters, or the last of them passes it. -/
def Covers : List JavaType → Nat → Prop
  | [], left => left = 0
  | _ :: _, 0 => False
  | t :: ts, left + 1 => Covers ts (left + 1 - t.width)

/-- Types cover their own descriptors. -/
theorem covers_length (ts : List JavaType) : Covers ts (ts.flatMap descriptor).length := by
  induction ts with
  | nil => rfl
  | cons t ts ih =>
    have hlength : ((t :: ts).flatMap descriptor).length =
        t.width + (ts.flatMap descriptor).length := by
      rw [List.flatMap_cons, List.length_append, width]
    have hpos := t.width_pos
    obtain ⟨n, hn⟩ : ∃ n, ((t :: ts).flatMap descriptor).length = n + 1 :=
      Nat.exists_eq_add_one.mpr (by omega)
    have hrest : n + 1 - t.width = (ts.flatMap descriptor).length := by omega
    rw [hn, Covers, hrest]
    exact ih

/-- Types cover no more than their descriptors. -/
theorem Covers.le_length {ts : List JavaType} {left : Nat} (h : Covers ts left) :
    left ≤ (ts.flatMap descriptor).length := by
  induction ts generalizing left with
  | nil => exact Nat.le_of_eq h
  | cons t ts ih =>
    cases left with
    | zero => exact Nat.zero_le _
    | succ left =>
      have hrest := ih h
      rw [List.flatMap_cons, List.length_append, ← width]
      omega

/-- Parameters are read until they cover what is inside the parentheses, whatever stands there
and behind. -/
theorem readParameters_eq_some_iff {acc ts : List JavaType} {left : Nat} {cs : List Char} :
    readParameters acc left cs = some ts ↔
      ∃ us rest, ts = acc.reverse ++ us ∧ cs = us.flatMap descriptor ++ rest ∧ Covers us left ∧
        ∀ t ∈ us, t.IsParameter := by
  -- by induction on the characters that are left: a descriptor takes one of them at least
  induction left using Nat.strongRecOn generalizing acc cs with
  | ind left ih =>
    rw [readParameters]
    cases left with
    | zero =>
      rw [if_pos rfl, Option.some.injEq]
      constructor
      · rintro rfl
        exact ⟨[], cs, by simp, rfl, rfl, List.forall_mem_nil _⟩
      · rintro ⟨us, rest, rfl, -, hcovers, -⟩
        cases us with
        | nil => simp
        | cons u us => exact hcovers.elim
    | succ left =>
      have hlt (t : JavaType) : left + 1 - t.width < left + 1 := by
        have := t.width_pos
        omega
      rw [if_neg (Nat.succ_ne_zero left)]
      constructor
      · intro h
        split at h
        · cases h
        · next t back ht =>
          obtain ⟨hspell, rfl⟩ := read_eq_some_iff.mp ht
          split at h
          · cases h
          · next hvoid =>
            obtain ⟨us, rest, rfl, rfl, hcovers, hall⟩ := (ih _ (hlt t)).mp h
            refine ⟨t :: us, rest, by simp, by simp, hcovers, ?_⟩
            exact List.forall_mem_cons.mpr ⟨⟨hvoid, hspell⟩, hall⟩
      · rintro ⟨us, rest, rfl, rfl, hcovers, hall⟩
        cases us with
        | nil => cases hcovers
        | cons t us =>
          obtain ⟨⟨hvoid, hspell⟩, hall⟩ := List.forall_mem_cons.mp hall
          have ht : JavaType.read ((t :: us).flatMap descriptor ++ rest) =
              some (t, us.flatMap descriptor ++ rest) :=
            read_eq_some_iff.mpr ⟨hspell, by simp⟩
          simp only [ht, if_neg hvoid]
          exact (ih _ (hlt t)).mpr ⟨us, rest, by simp, rfl, hcovers, hall⟩

/-! ### Methods -/

/-- The text of a method descriptor. -/
def descriptor (m : MethodType) : List Char :=
  '(' :: m.parameters.flatMap JavaType.descriptor ++ ')' :: m.returned.descriptor

/-- The types that a method descriptor can spell. -/
structure IsSpellable (m : MethodType) : Prop where
  parameters : ∀ t ∈ m.parameters, t.IsParameter
  returned : m.returned.IsSpellable

/-- What is read of a text: the return type stands behind the first closing parenthesis, and the
parameters cover what is in front of it, but may go on into what is behind. -/
theorem read_eq_some_iff {text : String} {m : MethodType} :
    read text = some m ↔
      m.IsSpellable ∧ ∃ inside rest, ')' ∉ inside ∧ Covers m.parameters inside.length ∧
        text.toList = '(' :: inside ++ ')' :: m.returned.descriptor ∧
        inside ++ ')' :: m.returned.descriptor =
          m.parameters.flatMap JavaType.descriptor ++ rest := by
  unfold read
  constructor
  · intro h
    split at h
    · next cs htext =>
      split at h
      · cases h
      · next hclose =>
        obtain rfl := head_dropWhile_ne hclose
        obtain ⟨hinside, hcs⟩ := takeWhile_dropWhile_eq_iff.mp ⟨rfl, hclose⟩
        dsimp only at h
        split at h
        · next parameters returned hparameters hreturned =>
          cases h
          obtain ⟨us, rest, rfl, hus, hcovers, hall⟩ := readParameters_eq_some_iff.mp hparameters
          -- the types are read up to the parenthesis or past it; the rest is read as the returned
          -- type
          obtain ⟨hspell, rfl⟩ := JavaType.read_eq_some_iff.mp hreturned
          simp only [List.append_nil] at hcs
          refine ⟨⟨hall, hspell⟩, _, rest, hinside, hcovers, ?_, ?_⟩
          · rw [htext, List.cons_append, ← hcs]
          · exact hcs.symm.trans hus
        · cases h
    · cases h
  · rintro ⟨hspell, inside, rest, hinside, hcovers, htext, hsame⟩
    obtain ⟨hfront, hback⟩ := takeWhile_dropWhile_eq_iff.mpr
      ⟨hinside, rfl (a := inside ++ ')' :: m.returned.descriptor)⟩
    have hparameters : readParameters [] inside.length (inside ++ ')' :: m.returned.descriptor) =
        some m.parameters :=
      readParameters_eq_some_iff.mpr ⟨m.parameters, rest, rfl, hsame, hcovers, hspell.parameters⟩
    have hreturned : JavaType.read m.returned.descriptor = some (m.returned, []) :=
      JavaType.read_eq_some_iff.mpr ⟨hspell.returned, by simp⟩
    rw [htext, List.cons_append]
    simp only [hback, hfront, hparameters, hreturned]

/-- Types that cover what is in front of the first closing parenthesis, and have none in their
descriptors, end there. -/
theorem Covers.eq_inside {ts : List JavaType} {inside behind rest : List Char}
    (hcovers : Covers ts inside.length) (hclosed : ')' ∉ ts.flatMap JavaType.descriptor)
    (h : inside ++ ')' :: behind = ts.flatMap JavaType.descriptor ++ rest) :
    inside = ts.flatMap JavaType.descriptor := by
  have hle := hcovers.le_length
  rcases List.append_eq_append_iff.mp h with ⟨more, hts, hmore⟩ | ⟨more, hinside, -⟩
  · cases more with
    | nil => simpa using hts.symm
    | cons c more =>
      -- the types would go on with the parenthesis, which they do not have
      obtain ⟨rfl, -⟩ := List.cons.inj hmore
      exact absurd (by simp [hts]) hclosed
  · have hnone : more = [] := by
      rw [hinside, List.length_append] at hle
      exact List.eq_nil_of_length_eq_zero (by omega)
    rw [hinside, hnone, List.append_nil]

/-- Types without a closing parenthesis have none in their descriptors together. -/
theorem parenthesis_not_mem {ts : List JavaType} (h : ∀ t ∈ ts, ')' ∉ t.descriptor) :
    ')' ∉ ts.flatMap JavaType.descriptor := by
  simpa [List.mem_flatMap] using h

/-- A descriptor is read as its types, if no parameter has a closing parenthesis in its own. -/
theorem read_of_descriptor {text : String} {m : MethodType} (hspell : m.IsSpellable)
    (htext : text.toList = m.descriptor) (hclosed : ∀ t ∈ m.parameters, ')' ∉ t.descriptor) :
    read text = some m :=
  read_eq_some_iff.mpr
    ⟨hspell, _, _, parenthesis_not_mem hclosed, covers_length _, htext, rfl⟩

/-- Behind a closing parenthesis inside the descriptors of types stands a semicolon. -/
theorem semicolon_mem {ts : List JavaType} {front behind : List Char}
    (h : ts.flatMap JavaType.descriptor = front ++ ')' :: behind) : ';' ∈ behind := by
  induction ts generalizing front with
  | nil => simp at h
  | cons t ts ih =>
    rw [List.flatMap_cons] at h
    rcases List.append_eq_append_iff.mp h with ⟨more, -, hrest⟩ | ⟨more, ht, hmore⟩
    · exact ih hrest
    · cases more with
      | nil =>
        have hrest : ts.flatMap JavaType.descriptor = [] ++ ')' :: behind := hmore.symm
        exact ih hrest
      | cons c more =>
        -- the parenthesis belongs to the first type, so the name of a class goes on behind it
        obtain ⟨rfl, rfl⟩ := List.cons.inj hmore
        have hlast := getLast?_descriptor (t := t) (by simp [ht])
        rw [ht, List.getLast?_append, List.getLast?_cons, Option.some_or, ← List.getLast?_cons]
          at hlast
        rcases List.mem_cons.mp (List.mem_of_getLast? hlast) with heq | hmem
        · cases heq
        · exact List.mem_append_left _ hmem

/-- With a closing parenthesis among the parameters, a descriptor whose returned type ends with a
semicolon is not read at all: behind the parenthesis stand two of them, and no type has two. -/
theorem read_eq_none {text : String} {m : MethodType} (htext : text.toList = m.descriptor)
    (hopen : ∃ t ∈ m.parameters, ')' ∈ t.descriptor) (hreturned : ';' ∈ m.returned.descriptor) :
    read text = none := by
  cases hread : read text with
  | none => rfl
  | some other =>
    obtain ⟨hspell, inside, -, hinside, -, hother, -⟩ := read_eq_some_iff.mp hread
    have hsame : m.parameters.flatMap JavaType.descriptor ++ ')' :: m.returned.descriptor =
        inside ++ ')' :: other.returned.descriptor :=
      (List.cons.inj (htext.symm.trans hother)).2
    have hparenthesis : ')' ∈ m.parameters.flatMap JavaType.descriptor := List.mem_flatMap.mpr hopen
    rcases List.append_eq_append_iff.mp hsame with ⟨more, hmore, -⟩ | ⟨more, hparameters, hmore⟩
    -- the first parenthesis of the text stands in a parameter, so the other parameters end there
    · exact absurd (hmore ▸ List.mem_append_left _ hparenthesis) hinside
    · cases more with
      | nil =>
        rw [List.append_nil] at hparameters
        exact absurd (hparameters ▸ hparenthesis) hinside
      | cons c more =>
        obtain ⟨rfl, hbehind⟩ := List.cons.inj hmore
        have hone : (more ++ ')' :: m.returned.descriptor).count ';' ≤ 1 := by
          have hbytes : other.returned.descriptor = more ++ ')' :: m.returned.descriptor := hbehind
          rw [← hbytes]
          exact count_semicolon_le hspell.returned
        have hfirst := List.one_le_count_iff.mpr (semicolon_mem hparameters)
        have hsecond := List.one_le_count_iff.mpr hreturned
        rw [List.count_append, List.count_cons] at hone
        omega

/-- **Method descriptors.** Where no parameter has a closing parenthesis in its descriptor, types
are read of a text exactly if the text is their descriptor.  Where one has, the text that is their
descriptor is not read as them. -/
theorem read_descriptor (text : String) (m : MethodType) :
    ((∀ t ∈ m.parameters, ')' ∉ t.descriptor) →
      (read text = some m ↔ m.IsSpellable ∧ text.toList = m.descriptor)) ∧
    (read text = some m → text.toList = m.descriptor →
      ∀ t ∈ m.parameters, ')' ∉ t.descriptor) := by
  constructor
  · intro hclosed
    have hfree := parenthesis_not_mem hclosed
    constructor
    · intro hread
      obtain ⟨hspell, inside, rest, -, hcovers, htext, hsame⟩ := read_eq_some_iff.mp hread
      refine ⟨hspell, ?_⟩
      rw [htext, hcovers.eq_inside hfree hsame, descriptor]
    · rintro ⟨hspell, htext⟩
      exact read_of_descriptor hspell htext hclosed
  · intro hread htext t ht hclose
    obtain ⟨-, inside, rest, hinside, -, hinner, -⟩ := read_eq_some_iff.mp hread
    have hsame : inside = m.parameters.flatMap JavaType.descriptor :=
      List.append_cancel_right (List.cons.inj (hinner.symm.trans htext)).2
    exact hinside (hsame ▸ List.mem_flatMap.mpr ⟨t, ht, hclose⟩)

/-- A parenthesis in the returned class does no harm. -/
theorem read_descriptor_returned :
    (∀ t ∈ [JavaType.long, .array (.reference "p/é")], ')' ∉ t.descriptor) ∧
      (read "(J[Lp/é;)La)b;" = some ⟨[.long, .array (.reference "p/é")], .reference "a)b"⟩ ↔
        IsSpellable ⟨[.long, .array (.reference "p/é")], .reference "a)b"⟩ ∧
          "(J[Lp/é;)La)b;".toList =
            descriptor ⟨[.long, .array (.reference "p/é")], .reference "a)b"⟩) := by
  have hclosed : ∀ t ∈ [JavaType.long, .array (.reference "p/é")], ')' ∉ t.descriptor := by
    decide
  exact ⟨hclosed, (read_descriptor _ _).1 hclosed⟩

/-- A text that is no descriptor is read, its end both as a parameter and as the return type; and
a descriptor is not read. -/
theorem read_past_parenthesis :
    (read "(LI)LI;" = some ⟨[.reference "I)LI"], .reference "I"⟩ ∧
      ∀ m : MethodType, m.IsSpellable → "(LI)LI;".toList ≠ m.descriptor) ∧
    read "(La)b;)V" = none ∧ IsSpellable ⟨[.reference "a)b"], .void⟩ ∧
      "(La)b;)V".toList = descriptor ⟨[.reference "a)b"], .void⟩ := by
  refine ⟨⟨by decide +kernel, ?_⟩, by decide +kernel, ⟨by decide, trivial⟩, by decide⟩
  intro m hspell htext
  have hinside : ['L', 'I', ')', 'L', 'I', ';'] =
      m.parameters.flatMap JavaType.descriptor ++ ')' :: m.returned.descriptor := by
    simpa [descriptor] using htext
  cases hparameters : m.parameters with
  | nil => simp [hparameters] at hinside
  | cons t ts =>
    -- the name of the class goes on to the semicolon, so the list has no parenthesis to end with
    have hread : JavaType.read ['L', 'I', ')', 'L', 'I', ';'] = some (.reference "I)LI", []) := by
      decide +kernel
    have ht : t.IsParameter := hspell.parameters t (by simp [hparameters])
    have hagain := JavaType.read_eq_some_iff.mpr ⟨ht.2, hinside.trans (by
      rw [hparameters, List.flatMap_cons, List.append_assoc])⟩
    rw [hread] at hagain
    simp at hagain

end MethodType

end Defuse
