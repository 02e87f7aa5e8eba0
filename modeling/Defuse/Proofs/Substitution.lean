import Mathlib.Data.List.Nodup
import Mathlib.Data.List.Perm.Basic
import Defuse.Archive.Container
import Defuse.Proofs.StreamRoundTrip
import Defuse.Run

namespace Defuse

/-!
# Entries of a rebuilt archive

A run finds an entry by its name when it patches it, and again when it writes it.  Both times it
is the same one, since no two entries of an archive have one name.

* `Archive.nodup_of_read?` — an archive that is read has no name twice;
* `Archive.find?_substituted` — looking up a name in a rebuilt archive;
* `Entry.Kept`, `Entry.kept_copied` — what copying an entry keeps, and when its content is kept;
* `Entry.content?_withContent` — new content is had from an entry that has been given it;
* `Archive.substituted_substituted` — the same new content, once more, changes nothing;
* `lookup_substitutionsOf` — the new content is that of the patched targets;
* `stats_substitutionsOf` — as many entries have new content as targets have been patched.
-/

namespace Archive

/-! ### Names -/

/-- An entry keeps its name in a rebuilt archive. -/
@[simp] theorem Entry.name_substituted (subs : Substitutions) (e : Entry) :
    (e.substituted subs).name = e.name := by
  unfold Entry.substituted
  split <;> rfl

/-- A rebuilt archive has the names of the old one, in their order. -/
@[simp] theorem names_substituted (a : Archive) (subs : Substitutions) :
    (a.substituted subs).names = a.names := by
  simp only [names, substituted, List.map_map]
  exact List.map_congr_left fun e _ => Entry.name_substituted subs e

/-- The entry that is found under a name is the copy of the one that was found before. -/
theorem find?_substituted (a : Archive) (subs : Substitutions) (name : String) :
    (a.substituted subs).find? name = (a.find? name).map (Entry.substituted subs) := by
  have hname : ((fun e : Entry => decide (e.name = name)) ∘ Entry.substituted subs) =
      fun e => decide (e.name = name) := by
    funext e
    rw [Function.comp_apply, Entry.name_substituted]
  rw [find?, find?, substituted, List.find?_map, hname]

/-- Where no name is there twice, every entry is found under its own name. -/
theorem find?_eq_some_of_mem {a : Archive} (ha : a.names.Nodup) {e : Entry}
    -- another entry of the name would be the same one
    (he : e ∈ a.entries) : a.find? e.name = some e := by
  cases hfound : a.find? e.name with
  | none =>
    have hnone := List.find?_eq_none.mp hfound e he
    exact absurd (decide_eq_true rfl) hnone
  | some other =>
    have hname : other.name = e.name := by simpa using List.find?_some hfound
    have hmem : other ∈ a.entries := List.mem_of_find?_eq_some hfound
    rw [List.inj_on_of_nodup_map ha hmem he hname]

/-- An entry takes the place of the one of its name, or comes to those of other names. -/
theorem Zip.nodup_addEntry {es : List Entry} (h : (es.map (·.name)).Nodup) (e : Entry) :
    ((Zip.addEntry es e).map (·.name)).Nodup := by
  unfold Zip.addEntry
  split
  -- an entry of the same name is replaced where it stands
  · have hnames : ((es.map fun other => if other.name = e.name then e else other).map
        (·.name)) = es.map (·.name) := by
      rw [List.map_map]
      refine List.map_congr_left ?_
      intro other _
      by_cases hsame : other.name = e.name
      · simp [hsame]
      · simp [hsame]
    rw [hnames]
    exact h
  · next hnew =>
    rw [List.map_cons, List.nodup_cons]
    refine ⟨?_, h⟩
    intro hmem
    obtain ⟨other, hother, hname⟩ := List.mem_map.mp hmem
    exact hnew (List.any_eq_true.mpr ⟨other, hother, by simpa using hname⟩)

theorem Zip.nodup_distinct (es : List Entry) : ((Zip.distinct es).map (·.name)).Nodup := by
  -- the entries that have been added so far have no name twice
  have hadded (acc : List Entry) (hacc : (acc.map (·.name)).Nodup) :
      ((es.foldl Zip.addEntry acc).map (·.name)).Nodup := by
    induction es generalizing acc with
    | nil => exact hacc
    | cons e es ih => exact ih _ (Zip.nodup_addEntry hacc e)
  rw [Zip.distinct, List.map_reverse, List.nodup_reverse]
  exact hadded [] List.nodup_nil

/-- An archive that is read has no name twice. -/
theorem nodup_of_read? {bs : Bytes} {a : Archive} (h : read? bs = some a) : a.names.Nodup := by
  obtain ⟨⟨place, rest⟩, -, harchive⟩ := List.exists_of_findSome?_eq_some h
  simp only [Zip.archive?, Option.bind_eq_bind, Option.bind_eq_some_iff] at harchive
  obtain ⟨⟨r, rest'⟩, -, s, -, es, -, hentries⟩ := harchive
  cases hentries
  exact Zip.nodup_distinct es

end Archive

theorem Container.nodup_ofBytes {path : String} {bytes : Bytes} {c : Container}
    (h : Container.ofBytes path bytes = .ok c) : c.names.Nodup := by
  unfold Container.ofBytes at h
  split at h
  · next a hread =>
    cases h
    exact Archive.nodup_of_read? hread
  · cases h

/-! ### Entries -/

namespace Archive.Entry

/-- An entry is marked as encrypted, and its data can be read as they are. -/
def Mismarked (e : Entry) : Prop := e.isEncrypted = true ∧ e.copied.content?.isSome = true

/-- What stays of an entry that is copied: its data, and all that is said about them but that
they are encrypted. -/
structure Kept (old new : Entry) : Prop where
  name : new.name = old.name
  method : new.method = old.method
  data : new.data = old.data
  dataSize : new.dataSize = old.dataSize
  checksum : new.checksum = old.checksum
  size : new.size = old.size
  content : new.content? = old.content? ↔ ¬ old.Mismarked

/-- What is encrypted cannot be read. -/
theorem content?_of_isEncrypted {e : Entry} (h : e.isEncrypted = true) : e.content? = none := by
  simp [content?, decoded?, h]

/-- An entry loses its mark, so a copy can be read though the entry could not. -/
theorem content?_copied (e : Entry) : e.copied.content? = e.content? ↔ ¬ e.Mismarked := by
  by_cases hencrypted : e.isEncrypted = true
  · have hnone := content?_of_isEncrypted hencrypted
    simp [Mismarked, hencrypted, hnone]
  · have hplain : e.copied.isEncrypted = e.isEncrypted := (Bool.eq_false_iff.mpr hencrypted).symm
    have hcontent : e.copied.content? = e.content? := by
      rw [content?, decoded?, hplain]
      rfl
    simp [Mismarked, hencrypted, hcontent]

/-- A copy keeps all that is stored of the entry. -/
theorem kept_copied (e : Entry) : e.Kept e.copied where
  name := rfl
  method := rfl
  data := rfl
  dataSize := rfl
  checksum := rfl
  size := rfl
  content := content?_copied e

/-- New content is had from the entry that has been given it. -/
@[simp] theorem content?_withContent (e : Entry) (content : Bytes) :
    (e.withContent content).content? = some content := by
  by_cases hmethod : e.method = .stored
  · simp [content?, decoded?, withContent, copied, hmethod]
  · simp [content?, decoded?, withContent, copied, hmethod, inflate_deflate, Except.toOption]

/-- The mark of an ordinary file leaves the permissions alone. -/
theorem ordinaryFile_add_mod (n : Nat) : (ordinaryFile + n) % 512 = n % 512 := by
  have hvalue : ordinaryFile = 64 * 512 := rfl
  omega

/-- The mode of a written entry is written as it is. -/
theorem writtenMode_writtenMode (mode : Option Nat) :
    writtenMode (some (writtenMode mode)) = writtenMode mode := by
  cases mode with
  | none => rfl
  | some mode =>
    show ordinaryFile + (ordinaryFile + mode % 512) % 512 = ordinaryFile + mode % 512
    rw [ordinaryFile_add_mod, Nat.mod_mod]

/-- What has been written is written the same again. -/
@[simp] theorem copied_copied (e : Entry) : e.copied.copied = e.copied := by
  simp only [copied, Option.getD_some, writtenMode_writtenMode]

/-- New content takes the place of the one that was there. -/
@[simp] theorem withContent_withContent (e : Entry) (content : Bytes) :
    (e.withContent content).withContent content = e.withContent content := by
  by_cases hmethod : e.method = .stored <;>
    simp [withContent, copied, hmethod, writtenMode_writtenMode]

end Archive.Entry

/-- The same new content, once more, changes nothing. -/
theorem Archive.substituted_substituted (a : Archive) (subs : Substitutions) :
    (a.substituted subs).substituted subs = a.substituted subs := by
  have hentry (e : Entry) : (e.substituted subs).substituted subs = e.substituted subs := by
    rw [Entry.substituted, Entry.name_substituted, Entry.substituted]
    cases subs.lookup e.name with
    | none => exact Entry.copied_copied e
    | some content => exact Entry.withContent_withContent e content
  simp only [substituted, List.map_map, Function.comp_def, hentry]

/-! ### Content -/

namespace Container

/-- The content of a name is that of the entry that is found under it, where it can be unpacked. -/
theorem lookup_eq_ok {c : Container} {name : String} {content : Bytes} :
    c.lookup name = .ok content ↔
      ∃ e, c.archive.find? name = some e ∧ e.content? = some content := by
  unfold lookup
  cases hfound : c.archive.find? name with
  | none => simp
  | some e => cases hcontent : e.content? <;> simp [hcontent]

end Container

/-- New content is found under the name of the entry that it is for. -/
theorem Container.lookup_of_substituted {old new : Container} {subs : Substitutions}
    (hnew : new.archive = old.archive.substituted subs) {name : String} {e : Archive.Entry}
    {content : Bytes} (hfound : old.archive.find? name = some e)
    (hsubs : subs.lookup e.name = some content) : new.lookup name = .ok content := by
  refine Container.lookup_eq_ok.mpr
    ⟨e.withContent content, ?_, Archive.Entry.content?_withContent e content⟩
  rw [hnew, Archive.find?_substituted, hfound, Option.map_some, Archive.Entry.substituted, hsubs]

/-- What becomes of a target depends on what is found under its name. -/
theorem patchTarget_eq (compiler : Compiler) (c : Container) (t : Target) :
    patchTarget compiler c t = match c.lookup t.entryPath with
      | .ok content => .ofPatch (patch compiler content t.methodName t.descriptor t.source)
      | .error (.entryNotFound _) => .entryNotFound
      | .error _ => .entryUnreadable (.content t.entryPath) := by
  unfold patchTarget Container.lookup
  cases c.archive.find? t.entryPath with
  | none => rfl
  | some e => cases hcontent : e.content? <;> simp only [hcontent]

/-- A target that has been patched was there, with content that could be had. -/
theorem patchTarget_eq_applied {compiler : Compiler} {c : Container} {t : Target} {new : Bytes} :
    patchTarget compiler c t = .applied new ↔
      ∃ old, c.lookup t.entryPath = .ok old ∧
        patch compiler old t.methodName t.descriptor t.source = .ok new := by
  have hpatch (r : Except PatchError Bytes) : Outcome.ofPatch r = .applied new ↔ r = .ok new := by
    rcases r with (_ | _ | _) | bytes <;> simp [Outcome.ofPatch]
  rw [patchTarget_eq]
  rcases hfound : c.lookup t.entryPath with (_ | _ | _ | _ | _) | old <;> simp [hpatch]

/-! ### Substitutions -/

/-- No two targets of a mode are in one entry. -/
theorem Mode.nodup_entryPaths (m : Mode) : (m.targets.map Target.entryPath).Nodup := by
  cases m <;> decide +kernel

/-- The entries that are replaced are those of the targets that were patched. -/
theorem mem_substitutionsOf {ts : List (Target × Outcome)} {name : String} {content : Bytes} :
    (name, content) ∈ substitutionsOf ts ↔
      ∃ t, (t, .applied content) ∈ ts ∧ t.entryPath = name := by
  rw [substitutionsOf, List.mem_filterMap]
  constructor
  · rintro ⟨⟨t, o⟩, hmem, hnew⟩
    cases o <;> simp [Outcome.bytes?] at hnew
    obtain ⟨rfl, rfl⟩ := hnew
    exact ⟨t, hmem, rfl⟩
  · rintro ⟨t, hmem, rfl⟩
    exact ⟨_, hmem, rfl⟩

/-- There is new content for the entries of the patched targets. -/
theorem names_substitutionsOf (ts : List (Target × Outcome)) :
    (substitutionsOf ts).map Prod.fst =
      (ts.filter fun t => t.2.isApplied).map fun t => t.1.entryPath := by
  induction ts with
  | nil => rfl
  | cons t ts ih =>
    obtain ⟨t, o⟩ := t
    cases o with
    | applied new => exact congrArg (t.entryPath :: ·) ih
    | _ => exact ih

section

variable {subs : Substitutions}

/-- New content under a name is found if no name has content twice. -/
theorem lookup_eq_some_iff (h : (subs.map Prod.fst).Nodup) {name : String} {content : Bytes} :
    subs.lookup name = some content ↔ (name, content) ∈ subs := by
  induction subs with
  | nil => simp
  | cons s subs ih =>
    obtain ⟨name', content'⟩ := s
    obtain ⟨hnew, hrest⟩ := List.nodup_cons.mp h
    by_cases hname : name = name'
    · subst hname
      have hother : (name, content) ∉ subs := fun hmem =>
        hnew (List.mem_map.mpr ⟨_, hmem, rfl⟩)
      simp [List.lookup_cons_self, hother, eq_comm]
    · have hfront : (name == name') = false := beq_false_of_ne hname
      rw [List.lookup_cons, hfront, ih hrest]
      simp [hname]

/-- As many entries have new content as there are names with new content. -/
theorem Archive.stats_substituted (a : Archive) (subs : Substitutions) :
    (a.stats subs).substituted =
      (a.names.filter fun name => (subs.lookup name).isSome).length := by
  rw [names, List.filter_map, List.length_map, ← List.countP_eq_length_filter]
  rfl

/-- If no entry has another's name, and all the new content is for entries that are there, as
many entries have new content as there is. -/
theorem Archive.substituted_stats {a : Archive} (ha : a.names.Nodup)
    (hsubs : (subs.map Prod.fst).Nodup) (hthere : ∀ s ∈ subs, s.1 ∈ a.names) :
    (a.stats subs).substituted = subs.length := by
  -- the names that have new content are those of the entries that get it
  have hperm : (a.names.filter fun name => (subs.lookup name).isSome).Perm
      (subs.map Prod.fst) := by
    refine (List.perm_ext_iff_of_nodup (ha.filter _) hsubs).mpr ?_
    intro name
    rw [List.mem_filter, List.lookup_isSome_iff]
    constructor
    · rintro ⟨-, s, hs, hname⟩
      exact List.mem_map.mpr ⟨s, hs, (beq_iff_eq.mp hname).symm⟩
    · intro hname
      obtain ⟨s, hs, rfl⟩ := List.mem_map.mp hname
      exact ⟨hthere s hs, s, hs, beq_self_eq_true _⟩
  rw [stats_substituted, hperm.length_eq, List.length_map]

end

section

variable {compiler : Compiler} {c : Container} {mode : Mode} {t : Target} {new : Bytes}

/-- The outcomes are those of the targets, each of them patched in the same container. -/
theorem mem_outcomes {o : Outcome} :
    (t, o) ∈ outcomes compiler c mode ↔ t ∈ mode.targets ∧ patchTarget compiler c t = o := by
  rw [outcomes, List.mem_map]
  constructor
  · rintro ⟨t', ht, hpair⟩
    cases hpair
    exact ⟨ht, rfl⟩
  · rintro ⟨ht, rfl⟩
    exact ⟨t, ht, rfl⟩

/-- No name has new content twice. -/
theorem nodup_substitutionsOf (compiler : Compiler) (c : Container) (mode : Mode) :
    ((substitutionsOf (outcomes compiler c mode)).map Prod.fst).Nodup := by
  have hpaths : ((outcomes compiler c mode).map fun t => t.1.entryPath).Nodup := by
    rw [outcomes, List.map_map]
    exact mode.nodup_entryPaths
  rw [names_substitutionsOf]
  exact hpaths.sublist (List.filter_sublist.map _)

/-- The new content of an entry is that of the patched target in it. -/
theorem lookup_substitutionsOf {name : String} :
    (substitutionsOf (outcomes compiler c mode)).lookup name = some new ↔
      ∃ t ∈ mode.targets, patchTarget compiler c t = .applied new ∧ t.entryPath = name := by
  rw [lookup_eq_some_iff (nodup_substitutionsOf compiler c mode), mem_substitutionsOf]
  simp only [mem_outcomes, and_assoc]

/-- As many entries have new content as targets have been patched. -/
theorem stats_substitutionsOf (hc : c.names.Nodup) :
    (c.archive.stats (substitutionsOf (outcomes compiler c mode))).substituted =
      (outcomes compiler c mode).countP fun t => t.2.isApplied := by
  have hthere : ∀ s ∈ substitutionsOf (outcomes compiler c mode), s.1 ∈ c.archive.names := by
    rintro ⟨name, content⟩ hs
    obtain ⟨t, ht, rfl⟩ := mem_substitutionsOf.mp hs
    obtain ⟨old, hold, -⟩ := patchTarget_eq_applied.mp (mem_outcomes.mp ht).2
    obtain ⟨e, hfound, -⟩ := Container.lookup_eq_ok.mp hold
    have hname : e.name = t.entryPath := by simpa using List.find?_some hfound
    exact List.mem_map.mpr ⟨e, List.mem_of_find?_eq_some hfound, hname⟩
  rw [Archive.substituted_stats hc (nodup_substitutionsOf compiler c mode) hthere,
    ← List.length_map, names_substitutionsOf, List.length_map, List.countP_eq_length_filter]

end

end Defuse
