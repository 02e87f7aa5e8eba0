import Mathlib.Data.List.Forall2
import Defuse.Proofs.RunReport

namespace Defuse

/-!
# Rebuilding an archive

An archive is rebuilt entry by entry, each with its new content or as a copy.

* `Archive.Entry.permissions?` — of a mode, what concerns the owner, the group and others;
* `Archive.Entry.RebuiltAs` — what an entry is in the rebuilt archive;
* `Archive.rebuilt?_congr` — new content under other names is of no consequence;
* `rebuilt_entries` — the rebuilt archive, entry by entry, and the numbers that are told of it.
-/

namespace Archive

namespace Entry

/-- The permissions, if they are known: the nine lowest bits of the mode. -/
def permissions? (e : Entry) : Option Nat := e.mode.map (· % 512)

/-- An entry that has been given new content: stored if it was, and else compressed. -/
structure Replaced (content : Bytes) (old new : Entry) : Prop where
  content : new.content? = some content
  stored : new.method = .stored ↔ old.method = .stored
  deflated : old.method ≠ .stored → new.method = .deflated

/-- What an entry is in the rebuilt archive.  Its name, its time and its permissions stay, and the
format has its own where they are not known; all the rest stays too, unless there is new content
for it. -/
structure RebuiltAs (subs : Substitutions) (old new : Entry) : Prop where
  name : new.name = old.name
  modified : new.modified = some (old.modified.getD .dosEpoch)
  permissions : new.permissions? = some (old.permissions?.getD 0o644)
  kept : subs.lookup old.name = none → old.Kept new
  replaced : ∀ content, subs.lookup old.name = some content → old.Replaced content new

/-- A written entry has the permissions that are known. -/
theorem permissions?_copied (e : Entry) :
    e.copied.permissions? = some (e.permissions?.getD 0o644) := by
  show some (writtenMode e.mode % 512) = some ((e.mode.map (· % 512)).getD 0o644)
  cases e.mode with
  | none => rfl
  | some mode =>
    show some ((ordinaryFile + mode % 512) % 512) = some (mode % 512)
    rw [ordinaryFile_add_mod, Nat.mod_mod]

/-- An entry with new content has that content, stored as the entry was. -/
theorem replaced_withContent (e : Entry) (content : Bytes) :
    e.Replaced content (e.withContent content) where
  content := content?_withContent e content
  stored := by
    by_cases hmethod : e.method = .stored <;> simp [withContent, hmethod]
  deflated hmethod := if_neg hmethod

/-- What an entry is in the rebuilt archive depends on whether there is new content for it. -/
theorem rebuiltAs_substituted (e : Entry) (subs : Substitutions) :
    e.RebuiltAs subs (e.substituted subs) := by
  unfold substituted
  -- the name of the entry decides whether it is copied or gets new content
  cases hlookup : subs.lookup e.name with
  | none =>
    exact
      { name := rfl
        modified := rfl
        permissions := permissions?_copied e
        kept := fun _ => kept_copied e
        replaced := by
          intro content hcontent
          rw [hlookup] at hcontent
          cases hcontent }
  | some new =>
    exact
      { name := rfl
        modified := rfl
        permissions := permissions?_copied e
        kept := by
          intro hnone
          rw [hlookup] at hnone
          cases hnone
        replaced := by
          intro content hcontent
          obtain rfl := Option.some.inj (hlookup.symm.trans hcontent)
          exact replaced_withContent e new }

end Entry

/-- New content that is for no entry is of no consequence: only what is found under the names of
the entries goes into the rebuilt archive. -/
theorem rebuilt?_congr {a : Archive} {subs other : Substitutions}
    (h : ∀ name ∈ a.names, other.lookup name = subs.lookup name) :
    a.rebuilt? other = a.rebuilt? subs ∧ a.stats other = a.stats subs := by
  have hentry : ∀ e ∈ a.entries, other.lookup e.name = subs.lookup e.name := by
    intro e he
    exact h e.name (List.mem_map_of_mem he)
  have hsame : a.substituted other = a.substituted subs := by
    have hentries : a.entries.map (·.substituted other) = a.entries.map (·.substituted subs) := by
      refine List.map_congr_left ?_
      intro e he
      rw [Entry.substituted, Entry.substituted, hentry e he]
    rw [substituted, substituted, hentries]
  have hcount : (a.stats other).substituted = (a.stats subs).substituted := by
    refine List.countP_congr ?_
    intro e he
    rw [hentry e he]
  refine ⟨by rw [rebuilt?, rebuilt?, hsame], ?_⟩
  rw [stats, stats]
  congr 1

end Archive

/-- **Rebuilt archives.** The rebuilt archive has the comment of the old one, and an entry for
each of its entries, in their order: with new content, had from its name, where there is some, and
else as it was.  New content under other names adds nothing, and the numbers that are told are
those of the entries and of the names with new content. -/
theorem rebuilt_entries {path : String} {bytes out : Bytes} {old : Container}
    {subs : Substitutions} (hopen : Container.ofBytes path bytes = .ok old)
    (hrebuilt : old.archive.rebuilt? subs = some out)
    (hback : (old.archive.substituted subs).ReadsBack) :
    ∃ new, Container.ofBytes path out = .ok new ∧
      new.names = old.names ∧ new.archive.comment = old.archive.comment ∧
      List.Forall₂ (Archive.Entry.RebuiltAs subs) old.archive.entries new.archive.entries ∧
      (∀ name ∈ old.names, ∀ content, subs.lookup name = some content →
        new.lookup name = .ok content) ∧
      (∀ other : Substitutions, (∀ name ∈ old.names, other.lookup name = subs.lookup name) →
        old.archive.rebuilt? other = some out ∧
          old.archive.stats other = old.archive.stats subs) ∧
      (old.archive.stats subs).written = old.names.length ∧
      (old.archive.stats subs).substituted =
        (old.names.filter fun name => (subs.lookup name).isSome).length := by
  obtain rfl := Archive.rebuilt?_eq_some hrebuilt
  refine ⟨_, hback.ofBytes path, ?_, rfl, ?_, ?_, ?_, ?_, ?_⟩
  · exact Archive.names_substituted old.archive subs
  · show List.Forall₂ _ _ (old.archive.entries.map (·.substituted subs))
    rw [List.forall₂_map_right_iff, List.forall₂_same]
    intro e _
    exact e.rebuiltAs_substituted subs
  · intro name hname content hcontent
    obtain ⟨e, he, rfl⟩ := List.mem_map.mp hname
    -- no other entry has this name
    have hfound := Archive.find?_eq_some_of_mem (Container.nodup_ofBytes hopen) he
    exact Container.lookup_of_substituted rfl hfound hcontent
  · intro other hother
    obtain ⟨hsame, hstats⟩ := Archive.rebuilt?_congr hother
    exact ⟨hsame.trans hrebuilt, hstats⟩
  · exact (List.length_map _).symm
  · exact old.archive.stats_substituted subs

/-- An archive with a comment, a stored entry, a compressed one, and one in an unknown form that
is known to no system. -/
def mixedArchive : Archive where
  comment := [0x21]
  entries :=
    [storedEntry "stored" [0x61, 0x62],
      (({ storedEntry "deflated" [] with method := .deflated }).withContent [0x63, 0x63]),
      { storedEntry "other" [0x64] with method := .other 12, mode := some 0o100600 }]

/-- New content for two of its entries, and for one that it does not have. -/
def mixedContent : Substitutions :=
  [("missing", [0x7A]), ("stored", [0x65]), ("other", [0x66, 0x67])]

set_option maxRecDepth 4000 in
/-- Two of the three entries have new content, and nothing comes of the third one. -/
theorem rebuilt_entries_mixed :
    ∃ out new, mixedArchive.rebuilt? mixedContent = some out ∧
      Container.ofBytes "a.jar" out = .ok new ∧ new.names = ["stored", "deflated", "other"] ∧
      new.archive.comment = [0x21] ∧
      List.Forall₂ (Archive.Entry.RebuiltAs mixedContent) mixedArchive.entries
        new.archive.entries ∧
      new.lookup "other" = .ok [0x66, 0x67] ∧
      mixedArchive.rebuilt? (mixedContent.drop 1) = some out ∧
      mixedArchive.stats mixedContent = ⟨3, 2⟩ := by
  have hreads : mixedArchive.ReadsBack := by decide +kernel
  have hplain : mixedArchive.IsPlain mixedContent := by decide +kernel
  have hback : (mixedArchive.substituted mixedContent).ReadsBack :=
    hplain.read?_write (by decide)
  have hfits : (mixedArchive.substituted mixedContent).fits = true := by decide +kernel
  have hrebuilt : mixedArchive.rebuilt? mixedContent =
      some (mixedArchive.substituted mixedContent).write := if_pos hfits
  obtain ⟨new, hnew, hnames, hcomment, hentries, hcontent, hother, hwritten, hsubstituted⟩ :=
    rebuilt_entries (hreads.ofBytes "a.jar") hrebuilt hback
  refine ⟨_, new, hrebuilt, hnew, hnames, hcomment, hentries, ?_, ?_, rfl⟩
  · exact hcontent "other" (by decide) _ (by decide)
  · refine (hother (mixedContent.drop 1) ?_).1
    decide

end Defuse
