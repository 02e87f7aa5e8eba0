import Defuse.Proofs.ArchiveRoundTrip
import Defuse.Proofs.Repatching
import Defuse.Proofs.RunHistory
import Defuse.Proofs.Substitution

namespace Defuse

open FileSystem World

/-!
# What a report tells

The report of a run names what became of every target.  That is what the new archive holds.

* `FileSystem.archiveAt?` — the archive that a path leads to;
* `Archive.ReadsBack`, `Report.ReadsBack` — what is written of an archive is that archive, as it
  is for plain ones (`Report.IsPlain.readsBack`);
* `RunLeaves.rebuilt_of_ok` — the archives before and after a run that succeeds;
* `run_report` — the report of a run and its two archives.
-/

/-! ### Archives on a disk -/

/-- The archive that a path leads to. -/
def FileSystem.archiveAt? (fs : FileSystem) (path : String) : Option Container :=
  match fileAt fs path with
  | .ok (_, bytes, _) => (Container.ofBytes path bytes).toOption
  | .error _ => none

/-- An archive is at a path if its bytes can be opened as one. -/
theorem FileSystem.archiveAt?_eq_some {fs : FileSystem} {path : String} {c : Container} :
    fs.archiveAt? path = some c ↔
      ∃ p bytes mode, fileAt fs path = .ok (p, bytes, mode) ∧
        Container.ofBytes path bytes = .ok c := by
  unfold archiveAt?
  rcases fileAt fs path with e | ⟨p, bytes, mode⟩
  · simp
  · cases hc : Container.ofBytes path bytes <;> simp [Except.toOption, hc]

/-- The entries of an archive that was opened have different names. -/
theorem FileSystem.nodup_of_archiveAt? {fs : FileSystem} {path : String} {c : Container}
    (h : fs.archiveAt? path = some c) : c.names.Nodup := by
  obtain ⟨-, bytes, -, -, hc⟩ := archiveAt?_eq_some.mp h
  exact Container.nodup_ofBytes hc

/-- What is written of an archive is read as that archive. -/
def Archive.ReadsBack (a : Archive) : Prop := read? a.write = some a

instance (a : Archive) : Decidable a.ReadsBack := inferInstanceAs (Decidable (_ = _))

/-- What is written of an archive is opened as that archive. -/
theorem Archive.ReadsBack.ofBytes {a : Archive} (h : a.ReadsBack) (path : String) :
    Container.ofBytes path a.write = .ok ⟨path, a.write, a⟩ := by
  rw [Container.ofBytes, show read? a.write = some a from h]

/-- What a run has written of the archive that was there before is read as it was written. -/
def Report.ReadsBack (r : Report) (before : FileSystem) : Prop :=
  ∀ c ∈ before.archiveAt? r.archive,
    (c.archive.substituted (substitutionsOf r.targets)).ReadsBack

instance (r : Report) (before : FileSystem) : Decidable (r.ReadsBack before) :=
  inferInstanceAs (Decidable (∀ c ∈ before.archiveAt? r.archive, _))

/-- The archive that was there before a run is plain, and stays so with its new content. -/
def Report.IsPlain (r : Report) (before : FileSystem) : Prop :=
  ∀ c ∈ before.archiveAt? r.archive, c.archive.IsPlain (substitutionsOf r.targets)

instance (r : Report) (before : FileSystem) : Decidable (r.IsPlain before) :=
  inferInstanceAs (Decidable (∀ c ∈ before.archiveAt? r.archive, _))

/-- A plain archive is read as a run has written it. -/
theorem Report.IsPlain.readsBack {r : Report} {before : FileSystem} (h : r.IsPlain before) :
    r.ReadsBack before := by
  intro c hc
  exact (h c hc).read?_write (FileSystem.nodup_of_archiveAt? hc)

/-- The bytes of an archive that is rebuilt are its own. -/
theorem Archive.rebuilt?_eq_some {a : Archive} {subs : Substitutions} {bytes : Bytes}
    (h : a.rebuilt? subs = some bytes) : bytes = (a.substituted subs).write := by
  by_cases hfits : (a.substituted subs).fits = true
  · rw [rebuilt?, if_pos hfits] at h
    exact (Option.some.inj h).symm
  · rw [rebuilt?, if_neg hfits] at h
    cases h

/-- A run that succeeds has read an archive, tells what became of its targets, and leaves the
archive with new content in its place. -/
theorem RunLeaves.rebuilt_of_ok {compiler : Compiler} {config : Configuration}
    {fs gs : FileSystem} {report : Report}
    (h : RunLeaves compiler config fs (.ok report) gs) :
    ∃ c a mode, fs.archiveAt? config.archive = some c ∧
      report.archive = config.archive ∧
      report.targets = outcomes compiler c config.mode ∧
      report.rebuild.stats = c.archive.stats (substitutionsOf report.targets) ∧
      fileAt gs config.archive =
        .ok (a, (c.archive.substituted (substitutionsOf report.targets)).write, mode) := by
  cases h with
  | @done a p bytes new mode n c harchive hcontainer hn hfirst hrebuilt =>
    have hthere := fileAt_put_of_free harchive (free?_eq_ok.mp hfirst.free).2 bytes mode
    have hdirectory := isDirectory_of_fileAt hthere
    have hnew := fileAt_put_of_resolve hdirectory (fileAt_eq_ok.mp hthere).1 new mode
    rw [Archive.rebuilt?_eq_some hrebuilt] at hnew ⊢
    exact ⟨c, a, mode, archiveAt?_eq_some.mpr ⟨a, bytes, mode, harchive, hcontainer⟩, rfl, rfl,
      rfl, hnew⟩

/-- If the new archive is read as it was written, it is the old one with new content. -/
theorem rebuilt_of_run {compiler : Compiler} {config : Configuration} {w v : World}
    {report : Report} (hrun : World.after (run compiler config) w = (.ok report, v))
    (hback : report.ReadsBack w.files) :
    ∃ old new, w.files.archiveAt? config.archive = some old ∧
      v.files.archiveAt? config.archive = some new ∧
      report.targets = outcomes compiler old config.mode ∧
      report.rebuild.stats = old.archive.stats (substitutionsOf report.targets) ∧
      new.archive = old.archive.substituted (substitutionsOf report.targets) ∧
      new.archive.ReadsBack := by
  have hleaves := (Ensures.run compiler config w.files).holds w rfl
  rw [hrun] at hleaves
  obtain ⟨old, a, mode, hold, hpath, htargets, hstats, hnew⟩ := hleaves.rebuilt_of_ok
  let rebuilt := old.archive.substituted (substitutionsOf report.targets)
  have hread : rebuilt.ReadsBack := by
    rw [← hpath] at hold
    exact hback old hold
  exact ⟨old, _, hold,
    archiveAt?_eq_some.mpr ⟨a, rebuilt.write, mode, hnew, hread.ofBytes config.archive⟩,
    htargets, hstats, rfl, hread⟩

/-! ### Entries of the new archive -/

section

variable {compiler : Compiler} {mode : Mode} {old new : Container}

/-- The entry of a patched target has the new content. -/
theorem lookup_of_applied
    (hnew : new.archive = old.archive.substituted (substitutionsOf (outcomes compiler old mode)))
    {t : Target} {content : Bytes} (ht : (t, .applied content) ∈ outcomes compiler old mode) :
    new.lookup t.entryPath = .ok content := by
  obtain ⟨hmode, happlied⟩ := mem_outcomes.mp ht
  obtain ⟨before, hbefore, -⟩ := patchTarget_eq_applied.mp happlied
  obtain ⟨e, hfound, -⟩ := Container.lookup_eq_ok.mp hbefore
  have hname : e.name = t.entryPath := by simpa using List.find?_some hfound
  have hsubs : (substitutionsOf (outcomes compiler old mode)).lookup e.name = some content :=
    lookup_substitutionsOf.mpr ⟨t, hmode, happlied, hname.symm⟩
  exact Container.lookup_of_substituted hnew hfound hsubs

/-- Every other entry is kept. -/
theorem kept_of_not_applied
    (hnew : new.archive = old.archive.substituted (substitutionsOf (outcomes compiler old mode)))
    (hnames : old.names.Nodup) {e : Archive.Entry} (he : e ∈ old.archive.entries)
    (hother : ∀ t content, (t, .applied content) ∈ outcomes compiler old mode →
      t.entryPath ≠ e.name) :
    ∃ kept, new.archive.find? e.name = some kept ∧ e.Kept kept := by
  have hsubs : (substitutionsOf (outcomes compiler old mode)).lookup e.name = none := by
    cases hlookup : (substitutionsOf (outcomes compiler old mode)).lookup e.name with
    | none => rfl
    | some content =>
      obtain ⟨t, hmode, happlied, hname⟩ := lookup_substitutionsOf.mp hlookup
      exact absurd hname (hother t content (mem_outcomes.mpr ⟨hmode, happlied⟩))
  refine ⟨e.copied, ?_, e.kept_copied⟩
  rw [hnew, Archive.find?_substituted, Archive.find?_eq_some_of_mem hnames he, Option.map_some,
    Archive.Entry.substituted, hsubs]

end

/-- **The report tells what the archive holds.** -/
theorem run_report (compiler : Compiler) (config : Configuration) {w v : World} {report : Report}
    (hrun : World.after (run compiler config) w = (.ok report, v))
    (hback : report.ReadsBack w.files) :
    ∃ old new, w.files.archiveAt? config.archive = some old ∧
      v.files.archiveAt? config.archive = some new ∧
      report.targets = config.mode.targets.map (fun t => (t, patchTarget compiler old t)) ∧
      new.names = old.names ∧
      (∀ t content, (t, .applied content) ∈ report.targets →
        new.lookup t.entryPath = .ok content) ∧
      (∀ e ∈ old.archive.entries,
        (∀ t content, (t, .applied content) ∈ report.targets → t.entryPath ≠ e.name) →
        ∃ kept, new.archive.find? e.name = some kept ∧ e.Kept kept) ∧
      report.applied = report.rebuild.stats.substituted := by
  obtain ⟨old, new, hold, hopened, htargets, hstats, hnew, -⟩ := rebuilt_of_run hrun hback
  have hnames := FileSystem.nodup_of_archiveAt? hold
  rw [htargets] at hnew hstats ⊢
  refine ⟨old, new, hold, hopened, rfl, ?_, ?_, ?_, ?_⟩
  · rw [Container.names, hnew, Archive.names_substituted, Container.names]
  · intro t content ht
    exact lookup_of_applied hnew ht
  · intro e he hother
    exact kept_of_not_applied hnew hnames he hother
  · rw [hstats, stats_substitutionsOf hnames, Report.applied, htargets]

/-! ### Archives with stored entries -/

/-- Whether a computation comes to something of which a condition holds. -/
def World.comesTo {α ε : Type} (c : StateM World (Except ε α)) (w : World)
    (P : α → World → Prop) [∀ a v, Decidable (P a v)] : Bool :=
  match World.after c w with
  | (.ok a, v) => P a v
  | (.error _, _) => false

/-- What a run comes to is what is left behind it, if it ends well. -/
theorem World.comesTo_iff {α ε : Type} {c : StateM World (Except ε α)} {w : World}
    {P : α → World → Prop} [∀ a v, Decidable (P a v)] :
    World.comesTo c w P = true ↔ ∃ a v, World.after c w = (.ok a, v) ∧ P a v := by
  unfold comesTo
  rcases World.after c w with ⟨e | a, v⟩
  · simp
  · simp

/-- An entry that holds some bytes as they are. -/
def storedEntry (name : String) (content : Bytes) : Archive.Entry where
  name := name
  method := .stored
  isEncrypted := false
  modified := some .dosEpoch
  checksum := Crc32.checksum content
  size := content.length
  mode := some 0o100644
  dataSize := content.length
  data := content

/-- The bytes of an archive with one entry, which is marked as encrypted though its data are
not. -/
def markedArchive (e : Archive.Entry) : Bytes :=
  let h : Archive.Zip.Header := { e.header 0 with flags := 2 ^ Archive.Zip.encryptedFlag }
  h.writeEntry e.data ++ h.write ++
    Archive.Zip.writeEnd 1 h.write.length (h.writeEntry e.data).length h.neededVersion []

/-- A class with an abstract method that a run replaces. -/
def stubClass : ClassFile :=
  { abstractClass with
    pool :=
      { storedSize := 3
        slots := [.utf8 (Text.ModifiedUtf8.encode Target.lookupMethod),
          .utf8 (Text.ModifiedUtf8.encode Target.lookupDescriptor)] } }

/-- The entry of a target that holds such a class. -/
def stubEntry : Archive.Entry := storedEntry (Target.ofKind .script).entryPath stubClass.write

/-- An archive with that entry behind another one. -/
def lookupArchive : Archive := ⟨[], [storedEntry "b" [0x62], stubEntry]⟩

/-- A disk with an archive. -/
def diskWith (bytes : Bytes) : World := .reliable ⟨[], [(["a.jar"], .file bytes 0o600)]⟩

/-- What a run of that archive needs to know. -/
def archiveRun : Configuration := ⟨"/a.jar", .scriptOnly, true, none, ⟨2022, 10, 21, 9, 5, 3⟩⟩

/-- A compiler whose code gives nothing back, whatever the source text. -/
def nullCompiler : Compiler := fun _ _ => return ⟨[.aconstNull, .areturn], 1, 2⟩

set_option maxRecDepth 4000 in
/-- The target is patched, and one of the two entries has new content. -/
theorem run_report_lookup :
    ∃ report v old new,
      World.after (run nullCompiler archiveRun) (diskWith lookupArchive.write) = (.ok report, v) ∧
      report.ReadsBack (diskWith lookupArchive.write).files ∧
      (diskWith lookupArchive.write).files.archiveAt? "/a.jar" = some old ∧
      v.files.archiveAt? "/a.jar" = some new ∧ new.names = old.names ∧
      report.applied = 1 ∧ report.rebuild.stats.substituted = 1 := by
  have hcomes : World.comesTo (run nullCompiler archiveRun) (diskWith lookupArchive.write)
      (fun report _ => report.IsPlain (diskWith lookupArchive.write).files ∧
        report.applied = 1) = true := by decide +kernel
  obtain ⟨report, v, hrun, hplain, happlied⟩ := World.comesTo_iff.mp hcomes
  have hback := hplain.readsBack
  obtain ⟨old, new, hold, hnew, -, hnames, -, -, hcount⟩ :=
    run_report nullCompiler archiveRun hrun hback
  exact ⟨report, v, old, new, hrun, hback, hold, hnew, hnames, happlied, hcount ▸ happlied⟩

set_option maxRecDepth 4000 in
/-- An entry that is marked as encrypted cannot be read before a run, and is read after it,
though nothing has been patched: it is written without its mark. -/
theorem run_unmarks :
    ∃ report v old new,
      World.after (run compile archiveRun) (diskWith (markedArchive stubEntry)) =
        (.ok report, v) ∧
      report.ReadsBack (diskWith (markedArchive stubEntry)).files ∧ report.applied = 0 ∧
      (diskWith (markedArchive stubEntry)).files.archiveAt? "/a.jar" = some old ∧
      v.files.archiveAt? "/a.jar" = some new ∧
      old.lookup stubEntry.name = .error (.entryUnreadable stubEntry.name) ∧
      new.lookup stubEntry.name = .ok stubClass.write := by
  have hcomes : World.comesTo (run compile archiveRun) (diskWith (markedArchive stubEntry))
      (fun report v =>
        report.IsPlain (diskWith (markedArchive stubEntry)).files ∧ report.applied = 0 ∧
        ∃ old ∈ (diskWith (markedArchive stubEntry)).files.archiveAt? "/a.jar",
          ∃ new ∈ v.files.archiveAt? "/a.jar",
            old.lookup stubEntry.name = .error (.entryUnreadable stubEntry.name) ∧
            new.lookup stubEntry.name = .ok stubClass.write) = true := by decide +kernel
  obtain ⟨report, v, hrun, hplain, happlied, old, hold, new, hnew, hbefore, hafter⟩ :=
    World.comesTo_iff.mp hcomes
  exact ⟨report, v, old, new, hrun, hplain.readsBack, happlied, hold, hnew, hbefore, hafter⟩

end Defuse
