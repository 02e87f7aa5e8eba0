import Defuse.Proofs.RunReport

namespace Defuse

open FileSystem World

/-!
# A second run

What a run has patched is patched to itself by the next one, and what it has kept is kept.

* `Target.Repatchable` — a class that is patched to itself once it has been patched;
* `patchTarget_again` — what becomes of a target in an archive that has been rebuilt;
* `run_again` — the second of two runs finds what the first one found, unless an entry of a
  target has lost its mark, and then it leaves the archive as it is.
-/

/-- A class whose counts and indices are in order, and small enough to be patched again with the
same result. -/
structure Target.Repatchable (t : Target) (bytes : Bytes) (c : ClassFile) : Prop where
  size : bytes.length < 2 ^ 31
  counted : c.pool.IsCounted
  inside : c.NamesInside
  room : ∀ position method, c.findMethod t.methodName t.descriptor = some position →
    c.methods[position]? = some method → method.attributes.length < 65535

/-- The class of a target that has been patched is patched to itself. -/
theorem Target.patch_patch {t : Target} {bytes out : Bytes}
    (hclass : ∀ c, ClassFile.parse bytes = .ok c → t.Repatchable bytes c)
    (h : patch compile bytes t.methodName t.descriptor t.source = .ok out) :
    patch compile out t.methodName t.descriptor t.source = .ok out := by
  obtain ⟨c, position, method, -, -, -, -, hparse, hposition, hmethod, -⟩ := patch_eq_ok.mp h
  have hc := hclass c hparse
  exact patch_idempotent hc.size hparse hc.counted hc.inside hposition hmethod
    (hc.room position method hposition hmethod) h

section

variable {compiler : Compiler} {mode : Mode} {old mid : Container} {t : Target}

/-- The entry of a target that has not been patched is kept. -/
theorem kept_of_target
    (hmid : mid.archive = old.archive.substituted (substitutionsOf (outcomes compiler old mode)))
    (hnames : old.names.Nodup) (ht : t ∈ mode.targets)
    (hother : ∀ content, patchTarget compiler old t ≠ .applied content) {e : Archive.Entry}
    (he : old.archive.find? t.entryPath = some e) :
    ∃ kept, mid.archive.find? t.entryPath = some kept ∧ e.Kept kept := by
  have hname : e.name = t.entryPath := by simpa using List.find?_some he
  have hmem : e ∈ old.archive.entries := List.mem_of_find?_eq_some he
  rw [← hname]
  refine kept_of_not_applied hmid hnames hmem ?_
  intro t' content ht' hpath
  obtain ⟨hmode', happlied⟩ := mem_outcomes.mp ht'
  -- no other target of the mode is in this entry
  obtain rfl : t' = t :=
    List.inj_on_of_nodup_map mode.nodup_entryPaths hmode' ht (hpath.trans hname)
  exact hother content happlied

/-- The entry of a target has lost its mark, and what could not be read before is read now. -/
theorem patchTarget_ne_of_mismarked {e kept : Archive.Entry}
    (he : old.archive.find? t.entryPath = some e) (hmarked : e.Mismarked)
    (hmid : mid.archive.find? t.entryPath = some kept) (hkept : e.Kept kept) :
    patchTarget compiler mid t ≠ patchTarget compiler old t := by
  have hnone : e.content? = none := Archive.Entry.content?_of_isEncrypted hmarked.1
  have hold : patchTarget compiler old t = .entryUnreadable (.content t.entryPath) := by
    rw [patchTarget, he]
    simp only [hnone]
  -- a copy that can be read has some other outcome, whichever it is
  cases hcontent : kept.content? with
  | none => exact absurd hmarked (hkept.content.mp (hcontent.trans hnone.symm))
  | some bytes =>
    have hnew : patchTarget compiler mid t =
        .ofPatch (patch compiler bytes t.methodName t.descriptor t.source) := by
      rw [patchTarget, hmid]
      simp only [hcontent]
    rw [hold, hnew]
    rcases patch compiler bytes t.methodName t.descriptor t.source with (_ | _ | _) | out <;>
      simp [Outcome.ofPatch]

/-- In an archive that has been rebuilt a target becomes what it became before, unless its entry
has lost its mark. -/
theorem patchTarget_again
    (hmid : mid.archive = old.archive.substituted (substitutionsOf (outcomes compile old mode)))
    (hnames : old.names.Nodup) (ht : t ∈ mode.targets)
    (hclass : ∀ bytes, old.lookup t.entryPath = .ok bytes →
      ∀ c, ClassFile.parse bytes = .ok c → t.Repatchable bytes c) :
    patchTarget compile mid t = patchTarget compile old t ↔
      ∀ e, old.archive.find? t.entryPath = some e → ¬ e.Mismarked := by
  by_cases happlied : ∃ content, patchTarget compile old t = .applied content
  · obtain ⟨content, happlied⟩ := happlied
    obtain ⟨bytes, hbytes, hpatch⟩ := patchTarget_eq_applied.mp happlied
    have hcontent := lookup_of_applied hmid (mem_outcomes.mpr ⟨ht, happlied⟩)
    have hagain := Target.patch_patch (hclass bytes hbytes) hpatch
    have hnew : patchTarget compile mid t = .applied content :=
      patchTarget_eq_applied.mpr ⟨content, hcontent, hagain⟩
    refine iff_of_true (hnew.trans happlied.symm) ?_
    -- the entry was read, so it is not marked
    rintro e he ⟨hencrypted, -⟩
    obtain ⟨e', he', hread⟩ := Container.lookup_eq_ok.mp hbytes
    obtain rfl : e = e' := Option.some.inj (he.symm.trans he')
    rw [Archive.Entry.content?_of_isEncrypted hencrypted] at hread
    cases hread
  · have hother := not_exists.mp happlied
    cases he : old.archive.find? t.entryPath with
    | none =>
      have hnone : mid.archive.find? t.entryPath = none := by
        rw [hmid, Archive.find?_substituted, he, Option.map_none]
      refine iff_of_true ?_ (fun e h => by cases h)
      rw [patchTarget, patchTarget, he, hnone]
    | some e =>
      obtain ⟨kept, hfound, hkept⟩ := kept_of_target hmid hnames ht hother he
      constructor
      · rintro hsame e' he' hmarked
        obtain rfl : e = e' := Option.some.inj he'
        exact patchTarget_ne_of_mismarked he hmarked hfound hkept hsame
      · intro hplain
        have hcontent : kept.content? = e.content? := hkept.content.mpr (hplain e rfl)
        rw [patchTarget, patchTarget, he, hfound]
        simp only [hcontent]

end

/-- **A second run.** Whatever becomes of the targets in the first of two runs, the second one
reports the same, with the same new bytes, exactly if no entry of a target is marked as encrypted
although its data can be read as they are; and then it leaves the archive as it is: the same
entries, in the same order, with the same data. -/
theorem run_again {config again : Configuration} {w v u : World} {first second : Report}
    (hpath : again.archive = config.archive) (hmode : again.mode = config.mode)
    (hfirst : World.after (run compile config) w = (.ok first, v))
    (hsecond : World.after (run compile again) v = (.ok second, u))
    (hback : first.ReadsBack w.files)
    (hclasses : ∀ old ∈ w.files.archiveAt? config.archive, ∀ t ∈ config.mode.targets, ∀ bytes,
      old.lookup t.entryPath = .ok bytes →
        ∀ c, ClassFile.parse bytes = .ok c → t.Repatchable bytes c) :
    ∃ old mid, w.files.archiveAt? config.archive = some old ∧
      v.files.archiveAt? config.archive = some mid ∧
      (second.targets = first.targets ↔ ∀ t ∈ config.mode.targets, ∀ e,
        old.archive.find? t.entryPath = some e → ¬ e.Mismarked) ∧
      (second.targets = first.targets →
        ∃ new, u.files.archiveAt? config.archive = some new ∧ new.archive = mid.archive) := by
  obtain ⟨old, mid, hold, hopened, htargets, -, hmid, hwritten⟩ := rebuilt_of_run hfirst hback
  have hleaves := (Ensures.run compile again v.files).holds v rfl
  rw [hsecond] at hleaves
  obtain ⟨c, -, -, hc, hreported, hlater, -⟩ := hleaves.rebuilt_of_ok
  -- the second run opens what the first one has left
  obtain rfl : mid = c := by
    rw [hpath, hopened] at hc
    exact Option.some.inj hc
  rw [hmode] at hlater
  have hnames := FileSystem.nodup_of_archiveAt? hold
  refine ⟨old, mid, hold, hopened, ?_, ?_⟩
  · rw [htargets, hlater, outcomes, outcomes, List.map_inj_left]
    rw [htargets] at hmid
    refine forall₂_congr ?_
    intro t ht
    rw [← patchTarget_again hmid hnames ht (hclasses old hold t ht)]
    simp
  · intro hsame
    have hunchanged : mid.archive.substituted (substitutionsOf second.targets) = mid.archive := by
      rw [hsame, hmid, Archive.substituted_substituted]
    have hagain : second.ReadsBack v.files := by
      intro c hc
      rw [hreported, hpath] at hc
      obtain rfl : mid = c := Option.some.inj (hopened.symm.trans hc)
      rw [hunchanged]
      exact hwritten
    obtain ⟨c, new, hc, hnew, -, -, hrebuilt, -⟩ := rebuilt_of_run hsecond hagain
    rw [hpath] at hc hnew
    obtain rfl : mid = c := Option.some.inj (hopened.symm.trans hc)
    exact ⟨new, hnew, hrebuilt.trans hunchanged⟩

/-! ### Two runs of one archive -/

/-- The class of the example can be patched a second time. -/
theorem stubClass_repatchable {c : ClassFile} (hc : ClassFile.parse stubClass.write = .ok c) :
    (Target.ofKind .script).Repatchable stubClass.write c := by
  have hreadable : stubClass.IsReadable :=
    { pool := { laidOut := rfl, fills := trivial, writable := by decide }
      lists := { abstractClass_isReadable.lists with } }
  obtain rfl : stubClass = c := Except.ok.inj (hreadable.parse_write.symm.trans hc)
  refine ⟨?_, rfl, ?_, ?_⟩
  · have hlength : stubClass.write.length = 82 := rfl
    omega
  · constructor <;> decide
  · intro position method _ hmethod
    rw [List.mem_singleton.mp (List.mem_of_getElem? hmethod)]
    decide

set_option maxRecDepth 4000 in
/-- The first run patches the target, and the second one changes nothing. -/
theorem run_again_lookup :
    ∃ first v second u mid new,
      World.after (run compile archiveRun) (diskWith lookupArchive.write) = (.ok first, v) ∧
      World.after (run compile archiveRun) v = (.ok second, u) ∧
      first.ReadsBack (diskWith lookupArchive.write).files ∧ first.applied = 1 ∧
      second.targets = first.targets ∧ v.files.archiveAt? "/a.jar" = some mid ∧
      u.files.archiveAt? "/a.jar" = some new ∧ new.archive = mid.archive := by
  have hcomes : World.comesTo (run compile archiveRun) (diskWith lookupArchive.write)
      (fun first v => first.IsPlain (diskWith lookupArchive.write).files ∧
        first.applied = 1 ∧ World.comesTo (run compile archiveRun) v (fun _ _ => True) = true) =
      true := by decide +kernel
  obtain ⟨first, v, hfirst, hplain, happlied, hagain⟩ := World.comesTo_iff.mp hcomes
  obtain ⟨second, u, hsecond, -⟩ := World.comesTo_iff.mp hagain
  have hback := hplain.readsBack
  -- the only target is in an entry that can be read
  have hlookup : ∀ old ∈ (diskWith lookupArchive.write).files.archiveAt? "/a.jar",
      old.lookup (Target.ofKind .script).entryPath = .ok stubClass.write := by decide +kernel
  have htarget (t : Target) (ht : t ∈ archiveRun.mode.targets) : t = Target.ofKind .script :=
    List.mem_singleton.mp ht
  obtain ⟨old, mid, hold, hmid, hsame, hkeeps⟩ := run_again rfl rfl hfirst hsecond hback (by
    intro old hold t ht bytes hbytes c hc
    rw [htarget t ht] at hbytes ⊢
    obtain rfl : stubClass.write = bytes := Except.ok.inj ((hlookup old hold).symm.trans hbytes)
    exact stubClass_repatchable hc)
  have htargets : second.targets = first.targets := by
    refine hsame.mpr ?_
    rintro t ht e he ⟨hencrypted, -⟩
    rw [htarget t ht] at he
    obtain ⟨e', he', hcontent⟩ := Container.lookup_eq_ok.mp (hlookup old hold)
    obtain rfl : e = e' := Option.some.inj (he.symm.trans he')
    rw [Archive.Entry.content?_of_isEncrypted hencrypted] at hcontent
    cases hcontent
  obtain ⟨new, hnew, harchive⟩ := hkeeps htargets
  exact ⟨first, v, second, u, mid, new, hfirst, hsecond, hback, happlied, htargets, hmid, hnew,
    harchive⟩

set_option maxRecDepth 4000 in
/-- A class that is marked as encrypted cannot be read by the first run, and is patched by the
second one. -/
theorem run_again_unmarks :
    ∃ first v second u,
      World.after (run compile archiveRun) (diskWith (markedArchive stubEntry)) =
        (.ok first, v) ∧
      World.after (run compile archiveRun) v = (.ok second, u) ∧
      first.ReadsBack (diskWith (markedArchive stubEntry)).files ∧
      first.applied = 0 ∧ second.applied = 1 := by
  have hcomes : World.comesTo (run compile archiveRun) (diskWith (markedArchive stubEntry))
      (fun first v => first.IsPlain (diskWith (markedArchive stubEntry)).files ∧
        first.applied = 0 ∧ World.comesTo (run compile archiveRun) v
          (fun second _ => second.applied = 1) = true) = true := by decide +kernel
  obtain ⟨first, v, hfirst, hplain, happlied, hagain⟩ := World.comesTo_iff.mp hcomes
  obtain ⟨second, u, hsecond, happlied'⟩ := World.comesTo_iff.mp hagain
  exact ⟨first, v, second, u, hfirst, hsecond, hplain.readsBack, happlied, happlied'⟩

end Defuse
