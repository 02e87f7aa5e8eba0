import Defuse.Proofs.DiskSteps
import Defuse.Run

namespace Defuse

open FileSystem World

/-!
# What the parts of a run leave

Each part of a run leaves the files as they were, unless it succeeds.

* `Ensures.load` — reading the archive;
* `Ensures.copyVerified`, `Ensures.make` — the backup, which gets the first free name;
* `Ensures.fillAndRename`, `Ensures.replaceArchive` — the new archive;
* `Ensures.rebuild` — one after the other;
* `RunLeaves`, `Ensures.run` — all that a run can come to, with the files that it leaves.
-/

/-- A container that was opened keeps the bytes that it was opened from. -/
theorem Container.bytes_ofBytes {path : String} {bytes : Bytes} {c : Container}
    (h : Container.ofBytes path bytes = .ok c) : c.bytes = bytes := by
  unfold Container.ofBytes at h
  split at h
  · cases h
    rfl
  · cases h

/-- Why there is no backup: all names are taken; or the disk did not create the file; or the file
with the first free name was not filled. -/
inductive BackupMissed (fs : FileSystem) (archive : String) (stamp : Stamp) : BackupError → Prop
  | noneFree (taken : ∀ n < Backup.attempts,
      fs.free? (Backup.path archive stamp n) = .error .taken) :
      BackupMissed fs archive stamp
        ⟨archive, Backup.path archive stamp (Backup.attempts - 1), .noFreeName⟩
  | notCreated {path : String} {cause : DiskError}
      (refused : Refused fs (Backup.path archive stamp) Backup.attempts path cause) :
      BackupMissed fs archive stamp ⟨archive, path, .disk cause⟩
  | notCopied {n : Nat} {p : Place} (limit : n < Backup.attempts)
      (first : FirstFree fs (Backup.path archive stamp) n p) (failure : BackupFailure) :
      BackupMissed fs archive stamp ⟨archive, Backup.path archive stamp n, failure⟩

namespace Ensures

variable {fs : FileSystem} {archive : String} {a p : Place} {bytes found : Bytes} {mode kept : Nat}

/-! ### The old archive -/

/-- Reading an archive changes nothing. -/
theorem load (path : String) : Ensures fs (Container.load path) fun r gs =>
    gs = fs ∧ match r with
      | .ok c => ∃ p bytes mode, fileAt fs path = .ok (p, bytes, mode) ∧
          Container.ofBytes path bytes = .ok c
      | .error _ => True := by
  refine bind (isFile path) ?_
  rintro isThere gs rfl
  cases isThere with
  | false => exact pure ⟨rfl, trivial⟩
  | true =>
    refine bind (read path) ?_
    rintro (cause | bytes) _ ⟨rfl, hread⟩
    · exact pure ⟨rfl, trivial⟩
    · obtain ⟨p, mode, hfile⟩ := hread bytes rfl
      apply pure
      refine ⟨rfl, ?_⟩
      cases hc : Container.ofBytes path bytes with
      | error e => trivial
      | ok c => exact ⟨p, bytes, mode, hfile, hc⟩

/-! ### The backup -/

/-- Whatever fails, only the new file is touched. -/
theorem copyVerified {path : String} (hfree : fs.free? path = .ok p)
    (harchive : fileAt fs archive = .ok (a, found, kept)) (expected : Bytes) :
    Ensures (fs.put p (.file bytes mode)) (Backup.copyVerified archive path expected) fun r gs =>
      match r with
      | .ok () => gs = fs.put p (.file expected kept)
      | .error _ => ∃ landed mode', gs = fs.put p (.file landed mode') := by
  -- whichever step fails, the new file has some bytes and some permissions
  refine disk_bind (read archive) ?_ ?_
  · rintro e _ ⟨rfl, -⟩
    exact ⟨bytes, mode, rfl⟩
  rintro copied _ ⟨rfl, -⟩
  refine disk_bind (write hfree copied) ?_ ?_
  · rintro e _ ⟨landed, rfl, -⟩
    exact ⟨landed, mode, rfl⟩
  rintro - _ ⟨landed, rfl, -⟩
  refine disk_bind (sync path) ?_ ?_
  · rintro e _ rfl
    exact ⟨landed, mode, rfl⟩
  rintro - _ rfl
  refine disk_bind (copyMode hfree harchive) ?_ ?_
  · rintro e _ ⟨mode', rfl, -⟩
    exact ⟨landed, mode', rfl⟩
  rintro ⟨⟩ _ ⟨mode', rfl, hmode⟩
  refine disk_bind (read path) ?_ ?_
  · rintro e _ ⟨rfl, -⟩
    exact ⟨landed, mode', rfl⟩
  -- what is read back is what has landed, and it is the backup only if it is as expected
  rintro back _ ⟨rfl, hback⟩
  obtain ⟨p', mode'', hfile⟩ := hback back rfl
  rw [fileAt_put_self hfree] at hfile
  cases hfile
  by_cases hexpected : landed = expected
  · rw [if_pos hexpected, hexpected, hmode rfl]
    exact pure rfl
  · rw [if_neg hexpected]
    exact pure ⟨landed, mode', rfl⟩

/-- A backup that cannot be made leaves nothing, and one that is made has the first free
name. -/
theorem make (harchive : fileAt fs archive = .ok (a, found, kept)) (expected : Bytes)
    (stamp : Stamp) :
    Ensures fs (Backup.make archive expected stamp) fun r gs =>
      match r with
      | .ok record => ∃ n p, n < Backup.attempts ∧
          FirstFree fs (Backup.path archive stamp) n p ∧
          record = ⟨Backup.path archive stamp n, expected.length⟩ ∧
          gs = fs.put p (.file expected kept)
      | .error e => gs = fs ∧ BackupMissed fs archive stamp e := by
  refine bind (createFree (Backup.path archive stamp) Backup.attempts) ?_
  rintro (path | _ | ⟨path, cause⟩) gs hcreated
  -- a file was created, which is removed again if it is not filled
  · obtain ⟨n, p, hn, rfl, hfirst, rfl⟩ := hcreated
    refine bind (copyVerified hfirst.free harchive expected) ?_
    rintro (failure | ⟨⟨⟩⟩) gs hcopied
    · obtain ⟨landed, mode, rfl⟩ := hcopied
      refine bind (remove hfirst.free) ?_
      rintro - _ rfl
      exact pure ⟨rfl, .notCopied hn hfirst failure⟩
    · exact pure ⟨n, p, hn, hfirst, rfl, hcopied⟩
  · obtain ⟨rfl, htaken⟩ := hcreated
    exact pure ⟨rfl, .noneFree htaken⟩
  · obtain ⟨rfl, hrefused⟩ := hcreated
    exact pure ⟨rfl, .notCreated hrefused⟩

/-! ### The new archive -/

/-- Whatever fails, only the new file is touched; the archive changes in the last step. -/
theorem fillAndRename {temporary : String} (hfree : fs.free? temporary = .ok p)
    (harchive : fileAt fs archive = .ok (a, found, kept)) (new : Option Bytes) :
    Ensures (fs.put p (.file bytes mode)) (Defuse.fillAndRename archive temporary new) fun r gs =>
      match r with
      | .ok () => ∃ content, new = some content ∧ gs = fs.put a (.file content kept)
      | .error _ => ∃ landed mode', gs = fs.put p (.file landed mode') := by
  cases new with
  | none => exact pure ⟨bytes, mode, rfl⟩
  | some content =>
    refine disk_bind (write hfree content) ?_ ?_
    · rintro e _ ⟨landed, rfl, -⟩
      exact ⟨landed, mode, rfl⟩
    rintro ⟨⟩ _ ⟨landed, rfl, hlanded⟩
    refine disk_bind (sync temporary) ?_ ?_
    · rintro e _ rfl
      exact ⟨landed, mode, rfl⟩
    rintro - _ rfl
    refine disk_bind (copyMode hfree harchive) ?_ ?_
    · rintro e _ ⟨mode', rfl, -⟩
      exact ⟨landed, mode', rfl⟩
    rintro ⟨⟩ _ ⟨mode', rfl, hmode⟩
    refine disk (rename hfree harchive) ?_
    rintro (e | ⟨⟨⟩⟩) gs hrenamed
    · exact ⟨landed, mode', hrenamed⟩
    · -- all steps before have succeeded, so what takes the place is complete
      rw [hlanded rfl, hmode rfl] at hrenamed
      exact ⟨content, rfl, hrenamed⟩

/-- An archive that is not replaced leaves nothing of the new one. -/
theorem replaceArchive (harchive : fileAt fs archive = .ok (a, found, kept))
    (staging : Option String) (new : Option Bytes) :
    Ensures fs (Defuse.replaceArchive archive staging new) fun r gs =>
      match r with
      | .ok () => ∃ content, new = some content ∧ gs = fs.put a (.file content kept)
      | .error _ => gs = fs := by
  refine bind (createFree (temporaryPath (stagingOf archive staging)) temporaryAttempts) ?_
  rintro (path | _ | ⟨path, cause⟩) gs hcreated
  · obtain ⟨n, p, -, rfl, hfirst, rfl⟩ := hcreated
    refine bind (fillAndRename hfirst.free harchive new) ?_
    rintro (failure | ⟨⟨⟩⟩) gs hfilled
    · obtain ⟨landed, mode, rfl⟩ := hfilled
      refine bind (remove hfirst.free) ?_
      rintro - _ rfl
      exact pure rfl
    · exact pure hfilled
  · exact pure hcreated.1
  · exact pure hcreated.1

/-- A backup comes first, then the new archive. -/
theorem rebuild {c : Container} (harchive : fileAt fs archive = .ok (a, c.bytes, kept))
    (staging : Option String) (stamp : Stamp) (subs : Substitutions) :
    Ensures fs (Defuse.rebuild archive staging stamp c subs) fun r gs =>
      match r with
      | .ok summary => ∃ n p content, n < Backup.attempts ∧
          FirstFree fs (Backup.path archive stamp) n p ∧
          c.archive.rebuilt? subs = some content ∧
          summary = ⟨⟨Backup.path archive stamp n, c.bytes.length⟩, c.archive.stats subs⟩ ∧
          gs = (fs.put p (.file c.bytes kept)).put a (.file content kept)
      | .error e => (∃ cause, e = .backup cause ∧ BackupMissed fs archive stamp cause ∧ gs = fs) ∨
          ∃ n p cause, n < Backup.attempts ∧ FirstFree fs (Backup.path archive stamp) n p ∧
            e = .replace archive cause ∧ gs = fs.put p (.file c.bytes kept) := by
  refine bind (make harchive c.bytes stamp) ?_
  rintro (cause | record) gs hmade
  · exact pure (.inl ⟨cause, rfl, hmade.2, hmade.1⟩)
  obtain ⟨n, p, hn, hfirst, rfl, rfl⟩ := hmade
  -- the archive is where it was once the backup has come to a free place
  have hthere := fileAt_put_of_free harchive (free?_eq_ok.mp hfirst.free).2 c.bytes kept
  refine bind (replaceArchive hthere staging (c.archive.rebuilt? subs)) ?_
  rintro (cause | ⟨⟨⟩⟩) gs hreplaced
  · exact pure (.inr ⟨n, p, cause, hn, hfirst, rfl, hreplaced⟩)
  · obtain ⟨content, hcontent, rfl⟩ := hreplaced
    exact pure ⟨n, p, content, hn, hfirst, hcontent, rfl, rfl⟩

end Ensures

/-! ### Runs -/

/-- What a run comes to on some files, with the files that it leaves. -/
inductive RunLeaves (compiler : Compiler) (config : Configuration) (fs : FileSystem) :
    Except RunError Report → FileSystem → Prop
  /-- The archive was not read. -/
  | container (cause : ContainerError) :
      RunLeaves compiler config fs (.error (.container cause)) fs
  /-- No backup was made. -/
  | backup (cause : BackupError)
      (missed : BackupMissed fs config.archive config.stamp cause) :
      RunLeaves compiler config fs (.error (.backup cause)) fs
  /-- A backup was made, and the archive was not replaced. -/
  | replace {a p : Place} {bytes : Bytes} {mode n : Nat}
      (archive : fileAt fs config.archive = .ok (a, bytes, mode))
      (limit : n < Backup.attempts)
      (first : FirstFree fs (Backup.path config.archive config.stamp) n p)
      (cause : ReplaceFailure) :
      RunLeaves compiler config fs (.error (.replace config.archive cause))
        (fs.put p (.file bytes mode))
  /-- A backup was made, and the archive was replaced. -/
  | done {a p : Place} {bytes new : Bytes} {mode n : Nat} {c : Container}
      (archive : fileAt fs config.archive = .ok (a, bytes, mode))
      (container : Container.ofBytes config.archive bytes = .ok c)
      (limit : n < Backup.attempts)
      (first : FirstFree fs (Backup.path config.archive config.stamp) n p)
      (rebuilt : c.archive.rebuilt? (substitutionsOf (outcomes compiler c config.mode)) =
        some new) :
      RunLeaves compiler config fs
        (.ok ⟨config.archive, c.release, outcomes compiler c config.mode,
          ⟨⟨Backup.path config.archive config.stamp n, bytes.length⟩,
            c.archive.stats (substitutionsOf (outcomes compiler c config.mode))⟩⟩)
        ((fs.put p (.file bytes mode)).put a (.file new mode))

/-- A run comes to one of these. -/
theorem Ensures.run (compiler : Compiler) (config : Configuration) (fs : FileSystem) :
    Ensures fs (Defuse.run compiler config) (RunLeaves compiler config fs) := by
  refine bind (load config.archive) ?_
  rintro (cause | c) _ ⟨rfl, hloaded⟩
  · exact pure (.container cause)
  obtain ⟨a, bytes, mode, harchive, hcontainer⟩ := hloaded
  obtain rfl : c.bytes = bytes := Container.bytes_ofBytes hcontainer
  dsimp only
  rw [config.outcomes_eq compiler c]
  refine bind (rebuild harchive config.stagingDirectory config.stamp
    (substitutionsOf (outcomes compiler c config.mode))) ?_
  rintro (e | summary) gs hrebuilt
  · apply pure
    rcases hrebuilt with ⟨cause, rfl, hmissed, rfl⟩ | ⟨n, p, cause, hn, hfirst, rfl, rfl⟩
    · exact .backup cause hmissed
    · exact .replace harchive hn hfirst cause
  · obtain ⟨n, p, content, hn, hfirst, hcontent, rfl, rfl⟩ := hrebuilt
    exact pure (.done harchive hcontainer hn hfirst hcontent)

end Defuse
