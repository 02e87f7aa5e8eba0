import Defuse.CommandLine
import Defuse.Proofs.RunSteps

namespace Defuse

open FileSystem World

/-!
# Runs that destroy nothing

* `BackedUp` — a backup has come to the files;
* `run_preserves` — a run that fails changes no file, and a run that does not changes no file
  but the archive; whatever happens, at most one file is new, and it is a backup.
-/

/-- A backup of the archive of a run has come to a place: its name is one of those for
backups, the place was free, and what is there has the bytes and the permissions that the
archive had. -/
structure BackedUp (config : Configuration) (before after : FileSystem) (path : String)
    (place : Place) : Prop where
  named : ∃ n < Backup.attempts, path = Backup.path config.archive config.stamp n
  free : before.free? path = .ok place
  copied : ∃ a bytes mode, fileAt before config.archive = .ok (a, bytes, mode) ∧
    fileAt after path = .ok (place, bytes, mode)

section

variable {config : Configuration} {fs : FileSystem} {a p : Place} {bytes : Bytes} {mode n : Nat}

/-- A backup without a new archive. -/
theorem backedUp_put (harchive : fileAt fs config.archive = .ok (a, bytes, mode))
    (hn : n < Backup.attempts)
    (hfirst : FirstFree fs (Backup.path config.archive config.stamp) n p) :
    BackedUp config fs (fs.put p (.file bytes mode))
      (Backup.path config.archive config.stamp n) p where
  named := ⟨n, hn, rfl⟩
  free := hfirst.free
  copied := ⟨a, bytes, mode, harchive, fileAt_put_self hfirst.free bytes mode⟩

/-- A backup with a new archive, which is at another place. -/
theorem backedUp_put_put (harchive : fileAt fs config.archive = .ok (a, bytes, mode))
    (hn : n < Backup.attempts)
    (hfirst : FirstFree fs (Backup.path config.archive config.stamp) n p) (new : Bytes) :
    BackedUp config fs ((fs.put p (.file bytes mode)).put a (.file new mode))
      (Backup.path config.archive config.stamp n) p := by
  obtain ⟨-, hfree⟩ := free?_eq_ok.mp hfirst.free
  have hthere := fileAt_put_of_free harchive hfree bytes mode
  have hne : p ≠ a := (ne_of_fileAt harchive hfree).symm
  have hbackup := backedUp_put harchive hn hfirst
  obtain ⟨a', bytes', mode', harchive', hcopied⟩ := hbackup.copied
  exact { hbackup with copied := ⟨a', bytes', mode', harchive',
    fileAt_put_of_ne (isDirectory_of_fileAt hthere) hne hcopied new mode⟩ }

end

/-- **A failed run destroys nothing.** Whichever steps of the disk fail, a run that ends early,
with exit code 1, leaves all files as they were.  If the archive was not read, or no backup
was made, nothing is new either; otherwise the only new file is a backup.  A run that does not
end early changes the archive and no other file, and the only new file is a backup. -/
theorem run_preserves (compiler : Compiler) (config : Configuration) (w : World) :
    match World.after (run compiler config) w with
    | (.error e, v) =>
      (endingOf config.archive (.error e)).exitCode = 1 ∧
      (∀ p node, w.files.at? p = some node → v.files.at? p = some node) ∧
      match e with
      | .container _ => v.files = w.files
      | .backup _ => v.files = w.files
      | .replace .. => ∃ path place, BackedUp config w.files v.files path place ∧
          ∀ p ≠ place, v.files.at? p = w.files.at? p
    | (.ok report, v) =>
      (endingOf config.archive (.ok report)).exitCode = 0 ∧
      ∃ place a old new mode,
        BackedUp config w.files v.files report.rebuild.backup.path place ∧
        fileAt w.files config.archive = .ok (a, old, mode) ∧
        fileAt v.files config.archive = .ok (a, new, mode) ∧
        ∀ p, p ≠ place → p ≠ a → v.files.at? p = w.files.at? p := by
  have hrun := (Ensures.run compiler config w.files).holds w rfl
  rcases hafter : World.after (run compiler config) w with ⟨r, files, steps, faults⟩
  rw [hafter] at hrun
  dsimp only at hrun
  cases hrun with
  | container cause => exact ⟨rfl, fun p node h => h, rfl⟩
  | backup cause => exact ⟨rfl, fun p node h => h, rfl⟩
  | @replace a p bytes mode n harchive hn hfirst cause =>
    obtain ⟨-, hfree⟩ := free?_eq_ok.mp hfirst.free
    refine ⟨rfl, fun q node h => at?_put_of_free hfree h, _, p,
      backedUp_put harchive hn hfirst, ?_⟩
    intro q hq
    exact at?_put_of_ne (ne_nil_of_at?_eq_none hfree) hq
  | @done a p bytes new mode n c harchive hcontainer hn hfirst hrebuilt =>
    obtain ⟨-, hfree⟩ := free?_eq_ok.mp hfirst.free
    -- the archive is where it was when it is replaced
    have hthere := fileAt_put_of_free harchive hfree bytes mode
    have hdirectory := isDirectory_of_fileAt hthere
    have hnew := fileAt_put_of_resolve hdirectory (fileAt_eq_ok.mp hthere).1 new mode
    dsimp only
    refine ⟨rfl, p, a, bytes, new, mode, backedUp_put_put harchive hn hfirst new, harchive, hnew,
      ?_⟩
    intro q hqp hqa
    rw [at?_put_of_ne (ne_nil_of_isDirectory_eq_false hdirectory) hqa,
      at?_put_of_ne (ne_nil_of_at?_eq_none hfree) hqp]

/-- The last step of a run fails: an archive without entries is left, with a backup. -/
example :
    let archive : Bytes := [0x50, 0x4B, 0x05, 0x06] ++ List.replicate 18 0
    let config : Configuration := ⟨"/a.jar", .scriptOnly, true, none, ⟨2022, 10, 21, 9, 5, 3⟩⟩
    let failing : World :=
      ⟨⟨[], [(["a.jar"], .file archive 0o600)]⟩, 0, fun n => if n = 12 then some ⟨0⟩ else none⟩
    (World.after (run compile config) failing).2.files.nodes =
      [(["a_2022.10.21_09.05.03.orig.jar"], .file archive 0o600),
        (["a.jar"], .file archive 0o600)] := by
  decide +kernel

end Defuse
