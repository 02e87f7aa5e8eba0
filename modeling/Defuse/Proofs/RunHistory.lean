import Defuse.Proofs.RunSafety

namespace Defuse

open FileSystem World

/-!
# Runs, one after another

* `Request`, `Episode`, `history` — runs of one archive, each on the files that the run before
  it left;
* `RunLeaves.at?_eq_some`, `RunLeaves.resolve_eq` — a run keeps all files but the archive, and
  paths lead where they led;
* `Episode.Numbered` — which number the backup of a run has;
* `history_persists` — what a run keeps, all runs after it keep;
* `history_backups` — no backup is lost, and no two have the same path.
-/

/-! ### One run -/

/-- What a run does about its backup: the number of the backup is the least one whose name is
free, and a run that makes no backup changes nothing. -/
def Numbered (config : Configuration) (fs : FileSystem) (r : Except RunError Report)
    (gs : FileSystem) : Prop :=
  let pathAt := Backup.path config.archive config.stamp
  match r with
  | .error (.container _) => gs = fs
  | .error (.backup cause) => gs = fs ∧ BackupMissed fs config.archive config.stamp cause
  | .error (.replace ..) => ∃ n p, n < Backup.attempts ∧ FirstFree fs pathAt n p ∧
      ∃ a bytes mode, fileAt fs config.archive = .ok (a, bytes, mode) ∧
        fileAt gs (pathAt n) = .ok (p, bytes, mode)
  | .ok report => ∃ n p, n < Backup.attempts ∧ FirstFree fs pathAt n p ∧
      report.rebuild.backup.path = pathAt n

namespace RunLeaves

variable {compiler : Compiler} {config : Configuration} {fs gs : FileSystem}
  {r : Except RunError Report}

/-- Everything stays where it is, except the archive. -/
theorem at?_eq_some (h : RunLeaves compiler config fs r gs) {q : Place} {node : Node}
    (hq : fs.at? q = some node) (hother : fs.resolve config.archive ≠ some q) :
    gs.at? q = some node := by
  cases h with
  | container cause => exact hq
  | backup cause => exact hq
  | replace harchive hn hfirst cause =>
    obtain ⟨-, hfree⟩ := free?_eq_ok.mp hfirst.free
    exact at?_put_of_free hfree hq
  | @done a p bytes new mode n c harchive hcontainer hn hfirst hrebuilt =>
    obtain ⟨-, hfree⟩ := free?_eq_ok.mp hfirst.free
    obtain ⟨hresolve, -⟩ := fileAt_eq_ok.mp harchive
    have hne : q ≠ a := by
      rintro rfl
      exact hother hresolve
    have hplace : a ≠ [] := ne_nil_of_isDirectory_eq_false (isDirectory_of_fileAt harchive)
    rw [at?_put_of_ne hplace hne]
    exact at?_put_of_free hfree hq

/-- Paths lead where they led: a run makes no directory, and removes none. -/
theorem resolve_eq (h : RunLeaves compiler config fs r gs) (path : String) :
    gs.resolve path = fs.resolve path := by
  cases h with
  | container cause => rfl
  | backup cause => rfl
  | replace harchive hn hfirst cause =>
    obtain ⟨-, hfree⟩ := free?_eq_ok.mp hfirst.free
    exact resolve_put (isDirectory_of_free hfree) _ _ path
  | @done a p bytes new mode n c harchive hcontainer hn hfirst hrebuilt =>
    obtain ⟨-, hfree⟩ := free?_eq_ok.mp hfirst.free
    have hthere := fileAt_put_of_free harchive hfree bytes mode
    rw [resolve_put (isDirectory_of_fileAt hthere), resolve_put (isDirectory_of_free hfree)]

/-- A path to another file than the archive leads to that file still. -/
theorem fileAt_eq (h : RunLeaves compiler config fs r gs) {path : String} {p : Place}
    {bytes : Bytes} {mode : Nat} (hfile : fileAt fs path = .ok (p, bytes, mode))
    (hother : fs.resolve config.archive ≠ some p) : fileAt gs path = .ok (p, bytes, mode) := by
  obtain ⟨hresolve, hnode⟩ := fileAt_eq_ok.mp hfile
  rw [fileAt_eq_ok, h.resolve_eq]
  exact ⟨hresolve, h.at?_eq_some hnode hother⟩

/-- The backup of a run that succeeds is a file with the bytes of the archive, and it is not
the archive. -/
theorem backup_of_ok {report : Report} (h : RunLeaves compiler config fs (.ok report) gs) :
    ∃ a p bytes mode, fileAt fs config.archive = .ok (a, bytes, mode) ∧
      fs.free? report.rebuild.backup.path = .ok p ∧ a ≠ p ∧
      fileAt gs report.rebuild.backup.path = .ok (p, bytes, mode) := by
  cases h with
  | @done a p bytes new mode n c harchive hcontainer hn hfirst hrebuilt =>
    obtain ⟨-, hfree⟩ := free?_eq_ok.mp hfirst.free
    have hbackup := backedUp_put_put harchive hn hfirst new
    obtain ⟨a', bytes', mode', harchive', hcopied⟩ := hbackup.copied
    rw [harchive] at harchive'
    cases harchive'
    exact ⟨a, p, bytes, mode, harchive, hfirst.free, ne_of_fileAt harchive hfree, hcopied⟩

/-- Which number the backup of a run has: the least one whose name is free.  A run without a
backup changes nothing. -/
theorem numbered (h : RunLeaves compiler config fs r gs) : Numbered config fs r gs := by
  cases h with
  | container cause => exact rfl
  | backup cause missed => exact ⟨rfl, missed⟩
  | replace harchive hn hfirst cause =>
    exact ⟨_, _, hn, hfirst, _, _, _, harchive, fileAt_put_self hfirst.free _ _⟩
  | done harchive hcontainer hn hfirst hrebuilt => exact ⟨_, _, hn, hfirst, rfl⟩

/-- Without a free name, a run that comes as far as its backup fails there. -/
theorem of_noneFree (h : RunLeaves compiler config fs r gs)
    (htaken : ∀ n < Backup.attempts,
      fs.free? (Backup.path config.archive config.stamp n) = .error .taken) :
    gs = fs ∧ ((∃ cause, r = .error (.container cause)) ∨ ∃ cause, r = .error (.backup cause)) := by
  have hno (n : Nat) (p : Place) (hn : n < Backup.attempts)
      (hfirst : FirstFree fs (Backup.path config.archive config.stamp) n p) : False := by
    have hfree := hfirst.free
    rw [htaken n hn] at hfree
    cases hfree
  cases h with
  | container cause => exact ⟨rfl, .inl ⟨cause, rfl⟩⟩
  | backup cause missed => exact ⟨rfl, .inr ⟨cause, rfl⟩⟩
  | replace harchive hn hfirst cause => exact (hno _ _ hn hfirst).elim
  | done harchive hcontainer hn hfirst hrebuilt => exact (hno _ _ hn hfirst).elim

end RunLeaves

/-! ### Histories -/

/-- What is asked of a run, whatever the archive. -/
structure Request where
  compiler : Compiler
  mode : Mode
  parallel : Bool
  stagingDirectory : Option String
  stamp : Stamp

/-- What a run of an archive needs to know. -/
def Request.configuration (q : Request) (archive : String) : Configuration :=
  ⟨archive, q.mode, q.parallel, q.stagingDirectory, q.stamp⟩

/-- A run, with the worlds before and after it. -/
structure Episode where
  request : Request
  before : World
  result : Except RunError Report
  after : World

/-- A run of an archive in a world. -/
def Request.episode (q : Request) (archive : String) (w : World) : Episode :=
  let ran := World.after (run q.compiler (q.configuration archive)) w
  ⟨q, w, ran.1, ran.2⟩

/-- Runs of an archive, each in the world that the one before it left. -/
def history (archive : String) : List Request → World → List Episode
  | [], _ => []
  | q :: qs, w => q.episode archive w :: history archive qs (q.episode archive w).after

/-- The world that the last one leaves. -/
def aftermath (archive : String) : List Request → World → World
  | [], w => w
  | q :: qs, w => aftermath archive qs (q.episode archive w).after

/-- The path of the backup, if the run succeeded. -/
def Episode.backupPath? (e : Episode) : Option String :=
  match e.result with
  | .ok report => some report.rebuild.backup.path
  | .error _ => none

/-- A backup was made exactly by a run that ended well. -/
theorem Episode.backupPath?_eq_some {e : Episode} {path : String} :
    e.backupPath? = some path ↔
      ∃ report, e.result = .ok report ∧ report.rebuild.backup.path = path := by
  unfold backupPath?
  cases e.result with
  | ok report => simp
  | error cause => simp

/-! ### One run of a history -/

/-- The run of an episode leaves what a run can leave. -/
def Episode.Leaves (archive : String) (e : Episode) : Prop :=
  RunLeaves e.request.compiler (e.request.configuration archive) e.before.files e.result
    e.after.files

/-- A run leaves the files as `RunLeaves` says. -/
theorem Request.leaves (q : Request) (archive : String) (w : World) :
    (q.episode archive w).Leaves archive :=
  (Ensures.run q.compiler (q.configuration archive) w.files).holds w rfl

variable {archive : String}

/-- Each of the runs leaves the files so, from the world in which it starts. -/
theorem history_leaves {requests : List Request} {w : World} {e : Episode}
    (he : e ∈ history archive requests w) : e.Leaves archive := by
  induction requests generalizing w with
  | nil => simp [history] at he
  | cons q qs ih =>
    rcases List.mem_cons.mp he with rfl | he
    · exact q.leaves archive w
    · exact ih he

/-- The backup of an episode whose run succeeds. -/
theorem Episode.Leaves.backup {e : Episode} (h : e.Leaves archive) {path : String}
    (hpath : e.backupPath? = some path) :
    ∃ a p bytes mode, fileAt e.before.files archive = .ok (a, bytes, mode) ∧
      e.before.files.free? path = .ok p ∧ fileAt e.after.files path = .ok (p, bytes, mode) ∧
      e.after.files.resolve archive ≠ some p := by
  obtain ⟨report, hresult, rfl⟩ := Episode.backupPath?_eq_some.mp hpath
  unfold Leaves at h
  rw [hresult] at h
  obtain ⟨a, p, bytes, mode, harchive, hfree, hne, hbackup⟩ := h.backup_of_ok
  refine ⟨a, p, bytes, mode, harchive, hfree, hbackup, ?_⟩
  -- the archive is where it was
  have hplace : e.before.files.resolve archive = some a := (fileAt_eq_ok.mp harchive).1
  rw [h.resolve_eq, hplace]
  intro heq
  exact hne (Option.some.inj heq)

/-! ### All runs of a history -/

/-- **What is kept.** A file that is not the archive stays what it is, before every run of a
history, and behind the last one. -/
theorem history_persists {path : String} {p : Place} {bytes : Bytes} {mode : Nat}
    (requests : List Request) {w : World} (hfile : fileAt w.files path = .ok (p, bytes, mode))
    (hother : w.files.resolve archive ≠ some p) :
    (∀ e ∈ history archive requests w, fileAt e.before.files path = .ok (p, bytes, mode)) ∧
      fileAt (aftermath archive requests w).files path = .ok (p, bytes, mode) := by
  induction requests generalizing w with
  | nil => exact ⟨by simp [history], hfile⟩
  | cons q qs ih =>
    have hleaves := q.leaves archive w
    have hafter := hleaves.fileAt_eq hfile hother
    -- the archive stays where it is, so no later run comes to the file either
    have hresolve : (q.episode archive w).after.files.resolve archive =
        w.files.resolve archive := hleaves.resolve_eq archive
    rw [← hresolve] at hother
    obtain ⟨hlater, hlast⟩ := ih hafter hother
    refine ⟨?_, hlast⟩
    intro e he
    rcases List.mem_cons.mp he with rfl | he
    · exact hfile
    · exact hlater e he

/-- The backup of a run that succeeds holds the bytes of the archive, behind the run and behind
all runs after it. -/
theorem history_backup {requests : List Request} {w : World} {e : Episode} {path : String}
    (he : e ∈ history archive requests w) (hpath : e.backupPath? = some path) :
    ∃ a p bytes mode, fileAt e.before.files archive = .ok (a, bytes, mode) ∧
      fileAt e.after.files path = .ok (p, bytes, mode) ∧
      fileAt (aftermath archive requests w).files path = .ok (p, bytes, mode) := by
  induction requests generalizing w with
  | nil => simp [history] at he
  | cons q qs ih =>
    rcases List.mem_cons.mp he with rfl | he
    · obtain ⟨a, p, bytes, mode, harchive, -, hbackup, hother⟩ := (q.leaves archive w).backup hpath
      obtain ⟨-, hlast⟩ := history_persists qs hbackup hother
      exact ⟨a, p, bytes, mode, harchive, hbackup, hlast⟩
    · exact ih he

/-- No two runs that succeed have backups of the same path. -/
theorem history_nodup (requests : List Request) (w : World) :
    ((history archive requests w).filterMap Episode.backupPath?).Nodup := by
  induction requests generalizing w with
  | nil => exact List.nodup_nil
  | cons q qs ih =>
    have htail := ih (q.episode archive w).after
    rw [history]
    cases hpath : (q.episode archive w).backupPath? with
    | none =>
      rw [List.filterMap_cons_none hpath]
      exact htail
    | some path =>
      rw [List.filterMap_cons_some hpath, List.nodup_cons]
      refine ⟨?_, htail⟩
      rw [List.mem_filterMap]
      rintro ⟨e, he, hsame⟩
      -- the file of the first run is there when the later one creates its own
      obtain ⟨a, p, bytes, mode, -, -, hbackup, hother⟩ := (q.leaves archive w).backup hpath
      obtain ⟨hlater, -⟩ := history_persists qs hbackup hother
      obtain ⟨-, p', -, -, -, hfree, -⟩ := (history_leaves he).backup hsame
      obtain ⟨hresolve, hnone⟩ := free?_eq_ok.mp hfree
      have hne := ne_of_fileAt (hlater e he) hnone
      obtain ⟨hresolve', -⟩ := fileAt_eq_ok.mp (hlater e he)
      rw [hresolve] at hresolve'
      exact hne (Option.some.inj hresolve').symm

/-- **Backups are never lost.** Whatever runs of an archive come one after another, and
whichever steps of the disk fail: every run keeps all files but the archive; the backup of a
run that succeeds holds the bytes that the archive had before it, and keeps them to the end; no
two of these backups have the same path; the number of a backup is the least one whose name is
free; and without a free name, a run that comes as far as its backup fails there and changes
nothing. -/
theorem history_backups (archive : String) (requests : List Request) (w : World) :
    (∀ e ∈ history archive requests w,
      let config := e.request.configuration archive
      (∀ p node, e.before.files.at? p = some node →
        e.before.files.resolve archive ≠ some p → e.after.files.at? p = some node) ∧
      (∀ report, e.result = .ok report → ∃ a p bytes mode,
        fileAt e.before.files archive = .ok (a, bytes, mode) ∧
        fileAt e.after.files report.rebuild.backup.path = .ok (p, bytes, mode) ∧
        fileAt (aftermath archive requests w).files report.rebuild.backup.path =
          .ok (p, bytes, mode)) ∧
      Numbered config e.before.files e.result e.after.files ∧
      ((∀ n < Backup.attempts,
        e.before.files.free? (Backup.path archive config.stamp n) = .error .taken) →
        e.after.files = e.before.files ∧ ((∃ cause, e.result = .error (.container cause)) ∨
          ∃ cause, e.result = .error (.backup cause)))) ∧
    ((history archive requests w).filterMap Episode.backupPath?).Nodup := by
  refine ⟨?_, history_nodup requests w⟩
  intro e he config
  have hleaves := history_leaves he
  refine ⟨?_, ?_, hleaves.numbered, hleaves.of_noneFree⟩
  · intro p node hnode hother
    exact hleaves.at?_eq_some hnode hother
  · intro report hresult
    exact history_backup he (Episode.backupPath?_eq_some.mpr ⟨report, hresult, rfl⟩)

/-- Two runs with the same stamp: the second one takes the next number. -/
example :
    let archive : Bytes := [0x50, 0x4B, 0x05, 0x06] ++ List.replicate 18 0
    let request : Request := ⟨compile, .scriptOnly, true, none, ⟨2022, 10, 21, 9, 5, 3⟩⟩
    let world := World.reliable ⟨[], [(["a.jar"], .file archive 0o600)]⟩
    (history "/a.jar" [request, request] world).filterMap Episode.backupPath? =
      ["/a_2022.10.21_09.05.03.orig.jar", "/a_2022.10.21_09.05.03_1.orig.jar"] := by
  decide +kernel

end Defuse
