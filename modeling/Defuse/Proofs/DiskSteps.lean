import Defuse.Proofs.FileTable

namespace Defuse

open FileSystem World

/-!
# What the steps of a disk leave

Computations on a world, whichever of their steps fail.

* `Ensures fs c Q` — on the files `fs`, what `c` comes to and the files that it leaves are as
  `Q` says;
* `Ensures.bind`, `Ensures.disk_bind` — one computation after another;
* `Ensures.read`, `Ensures.create`, … — one lemma for each step of a disk.  A step on a file
  that has come to a free place leaves all other places alone, and removing the file leaves
  nothing of it;
* `Ensures.createFree` — the first free name of a row.
-/

/-- What a computation comes to, and the world that it leaves. -/
def World.after {α : Type} (c : StateM World α) (w : World) : α × World := c.run w

namespace World

variable {α β : Type}

theorem after_pure (a : α) (w : World) : after (pure a) w = (a, w) := rfl

/-- One computation after the other: the second one runs in the world that the first one left. -/
theorem after_bind (c : StateM World α) (f : α → StateM World β) (w : World) :
    after (c >>= f) w = after (f (after c w).1) (after c w).2 :=
  rfl

theorem after_get (w : World) : after get w = (w, w) := rfl

theorem after_apply (c : World → α × World) (w : World) : after c w = c w := rfl

/-- A step is counted, and fails as the world has planned. -/
theorem after_step (w : World) :
    after step w = (w.faults w.steps, { w with steps := w.steps + 1 }) :=
  rfl

end World

/-- On some files, and whichever steps fail, what a computation comes to and the files that it
leaves are related. -/
structure Ensures {α : Type} (fs : FileSystem) (c : StateM World α)
    (Q : α → FileSystem → Prop) : Prop where
  holds : ∀ w : World, w.files = fs → Q (World.after c w).1 (World.after c w).2.files

namespace Ensures

variable {α β ε : Type} {fs : FileSystem}

/-! ### One computation after another -/

/-- A computation that only returns leaves the files as they are. -/
theorem pure {a : α} {Q : α → FileSystem → Prop} (h : Q a fs) : Ensures fs (pure a) Q := by
  constructor
  intro w hw
  subst hw
  exact h

/-- What one computation ensures, the next one starts from. -/
theorem bind {c : StateM World α} {f : α → StateM World β} {P : α → FileSystem → Prop}
    {Q : β → FileSystem → Prop} (hc : Ensures fs c P)
    (hf : ∀ a gs, P a gs → Ensures gs (f a) Q) : Ensures fs (c >>= f) Q := by
  constructor
  intro w hw
  exact (hf _ _ (hc.holds w hw)).holds (World.after c w).2 rfl

/-- A step that can end what comes behind it. -/
theorem disk_bind {act : StateM World (Except DiskError α)} {wrap : DiskError → ε}
    {f : α → ExceptT ε (StateM World) β} {P : Except DiskError α → FileSystem → Prop}
    {Q : Except ε β → FileSystem → Prop} (hact : Ensures fs act P)
    (herror : ∀ e gs, P (.error e) gs → Q (.error (wrap e)) gs)
    (hok : ∀ a gs, P (.ok a) gs → Ensures gs (f a).run Q) :
    Ensures fs (ExceptT.adapt wrap (ExceptT.mk act) >>= f).run Q := by
  constructor
  intro w hw
  have hstep := hact.holds w hw
  have hafter : World.after (ExceptT.adapt wrap (ExceptT.mk act) >>= f).run w =
      World.after (ExceptT.bindCont f ((World.after act w).1.mapError wrap))
        (World.after act w).2 := rfl
  -- what the step came to decides whether the rest runs
  rw [hafter]
  cases hresult : (World.after act w).1 with
  | error e =>
    rw [hresult] at hstep
    exact herror e _ hstep
  | ok a =>
    rw [hresult] at hstep
    exact (hok a _ hstep).holds _ rfl

/-- A step that comes last. -/
theorem disk {act : StateM World (Except DiskError α)} {wrap : DiskError → ε}
    {P : Except DiskError α → FileSystem → Prop} {Q : Except ε α → FileSystem → Prop}
    (hact : Ensures fs act P) (h : ∀ r gs, P r gs → Q (r.mapError wrap) gs) :
    Ensures fs (ExceptT.adapt wrap (ExceptT.mk act)).run Q := by
  constructor
  intro w hw
  exact h _ _ (hact.holds w hw)

/-! ### Steps -/

/-- Looking whether a path is a file changes nothing. -/
theorem isFile (path : String) : Ensures fs (Disk.isFile path) fun _ gs => gs = fs := by
  constructor
  intro w hw
  exact hw

/-- Reading a file changes nothing, and gives the bytes that stand there. -/
theorem read (path : String) : Ensures fs (Disk.read path) fun r gs =>
    gs = fs ∧ ∀ bytes, r = .ok bytes → ∃ p mode, fileAt fs path = .ok (p, bytes, mode) := by
  constructor
  intro w hw
  subst hw
  dsimp only [Disk.read]
  rw [after_bind, after_step, after_bind, after_get, after_pure]
  refine ⟨rfl, ?_⟩
  intro bytes hbytes
  dsimp only at hbytes
  -- the step fails, or the file is looked up in the files as they are
  cases hfault : w.faults w.steps with
  | some fault =>
    rw [hfault] at hbytes
    cases hbytes
  | none =>
    rw [hfault] at hbytes
    rcases hfile : fileAt w.files path with e | ⟨p, found, mode⟩
    · rw [hfile] at hbytes
      cases hbytes
    · rw [hfile] at hbytes
      cases hbytes
      exact ⟨p, mode, rfl⟩

/-- A change that fails, or is refused, changes nothing. -/
theorem attempt {act : FileSystem → Except DiskError FileSystem}
    {Q : Except DiskError Unit → FileSystem → Prop}
    (hfault : ∀ reason, Q (.error (.refused reason)) fs)
    (hrefused : ∀ e, act fs = .error e → Q (.error e) fs)
    (hdone : ∀ gs, act fs = .ok gs → Q (.ok ()) gs) : Ensures fs (World.attempt act) Q := by
  constructor
  intro w hw
  subst hw
  rw [World.attempt, after_bind, after_step]
  dsimp only
  cases w.faults w.steps with
  | some fault => exact hfault _
  | none =>
    rw [after_apply]
    dsimp only
    cases hact : act w.files with
    | error e => exact hrefused e hact
    | ok files => exact hdone files hact

/-- Writing through to the disk changes no files. -/
theorem sync (path : String) : Ensures fs (Disk.sync path) fun _ gs => gs = fs := by
  apply attempt
  · intro reason
    rfl
  · intro e he
    rfl
  · intro gs hgs
    cases hfile : fileAt fs path with
    | error e =>
      rw [hfile] at hgs
      cases hgs
    | ok file =>
      rw [hfile] at hgs
      cases hgs
      rfl

/-- Only a free place gets a new file, and only a taken name is called so. -/
theorem create (path : String) : Ensures fs (Disk.create path) fun r gs =>
    -- one case for the refusal by the disk, one for each answer of the files
    match r with
    | .ok () => ∃ p, fs.free? path = .ok p ∧ gs = fs.put p (.file [] fileMode)
    | .error .taken => gs = fs ∧ fs.free? path = .error .taken
    | .error (.refused _) => gs = fs := by
  apply attempt
  · intro reason
    rfl
  · intro e he
    cases hfree : fs.free? path with
    | ok p =>
      rw [hfree] at he
      cases he
    | error e' =>
      rw [hfree] at he
      cases he
      cases e with
      | taken => exact ⟨rfl, rfl⟩
      | refused reason => rfl
  · intro gs hgs
    cases hfree : fs.free? path with
    | error e =>
      rw [hfree] at hgs
      cases hgs
    | ok p =>
      rw [hfree] at hgs
      cases hgs
      exact ⟨p, rfl, rfl⟩

/-! ### Steps on a file that has come to a free place -/

section

variable {path source target : String} {p a : Place} {bytes found : Bytes} {mode kept : Nat}

/-- A write that fails leaves some bytes. -/
theorem write (hfree : fs.free? path = .ok p) (new : Bytes) :
    Ensures (fs.put p (.file bytes mode)) (Disk.write path new) fun r gs =>
      ∃ landed, gs = fs.put p (.file landed mode) ∧ (r = .ok () → landed = new) := by
  constructor
  intro w hw
  have hfile : fileAt w.files path = .ok (p, bytes, mode) := by
    rw [hw]
    exact fileAt_put_self hfree bytes mode
  dsimp only [Disk.write]
  rw [after_bind, after_step, after_apply]
  dsimp only
  rw [hfile, hw]
  cases w.faults w.steps with
  | some fault => exact ⟨_, put_put _, by simp⟩
  | none => exact ⟨new, put_put _, fun _ => rfl⟩

/-- The permissions come from a file that was there before. -/
theorem copyMode (hfree : fs.free? path = .ok p)
    (hsource : fileAt fs source = .ok (a, found, kept)) :
    Ensures (fs.put p (.file bytes mode)) (Disk.copyMode source path) fun r gs =>
      ∃ mode', gs = fs.put p (.file bytes mode') ∧ (r = .ok () → mode' = kept) := by
  obtain ⟨-, hnone⟩ := free?_eq_ok.mp hfree
  apply attempt
  · intro reason
    exact ⟨mode, rfl, by simp⟩
  · intro e he
    exact ⟨mode, rfl, by simp⟩
  · intro gs hgs
    rw [fileAt_put_of_free hsource hnone, fileAt_put_self hfree] at hgs
    cases hgs
    exact ⟨kept, put_put _, fun _ => rfl⟩

/-- Nothing is left of the file. -/
theorem remove (hfree : fs.free? path = .ok p) :
    Ensures (fs.put p (.file bytes mode)) (Disk.remove path) fun _ gs => gs = fs := by
  constructor
  intro w hw
  obtain ⟨-, hnone⟩ := free?_eq_ok.mp hfree
  have hfile : fileAt w.files path = .ok (p, bytes, mode) := by
    rw [hw]
    exact fileAt_put_self hfree bytes mode
  dsimp only [Disk.remove]
  rw [after_apply, hfile, hw]
  exact clear_put_of_free hnone

/-- The file takes the place of one that was there before. -/
theorem rename (hfree : fs.free? path = .ok p)
    (htarget : fileAt fs target = .ok (a, found, kept)) :
    Ensures (fs.put p (.file bytes mode)) (Disk.rename path target) fun r gs =>
      match r with
      | .ok () => gs = fs.put a (.file bytes mode)
      | .error _ => gs = fs.put p (.file bytes mode) := by
  obtain ⟨-, hnone⟩ := free?_eq_ok.mp hfree
  obtain ⟨hresolve, -⟩ := fileAt_eq_ok.mp htarget
  have hnowhere : fs.isDirectory p = false := isDirectory_of_free hnone
  apply attempt
  · intro reason
    rfl
  · intro e he
    rfl
  · intro gs hgs
    -- the new file leads no path elsewhere, so the target is where it was
    rw [fileAt_put_self hfree, resolve_put hnowhere, hresolve] at hgs
    have hdirectory : (fs.put p (.file bytes mode)).isDirectory a = false := by
      rw [isDirectory_put hnowhere]
      exact isDirectory_of_fileAt htarget
    have hrenamed : (if (fs.put p (.file bytes mode)).isDirectory a = true then
        .error (.refused "Is a directory")
      else .ok (((fs.put p (.file bytes mode)).clear p).put a (.file bytes mode)) :
        Except DiskError FileSystem) = .ok gs := hgs
    rw [hdirectory, clear_put_of_free hnone] at hrenamed
    cases hrenamed
    rfl

end

end Ensures

/-! ### Free names -/

/-- A path of a row leads to a free place, and the names of those before it are taken. -/
structure FirstFree (fs : FileSystem) (pathAt : Nat → String) (n : Nat) (p : Place) : Prop where
  taken : ∀ k < n, fs.free? (pathAt k) = .error .taken
  free : fs.free? (pathAt n) = .ok p

/-- The disk refuses to create a file at a path of a row, in other words than that the name is
taken; the names of those before it are taken. -/
inductive Refused (fs : FileSystem) (pathAt : Nat → String) (attempts : Nat) :
    String → DiskError → Prop
  | mk {n : Nat} (limit : n < attempts) (taken : ∀ k < n, fs.free? (pathAt k) = .error .taken)
      (reason : String) : Refused fs pathAt attempts (pathAt n) (.refused reason)

namespace Ensures

variable {fs : FileSystem} {pathAt : Nat → String}

/-- The names before a number are taken; those from it on are tried. -/
theorem createFreeFrom (attempts : Nat) {n : Nat}
    (htaken : ∀ k < n, fs.free? (pathAt k) = .error .taken) :
    Ensures fs (Defuse.createFreeFrom pathAt attempts n) fun r gs =>
      match r with
      | .created path => ∃ k p, k < n + attempts ∧ path = pathAt k ∧ FirstFree fs pathAt k p ∧
          gs = fs.put p (.file [] fileMode)
      | .noneFree => gs = fs ∧ ∀ k < n + attempts, fs.free? (pathAt k) = .error .taken
      | .failed path cause => gs = fs ∧ Refused fs pathAt (n + attempts) path cause := by
  -- on the names that are left, with those before them taken
  induction attempts generalizing n with
  | zero => exact Ensures.pure ⟨rfl, htaken⟩
  | succ attempts ih =>
    refine Ensures.bind (Ensures.create (pathAt n)) ?_
    rintro ((_ | reason) | ⟨⟨⟩⟩) gs hr
    · obtain ⟨rfl, hlast⟩ := hr
      have hnext : ∀ k < n + 1, gs.free? (pathAt k) = .error .taken := by
        intro k hk
        by_cases hkn : k = n
        · rw [hkn]
          exact hlast
        · exact htaken k (by omega)
      have hlimit : n + (attempts + 1) = n + 1 + attempts := by omega
      rw [hlimit]
      exact ih hnext
    · have hlimit : n < n + (attempts + 1) := by omega
      exact Ensures.pure ⟨hr, .mk hlimit htaken reason⟩
    · obtain ⟨p, hfree, hgs⟩ := hr
      exact Ensures.pure ⟨n, p, by omega, rfl, ⟨htaken, hfree⟩, hgs⟩

/-- The first free name of a row gets an empty file; without one, nothing changes. -/
theorem createFree (pathAt : Nat → String) (attempts : Nat) :
    Ensures fs (Defuse.createFree pathAt attempts) fun r gs =>
      match r with
      | .created path => ∃ n p, n < attempts ∧ path = pathAt n ∧ FirstFree fs pathAt n p ∧
          gs = fs.put p (.file [] fileMode)
      | .noneFree => gs = fs ∧ ∀ k < attempts, fs.free? (pathAt k) = .error .taken
      | .failed path cause => gs = fs ∧ Refused fs pathAt attempts path cause := by
  have hnone : ∀ k < 0, fs.free? (pathAt k) = .error .taken := by
    intro k hk
    omega
  have hfrom := createFreeFrom attempts hnone
  simp only [Nat.zero_add] at hfrom
  exact hfrom

end Ensures

end Defuse
