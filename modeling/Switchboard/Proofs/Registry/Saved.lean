import Switchboard.Proofs.Registry.Backlog

/-!
# The file of a cache at rest

Once all threads are at rest the file holds what the cache holds, but for keys without any address
that came or went unreported, unless a write failed; then the numbers differ until a write succeeds,
and the next one writes everything.
-/

namespace Switchboard.Saving

namespace Scene.Sound

variable {s : Scene} {turned : List String} (h : Sound s turned)

include h

/-- At rest the file holds every change that was counted, unless a write failed. -/
theorem version_eq_of_atRest (hrest : s.AtRest) (hfailed : s.failed = false) :
    s.cache.version = s.cache.written := by
  rcases h.isDue with heq | hfailed' | ⟨c, hc⟩ | ⟨c, hc⟩
  · exact heq
  · cases hfailed.symm.trans hfailed'
  · rw [hrest c] at hc
    cases hc
  · rw [hrest c] at hc
    cases hc

/-- At rest the file holds what the cache holds, but for keys that came or went unreported, unless a
write failed. -/
theorem stored_turned_of_atRest (hrest : s.AtRest) (hfailed : s.failed = false) :
    s.stored.Turned turned s.cache.entries := by
  refine (h.keeps (h.version_eq_of_atRest hrest hfailed).symm).resolve_left ?_
  rintro ⟨c, hc⟩
  cases (hrest c).symm.trans hc

end Scene.Sound

/-- A cache keeps its file. -/
theorem Scene.path_after (s : Scene) (act : Act) :
    (s.after act).cache.folder = s.cache.folder ∧ (s.after act).cache.file = s.cache.file := by
  cases act <;> simp only [Scene.after] <;> repeat' split
  all_goals exact ⟨rfl, rfl⟩

/-- A cache keeps its file over every run. -/
theorem Scene.path_run (s : Scene) (acts : List Act) :
    (s.run acts).cache.folder = s.cache.folder ∧ (s.run acts).cache.file = s.cache.file := by
  induction acts generalizing s with
  | nil => exact ⟨rfl, rfl⟩
  | cons act rest ih =>
    obtain ⟨hfolder, hfile⟩ := ih (s.after act)
    obtain ⟨hfolder', hfile'⟩ := s.path_after act
    exact ⟨hfolder.trans hfolder', hfile.trans hfile'⟩

/-- A cache that was opened and writes its file after a delay, after every run of threads that
change it, of tasks and calls that write it, and of others that leave the file as it is: if all are
at rest and no write failed since the last one that succeeded, a cache that is opened anew has the
same entries just if every key that came or went unreported since the entries were last collected
did so an even number of times; so it has them if every change of the run was reported, and in any
case it has the same texts under every key. After a write that failed the number of changes is not
the one that the file holds, and whoever comes to compare the two goes on to write all entries. The
changes are counted in 64 bits, and are fewer than come round. -/
theorem reopened_eq_iff_of_atRest (disk : Disk) (folder file : String) (flushDelay : Duration)
    (acts : List Act) (hacts : ∀ act ∈ acts, act.Legible)
    (hfits : acts.countP Act.isCount < 2 ^ 64) :
    let start := Scene.opened disk folder file flushDelay
    let s := start.run acts
    let reopened := Cache.load s.disk folder file flushDelay false
    (s.AtRest → s.failed = false →
      (reopened.entries = s.cache.entries ↔ ∀ key, (start.turns [] acts).count key % 2 = 0) ∧
        ((∀ before act rest, acts = before ++ act :: rest → (start.run before).Reports act) →
          reopened.entries = s.cache.entries) ∧
        ∀ key, reopened.entries.getD key ∅ = s.cache.entries.getD key ∅) ∧
    (s.failed = true →
      s.cache.version ≠ s.cache.written ∧
        ∀ c v stamp, s.stage c = .comparing v →
          (s.run [.compare c, .collect c stamp]).stage c =
            .replacing v (Text.Utf8.encode (s.cache.entries.render stamp).toList)) := by
  intro start s reopened
  have hzero : (0 : UInt64).toNat + acts.countP Act.isCount < 2 ^ 64 := by simpa
  have h : s.Sound (start.turns [] acts) :=
    (Scene.sound_opened disk folder file flushDelay).run hacts hzero
  have hstored : reopened.entries = s.stored := by
    obtain ⟨hfolder, hfile⟩ : s.cache.folder = folder ∧ s.cache.file = file :=
      Scene.path_run _ acts
    change CacheEntries.ofBytes _ = CacheEntries.ofBytes _
    rw [hfolder, hfile]
  refine ⟨fun hrest hfailed => ?_, fun hfailed => ⟨h.ne_of_failed hfailed, ?_⟩⟩
  · have hturned := h.stored_turned_of_atRest hrest hfailed
    rw [hstored]
    refine ⟨hturned.eq_iff, fun hreports => hturned.eq_iff.mpr fun key => ?_, hturned.getD_eq⟩
    rw [start.turns_eq_nil hreports]
    rfl
  · intro c v stamp hc
    obtain ⟨-, -, -, hlt⟩ : (Stage.comparing v).Fits s _ := hc ▸ h.fits c
    have hne : v ≠ s.cache.written := (UInt64.ne_of_lt (hlt hfailed)).symm
    simp [Scene.run, Scene.after, Scene.move, hc, hne]

/-- While a task writes a first change a second one is made, and its task writes it; a key that then
comes without any address is gone from a cache that is opened anew. In a place where no file can be
written, whoever writes on demand after a task that failed goes on to write. -/
theorem reopened_ne_of_silent_key :
    let a : Address := { protocol := some "quic", host := some "a" }
    let b : Address := { protocol := some "quic", host := some "b" }
    let task : List Act := [.alter 0 (.insert "/s" a), .count 0, .flag 0, .begin 0 1, .clear 1,
      .enter 1, .read 1, .compare 1, .collect 1 "now"]
    let next : List Act := [.alter 2 (.insert "/s" b), .count 2, .flag 2, .replace 1, .begin 2 3,
      .note 1, .leave 1, .clear 3, .enter 3, .read 3, .compare 3, .collect 3 "later", .replace 3,
      .note 3, .leave 3]
    let silent : List Act := [.alter 0 (.replace "/e" [])]
    let blocked : Disk := Std.ExtTreeMap.ofList [("cache", ({ isBlocked := true } : Folder))]
    let call : List Act := [.replace 1, .leave 1, .flush 2, .enter 2, .read 2]
    let acts := task ++ next ++ silent
    (∀ act ∈ acts, act.Legible) ∧ (∀ act ∈ task ++ call, act.Legible) ∧
      acts.countP Act.isCount < 2 ^ 64 ∧ (task ++ call).countP Act.isCount < 2 ^ 64 ∧
      ∃ s s' : Scene,
        s = (Scene.opened ∅ "cache" "registry" (.ofMillis 100)).run acts ∧
        s' = (Scene.opened blocked "cache" "registry" (.ofMillis 100)).run (task ++ call) ∧
        s.AtRest ∧ s.failed = false ∧
        (Cache.load s.disk "cache" "registry" (.ofMillis 100) false).entries ≠ s.cache.entries ∧
        (Cache.load s.disk "cache" "registry" (.ofMillis 100) false).entries.getD "/s" ∅ =
          s.cache.entries.getD "/s" ∅ ∧
        s'.failed = true ∧ s'.stage 2 = .comparing 1 ∧ s'.cache.version ≠ s'.cache.written := by
  intro a b task next silent blocked call acts
  have hword : ∀ s : List Char, s.isEmpty = false → s.any Text.isBlank = false →
      Text.IsWord s := fun s hempty hblank => ⟨by simpa using hempty, by simpa using hblank⟩
  have ha : Text.IsWord a.text.toList := hword _ (by decide +kernel) (by decide +kernel)
  have hb : Text.IsWord b.text.toList := hword _ (by decide +kernel) (by decide +kernel)
  have hacts : ∀ act ∈ acts, act.Legible := by
    simp [acts, task, next, silent, Act.Legible, Cache.Change.Legible, ha, hb]
  have hacts' : ∀ act ∈ task ++ call, act.Legible := by
    simp [task, call, Act.Legible, Cache.Change.Legible, ha]
  have hfits : acts.countP Act.isCount < 2 ^ 64 := by decide
  have hfits' : (task ++ call).countP Act.isCount < 2 ^ 64 := by decide
  have hat := reopened_eq_iff_of_atRest ∅ "cache" "registry" (.ofMillis 100) acts hacts hfits
  have hat' := reopened_eq_iff_of_atRest blocked "cache" "registry" (.ofMillis 100) (task ++ call)
    hacts' hfits'
  obtain ⟨s, hs⟩ : ∃ s, s = (Scene.opened ∅ "cache" "registry" (.ofMillis 100)).run acts :=
    ⟨_, rfl⟩
  obtain ⟨s', hs'⟩ : ∃ s', s' =
      (Scene.opened blocked "cache" "registry" (.ofMillis 100)).run (task ++ call) := ⟨_, rfl⟩
  simp only [← hs] at hat
  simp only [← hs'] at hat'
  have hrest : s.AtRest := by
    rw [hs]
    exact Scene.atRest_run (fun _ => rfl)
      (by decide : ∀ act ∈ acts, ∀ d ∈ act.threads, d < 4) (by decide +kernel)
  have hfailed : s.failed = false := by
    rw [hs]
    decide +kernel
  have hturns : (Scene.opened ∅ "cache" "registry" (.ofMillis 100)).turns [] acts = ["/e"] := by
    decide +kernel
  have hfailed' : s'.failed = true := by
    rw [hs']
    decide +kernel
  have hcomparing : s'.stage 2 = .comparing 1 := by
    rw [hs']
    decide +kernel
  obtain ⟨hiff, -, hgetD⟩ := hat.1 hrest hfailed
  have hne : (Cache.load s.disk "cache" "registry" (.ofMillis 100) false).entries ≠
      s.cache.entries := by
    intro heq
    have heven := hiff.mp heq "/e"
    rw [hturns] at heven
    cases heven
  exact ⟨hacts, hacts', hfits, hfits', s, s', hs, hs', hrest, hfailed, hne, hgetD "/s", hfailed',
    hcomparing, (hat'.2 hfailed').1⟩

end Switchboard.Saving
