import Mathlib.Logic.Function.Basic
import Switchboard.Proofs.Registry.CacheMirror

/-!
# A cache that many threads change and write

A cache that writes its file after a delay is changed by some threads and written by others. Who
changes it counts the change and, unless a write is due already, begins a task that writes the file
later; others write it on demand. One thread at a time writes: it compares the number of changes
with the number that the file holds, takes the entries as they are then, replaces the file, and
notes the number that it compared. A scene is the cache and the disk among these threads; an act is
one atomic step of one thread, and a run is a list of acts, the steps of all threads in any order.
-/

namespace Switchboard.Saving

open Cache (Change)

/-- Names a thread. -/
abbrev ThreadId := Nat

/-- How far a thread has come. -/
inductive Stage where
  /-- The thread does nothing to the cache. -/
  | idle
  /-- It has changed the entries and has yet to count that. -/
  | changed
  /-- It has counted the change and has yet to see whether a write is due. -/
  | counted
  /-- No write was due: it begins the task that writes. -/
  | beginning
  /-- A task that waits for its time. -/
  | due
  /-- It waits until it may write. -/
  | waiting
  /-- Nobody else may write. -/
  | admitted
  /-- It knows the number of changes made. -/
  | comparing (version : UInt64)
  /-- That is not the number that the file holds. -/
  | behind (version : UInt64)
  /-- It has the bytes to write. -/
  | replacing (version : UInt64) (content : Bytes)
  /-- The file is replaced. -/
  | replaced (version : UInt64)
  /-- It knows how the write went and has yet to let others write. -/
  | finished (outcome : Outcome Unit)
deriving DecidableEq

namespace Stage

/-- Whether the thread keeps others from writing. -/
def isWriting : Stage → Bool
  | admitted | comparing _ | behind _ | replacing .. | replaced _ | finished _ => true
  | _ => false

/-- Whether the thread is a task that clears the flag, or about to begin one. -/
def isFlagged : Stage → Bool
  | beginning | due => true
  | _ => false

/-- Whether a write comes after this stage that has yet to wait for its turn. -/
def isAhead : Stage → Bool
  | counted | beginning | due | waiting => true
  | _ => false

end Stage

/-- One step of one thread. -/
inductive Act where
  /-- A thread changes the entries; it goes on only if it reports a change. -/
  | alter (thread : ThreadId) (change : Change)
  /-- It counts the change. -/
  | count (thread : ThreadId)
  /-- It sets the flag that a write is due, and goes on if it was not set. -/
  | flag (thread : ThreadId)
  /-- It begins a task on another thread. -/
  | begin (thread task : ThreadId)
  /-- The time of a task has come: it clears the flag. -/
  | clear (task : ThreadId)
  /-- A thread writes the cache on demand. -/
  | flush (thread : ThreadId)
  /-- A thread begins to write once nobody else does. -/
  | enter (thread : ThreadId)
  /-- It reads the number of changes made. -/
  | read (thread : ThreadId)
  /-- It compares that with the number that the file holds. -/
  | compare (thread : ThreadId)
  /-- It takes the entries as they are. -/
  | collect (thread : ThreadId) (stamp : String)
  /-- It replaces the file. -/
  | replace (thread : ThreadId)
  /-- The file cannot be replaced, for whatever reason; the disk may have changed otherwise. -/
  | fail (thread : ThreadId) (failure : Failure) (disk : Disk)
  /-- It notes the number of changes that the file holds. -/
  | note (thread : ThreadId)
  /-- It lets others write. -/
  | leave (thread : ThreadId)
  /-- Others change the disk. -/
  | disturb (disk : Disk)

/-- The threads that an act may move. -/
def Act.threads : Act → List ThreadId
  | .alter c _ | .count c | .flag c | .clear c | .flush c | .enter c | .read c | .compare c
  | .collect c _ | .replace c | .fail c _ _ | .note c | .leave c => [c]
  | .begin c task => [c, task]
  | .disturb _ => []

/-- The steps of a write in their order. -/
def Act.whole (thread : ThreadId) (stamp : String) : List Act :=
  [.flush thread, .enter thread, .read thread, .compare thread, .collect thread stamp,
    .replace thread, .note thread, .leave thread]

/-- Whether an act counts a change. -/
def Act.isCount : Act → Bool
  | .count _ => true
  | _ => false

/-- Whether the texts of an act keep their lines and words apart. -/
def Act.Legible : Act → Prop
  | .alter _ change => change.Legible
  | .collect _ stamp => '\n' ∉ stamp.toList
  | _ => True

/-- A cache and its disk among threads. -/
structure Scene where
  /-- The cache. -/
  cache : Cache
  /-- The disk. -/
  disk : Disk
  /-- Who keeps others from writing. -/
  writer : Option ThreadId := none
  /-- How far every thread has come. -/
  stage : ThreadId → Stage := fun _ => .idle
  /-- Whether a write failed and none has come to its end since. -/
  failed : Bool := false

namespace Scene

/-- A thread comes to another stage. -/
def move (s : Scene) (c : ThreadId) (stage : Stage) : Scene :=
  { s with stage := Function.update s.stage c stage }

/-- Whether others may have changed the disk into this one: the file is as it was. -/
def Spares (s : Scene) (disk : Disk) : Prop :=
  Disk.read disk s.cache.folder s.cache.file = Disk.read s.disk s.cache.folder s.cache.file

/-- Whether the file is as it was can be seen on the disks. -/
instance (s : Scene) (disk : Disk) : Decidable (s.Spares disk) :=
  inferInstanceAs (Decidable (_ = _))

/-- The scene after one act. A thread that has not come to its act yet leaves all as it is, and
nobody else changes the file. -/
def after (s : Scene) : Act → Scene
  | .alter c change =>
    match s.stage c with
    | .idle =>
      let (reported, entries) := change.outcome s.cache.entries
      { s.move c (if reported then .changed else .idle) with
        cache := { s.cache with entries } }
    | _ => s
  | .count c =>
    match s.stage c with
    | .changed =>
      { s.move c .counted with cache := { s.cache with version := s.cache.version + 1 } }
    | _ => s
  | .flag c =>
    match s.stage c with
    | .counted =>
      { s.move c (if s.cache.flushPending then .idle else .beginning) with
        cache := { s.cache with flushPending := true } }
    | _ => s
  | .begin c task =>
    match s.stage c, s.stage task with
    | .beginning, .idle => (s.move task .due).move c .idle
    | _, _ => s
  | .clear c =>
    match s.stage c with
    | .due => { s.move c .waiting with cache := { s.cache with flushPending := false } }
    | _ => s
  | .flush c =>
    match s.stage c with
    | .idle => s.move c .waiting
    | _ => s
  | .enter c =>
    match s.stage c with
    | .waiting => if s.writer = none then { s.move c .admitted with writer := some c } else s
    | _ => s
  | .read c =>
    match s.stage c with
    | .admitted => s.move c (.comparing s.cache.version)
    | _ => s
  | .compare c =>
    match s.stage c with
    | .comparing v => s.move c (if v = s.cache.written then .finished (.ok ()) else .behind v)
    | _ => s
  | .collect c stamp =>
    match s.stage c with
    | .behind v => s.move c (.replacing v (Text.Utf8.encode (s.cache.entries.render stamp).toList))
    | _ => s
  | .replace c =>
    match s.stage c with
    | .replacing v content =>
      match s.disk.replaceFile s.cache.folder s.cache.file content with
      | (.ok (), disk) => { s.move c (.replaced v) with disk }
      | (.error f, disk) => { s.move c (.finished (.error f)) with disk, failed := true }
    | _ => s
  | .fail c f disk =>
    match s.stage c with
    | .replacing .. =>
      if s.Spares disk then { s.move c (.finished (.error f)) with disk, failed := true } else s
    | _ => s
  | .note c =>
    match s.stage c with
    | .replaced v =>
      { s.move c (.finished (.ok ())) with
        cache := { s.cache with written := v }
        failed := false }
    | _ => s
  | .leave c =>
    match s.stage c with
    | .finished _ => { s.move c .idle with writer := none }
    | _ => s
  | .disturb disk => if s.Spares disk then { s with disk } else s

/-- The scene after a run of acts. -/
def run (s : Scene) (acts : List Act) : Scene := acts.foldl after s

/-- The scene of a cache that was just opened and writes its file after a delay. -/
def opened (disk : Disk) (folder file : String) (flushDelay : Duration) : Scene :=
  { cache := .load disk folder file flushDelay false, disk }

/-- Whether a thread that makes a change with an act reports it just if it is one. -/
def Reports (s : Scene) : Act → Prop
  | .alter c change => s.stage c = .idle → change.Reports s.cache.entries
  | _ => True

/-- The keys that came or went unreported since the entries were last collected, as an act leaves
them, latest first. -/
def turned (s : Scene) (before : List String) : Act → List String
  | .alter c change =>
    match s.stage c with
    | .idle => (change.unreportedKey? s.cache.entries).toList ++ before
    | _ => before
  | .collect c _ =>
    match s.stage c with
    | .behind _ => []
    | _ => before
  | _ => before

/-- The keys that came or went unreported since the entries were last collected, as a run leaves
them. -/
def turns (s : Scene) (before : List String) : List Act → List String
  | [] => before
  | act :: rest => (s.after act).turns (s.turned before act) rest

/-- What a new cache would read from the file. -/
def stored (s : Scene) : CacheEntries :=
  .ofBytes (Disk.read s.disk s.cache.folder s.cache.file)

/-- Whether no thread changes or writes the cache, and no task waits to. -/
def AtRest (s : Scene) : Prop := ∀ c, s.stage c = .idle

variable {s : Scene} {c : ThreadId}

/-- A thread that an act does not move stays where it is. -/
theorem stage_after_of_notMem {act : Act} (h : c ∉ act.threads) :
    (s.after act).stage c = s.stage c := by
  have hmove : ∀ (s : Scene) (d : ThreadId) (stage : Stage), c ≠ d →
      (s.move d stage).stage c = s.stage c := fun _ _ _ hd => Function.update_of_ne hd ..
  cases act with
  | begin d task =>
    obtain ⟨hd, htask⟩ : c ≠ d ∧ c ≠ task := by simpa [Act.threads] using h
    simp only [after]
    split
    · rw [hmove _ d _ hd, hmove _ task _ htask]
    · rfl
  | disturb disk =>
    simp only [after]
    split <;> rfl
  | alter d change | count d | flag d | clear d | flush d | enter d | read d | compare d
  | collect d stamp | replace d | fail d f disk | note d | leave d =>
    have hd : c ≠ d := by simpa [Act.threads] using h
    simp only [after]
    repeat' split
    all_goals first | rfl | exact hmove _ d _ hd

/-- No key is left that came or went unreported if every change of a run was reported. -/
theorem turns_eq_nil {acts : List Act}
    (h : ∀ before act rest, acts = before ++ act :: rest → (s.run before).Reports act) :
    s.turns [] acts = [] := by
  induction acts generalizing s with
  | nil => rfl
  | cons act rest ih =>
    have hturned : s.turned [] act = [] := by
      have hact : s.Reports act := h [] act rest rfl
      cases act with
      | alter c change =>
        simp only [turned]
        split
        · next hc => rw [Cache.Change.unreportedKey?_eq_none_iff.mpr (hact hc)]; rfl
        · rfl
      | collect c stamp =>
        simp only [turned]
        split <;> rfl
      | _ => rfl
    rw [turns, hturned]
    exact ih fun before act' rest' heq => h (act :: before) act' rest' (by rw [heq]; rfl)

/-- The cache is at rest once the threads that acted are. -/
theorem atRest_run {acts : List Act} {n : ThreadId} (hrest : s.AtRest)
    (hacts : ∀ act ∈ acts, ∀ d ∈ act.threads, d < n) (h : ∀ d < n, (s.run acts).stage d = .idle) :
    (s.run acts).AtRest := by
  intro c
  by_cases hc : c < n
  · exact h c hc
  · have hstay : ∀ s : Scene, (s.run acts).stage c = s.stage c := by
      clear h hrest
      induction acts with
      | nil => exact fun _ => rfl
      | cons act rest ih =>
        intro s
        have hact : c ∉ act.threads := fun hmem => hc (hacts act List.mem_cons_self c hmem)
        exact (ih (fun a ha => hacts a (List.mem_cons_of_mem _ ha)) _).trans
          (stage_after_of_notMem hact)
    rw [hstay, hrest]

/-! ### Threads that nobody interrupts

Done without a pause, the steps of a thread are the operations of the cache. -/

/-- A change that is counted at once is a change of the cache. -/
theorem cache_run_alter (hidle : s.stage c = .idle) (change : Change) :
    (s.run [.alter c change, .count c]).cache = (change.apply s.cache).2 := by
  rw [change.apply_eq]
  cases h : (change.outcome s.cache.entries).1 <;>
    simp [run, after, move, hidle, Cache.changed, h]

/-- A write that nobody interrupts writes the cache. -/
theorem run_whole (hidle : s.stage c = .idle) (hfree : s.writer = none) (stamp : String) :
    ((s.run (Act.whole c stamp)).cache, (s.run (Act.whole c stamp)).disk) =
      (s.cache.write stamp s.disk).2 := by
  unfold Cache.write
  by_cases hv : s.cache.version = s.cache.written
  · simp [run, Act.whole, after, move, hidle, hfree, hv]
  · rw [if_neg hv]
    cases hreplace : s.disk.replaceFile s.cache.folder s.cache.file
        (Text.Utf8.encode (s.cache.entries.render stamp).toList) with
    | mk outcome disk =>
      cases outcome with
      | ok u => simp [run, Act.whole, after, move, hidle, hfree, hv, hreplace]
      | error f => simp [run, Act.whole, after, move, hidle, hfree, hv, hreplace]

end Scene

end Switchboard.Saving
