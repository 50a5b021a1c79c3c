import Switchboard.Proofs.Registry.CacheChanges

/-!
# Caches beside their files

A mirror is a cache with the disk that its file is on. It remembers what was reported and which
keys came or went unreported since the file was last written. The file stands for the entries of
the cache except for keys without any address.
-/

namespace Switchboard

/-! ### Replacing a file -/

private theorem lockName_ne (name : String) : Folder.lockName name ≠ name := by
  intro h
  have hlength := congrArg String.length h
  simp [Folder.lockName, String.length_append] at hlength

private theorem getElem?_lock (f : Folder) (name : String) :
    (f.files.insertIfNew (Folder.lockName name) [])[name]? = f.files[name]? := by
  rw [Std.ExtTreeMap.getElem?_insertIfNew, if_neg]
  rintro ⟨hname, -⟩
  exact lockName_ne name (Std.LawfulEqCmp.compare_eq_iff_eq.mp hname)

/-- A file that was replaced holds the new content, and one that was not holds what it held. -/
theorem Disk.read_replaceFile (d : Disk) (folder name : String) (content : Bytes) :
    Disk.read (d.replaceFile folder name content).2 folder name =
      match (d.replaceFile folder name content).1 with
      | .ok () => some content
      | .error _ => Disk.read d folder name := by
  simp only [Disk.replaceFile, Folder.replaceFile, Disk.read]
  generalize hf : Disk.folder d folder = f
  have hfolder : ∀ f' : Folder, Disk.folder (d.insert folder f') folder = f' := by
    intro f'
    simp [Disk.folder]
  split
  · simp only [hfolder]
  · next hfree =>
    have hblocked : f.isBlocked = false := by
      simp only [not_or] at hfree
      simpa using hfree.1
    split
    · simp only [hfolder, hblocked, Bool.false_eq_true, if_false, getElem?_lock]
    · simp [hfolder, hblocked]

namespace Cache

/-- A write has nothing to do if no change was reported since the last one; else it replaces the
file, or fails and leaves the file as it is. -/
theorem write_cases (c : Cache) (stamp : String) (disk : Disk) :
    (c.version = c.written ∧ c.write stamp disk = (.ok (), c, disk)) ∨
    (c.version ≠ c.written ∧ ∃ disk',
      c.write stamp disk = (.ok (), { c with written := c.version }, disk') ∧
        Disk.read disk' c.folder c.file =
          some (Text.Utf8.encode (c.entries.render stamp).toList)) ∨
    (c.version ≠ c.written ∧ ∃ f disk',
      c.write stamp disk = (.error f, c, disk') ∧
        Disk.read disk' c.folder c.file = Disk.read disk c.folder c.file) := by
  by_cases hv : c.version = c.written
  · exact .inl ⟨hv, by simp [write, hv]⟩
  · have hread := Disk.read_replaceFile disk c.folder c.file
      (Text.Utf8.encode (c.entries.render stamp).toList)
    simp only [write, if_neg hv]
    cases hr : Disk.replaceFile disk c.folder c.file
      (Text.Utf8.encode (c.entries.render stamp).toList) with
    | mk outcome disk' =>
      rw [hr] at hread
      cases outcome with
      | ok u => exact .inr (.inl ⟨hv, disk', rfl, hread⟩)
      | error f => exact .inr (.inr ⟨hv, f, disk', rfl, hread⟩)

/-- A cache with the disk of its file, and what happened since the file was written. -/
structure Mirror where
  /-- The cache. -/
  cache : Cache
  /-- The disk. -/
  disk : Disk
  /-- Whether a change was reported since the file was written. -/
  reported : Bool := false
  /-- The keys that came or went unreported since the file was written, latest first. -/
  toggled : List String := []

namespace Mirror

/-- What happens to a cache and its disk. -/
inductive Event where
  /-- A change is made. -/
  | made (change : Change)
  /-- The cache is written, at once, after its delay or on demand. -/
  | write (stamp : String)
  /-- Others change the disk. -/
  | disturb (disk : Disk)

/-- Whether an event makes a change. -/
def Event.isMade : Event → Bool
  | .made _ => true
  | .write _ | .disturb _ => false

/-- Whether the texts of an event keep their lines and words apart. -/
def Event.Legible : Event → Prop
  | .made change => change.Legible
  | .write stamp => '\n' ∉ stamp.toList
  | .disturb _ => True

/-- What a new cache would read from the file. -/
def stored (m : Mirror) : CacheEntries :=
  .ofBytes (Disk.read m.disk m.cache.folder m.cache.file)

/-- The mirror after an event. Nobody else changes the file. -/
def after (m : Mirror) : Event → Mirror
  | .made change =>
    let (reported, cache) := change.apply m.cache
    { m with
      cache
      reported := m.reported || reported
      toggled := (change.unreportedKey? m.cache.entries).toList ++ m.toggled }
  | .write stamp =>
    match m.cache.write stamp m.disk with
    | (.ok (), cache, disk) =>
      if m.reported then { cache, disk } else { m with cache, disk }
    | (.error _, cache, disk) => { m with cache, disk }
  | .disturb disk =>
    if Disk.read disk m.cache.folder m.cache.file =
        Disk.read m.disk m.cache.folder m.cache.file then { m with disk } else m

/-- A cache that was just opened, and a run of events. -/
def ofEvents (disk : Disk) (cache : Cache) (events : List Event) : Mirror :=
  events.foldl after { cache, disk }

/-- Nothing but keys without any address is owed to the file until a change is reported. -/
structure Sound (m : Mirror) : Prop where
  legible : m.cache.entries.Legible
  written_le : m.cache.written ≤ m.cache.version
  reported_iff : m.reported = true ↔ m.cache.version ≠ m.cache.written
  turned : m.reported = false → m.stored.Turned m.toggled m.cache.entries

/-- A cache that was just opened owes nothing to its file. -/
theorem sound_load (disk : Disk) (folder file : String) (flushDelay : Duration)
    (syncSave : Bool) : Sound { cache := .load disk folder file flushDelay syncSave, disk } where
  legible := CacheEntries.legible_ofBytes _
  written_le := UInt64.le_refl 0
  reported_iff := by simp [load]
  turned := fun _ => .refl _

/-- Only a change is counted, and at most once. -/
theorem version_after_le (m : Mirror) (event : Event) :
    (m.after event).cache.version.toNat ≤
      m.cache.version.toNat + if event.isMade then 1 else 0 := by
  cases event with
  | made change =>
    simp only [after, change.apply_eq, changed]
    split
    · rw [UInt64.toNat_add]
      exact Nat.mod_le _ _
    · exact Nat.le_add_right ..
  | write stamp =>
    simp only [after]
    rcases m.cache.write_cases stamp m.disk with ⟨-, hw⟩ | ⟨-, disk, hw, -⟩ | ⟨-, f, disk, hw, -⟩
    all_goals simp only [hw]
    all_goals try split
    all_goals exact Nat.le_add_right ..
  | disturb disk =>
    simp only [after]
    split <;> exact Nat.le_add_right ..

namespace Sound

variable {m : Mirror}

/-- A change keeps a mirror sound, unless the number of changes comes round. -/
theorem made (h : Sound m) {change : Change} (hchange : change.Legible)
    (hfits : m.cache.version.toNat + 1 < 2 ^ 64) : Sound (m.after (.made change)) := by
  have hlegible := change.legible_outcome h.legible hchange
  have hturned (hm : m.reported = false) (ho : (change.outcome m.cache.entries).1 = false) :=
    (h.turned hm).outcome ho
  simp only [Mirror.after, change.apply_eq, changed]
  generalize change.outcome m.cache.entries = outcome at hlegible hturned
  have hlt : m.cache.written < m.cache.version + 1 := by
    rw [UInt64.lt_iff_toNat_lt, UInt64.toNat_add, UInt64.toNat_one, Nat.mod_eq_of_lt hfits]
    exact Nat.lt_succ_of_le (UInt64.le_iff_toNat_le.mp h.written_le)
  have hreported := h.reported_iff
  constructor
  · exact hlegible
  · change m.cache.written ≤ if outcome.1 = true then m.cache.version + 1 else m.cache.version
    split
    · exact UInt64.le_of_lt hlt
    · exact h.written_le
  · change (m.reported || outcome.1) = true ↔
      (if outcome.1 = true then m.cache.version + 1 else m.cache.version) ≠ m.cache.written
    by_cases ho : outcome.1 = true
    · simpa [ho] using (UInt64.ne_of_lt hlt).symm
    · simpa [ho] using hreported
  · intro hnone
    obtain ⟨hm, ho⟩ := Bool.or_eq_false_iff.mp hnone
    exact hturned hm ho

/-- A write keeps a mirror sound. -/
theorem write (h : Sound m) {stamp : String} (hstamp : '\n' ∉ stamp.toList) :
    Sound (m.after (.write stamp)) := by
  simp only [Mirror.after]
  rcases m.cache.write_cases stamp m.disk with ⟨hnone, hw⟩ | ⟨hsome, disk, hw, hread⟩ |
    ⟨hsome, f, disk, hw, hread⟩
  · have hreported : ¬ m.reported = true := fun hr => h.reported_iff.mp hr hnone
    simp only [hw, if_neg hreported]
    exact h
  · simp only [hw, if_pos (h.reported_iff.mpr hsome)]
    constructor
    · exact h.legible
    · exact UInt64.le_refl _
    · simp
    · intro _
      change (CacheEntries.ofBytes _).Turned [] m.cache.entries
      rw [hread, CacheEntries.ofBytes_encode_render h.legible hstamp]
      exact .refl _
  · simp only [hw]
    constructor
    · exact h.legible
    · exact h.written_le
    · exact h.reported_iff
    · intro hm
      change (CacheEntries.ofBytes (Disk.read disk m.cache.folder m.cache.file)).Turned ..
      rw [hread]
      exact h.turned hm

/-- Others that leave the file as it is keep a mirror sound. -/
theorem disturb (h : Sound m) (disk : Disk) : Sound (m.after (.disturb disk)) := by
  simp only [Mirror.after]
  split
  · next hread =>
    constructor
    · exact h.legible
    · exact h.written_le
    · exact h.reported_iff
    · intro hm
      change (CacheEntries.ofBytes (Disk.read disk m.cache.folder m.cache.file)).Turned ..
      rw [hread]
      exact h.turned hm
  · exact h

/-- Every event keeps a mirror sound, unless the number of changes comes round. -/
theorem after (h : Sound m) {event : Event} (hevent : event.Legible)
    (hfits : (m.cache.version.toNat + if event.isMade then 1 else 0) < 2 ^ 64) :
    Sound (m.after event) := by
  cases event with
  | made change => exact h.made hevent hfits
  | write stamp => exact h.write hevent
  | disturb disk => exact h.disturb disk

/-- Every run of events keeps a mirror sound, unless the number of changes comes round. -/
theorem run (h : Sound m) (events : List Event) (hevents : ∀ event ∈ events, event.Legible)
    (hfits : m.cache.version.toNat + events.countP Event.isMade < 2 ^ 64) :
    Sound (events.foldl Mirror.after m) := by
  induction events generalizing m with
  | nil => exact h
  | cons event rest ih =>
    rw [List.countP_cons] at hfits
    have hversion := m.version_after_le event
    exact ih (h.after (hevents event (by simp)) (by omega)) (fun e he => hevents e (by simp [he]))
      (by omega)

end Sound

/-- A cache keeps its file. -/
theorem path_after (m : Mirror) (event : Event) :
    (m.after event).cache.folder = m.cache.folder ∧ (m.after event).cache.file = m.cache.file := by
  cases event with
  | made change =>
    simp only [after, change.apply_eq, changed]
    exact ⟨trivial, trivial⟩
  | write stamp =>
    simp only [after]
    rcases m.cache.write_cases stamp m.disk with ⟨-, hw⟩ | ⟨-, disk, hw, -⟩ | ⟨-, f, disk, hw, -⟩
    · simp only [hw]
      split <;> exact ⟨rfl, rfl⟩
    · simp only [hw]
      split <;> exact ⟨rfl, rfl⟩
    · simp only [hw]
      exact ⟨trivial, trivial⟩
  | disturb disk =>
    simp only [after]
    split <;> exact ⟨rfl, rfl⟩

private theorem path_run (m : Mirror) (events : List Event) :
    (events.foldl after m).cache.folder = m.cache.folder ∧
      (events.foldl after m).cache.file = m.cache.file := by
  induction events generalizing m with
  | nil => exact ⟨rfl, rfl⟩
  | cons event rest ih =>
    obtain ⟨hfolder, hfile⟩ := ih (m.after event)
    obtain ⟨hfolder', hfile'⟩ := m.path_after event
    exact ⟨hfolder.trans hfolder', hfile.trans hfile'⟩

/-- Once a cache was written, its file stands for what it holds if a change was reported since the
write before, and else up to the keys that came or went. -/
theorem Sound.stored_of_write {m : Mirror} (h : Sound m) {stamp : String}
    (hstamp : '\n' ∉ stamp.toList) (hflush : (m.cache.write stamp m.disk).1 = .ok ()) :
    let stored : CacheEntries :=
      .ofBytes (Disk.read (m.cache.write stamp m.disk).2.2 m.cache.folder m.cache.file)
    (m.reported = true → stored = m.cache.entries) ∧
      (m.reported = false → stored.Turned m.toggled m.cache.entries) := by
  intro stored
  rcases m.cache.write_cases stamp m.disk with ⟨hnone, hw⟩ | ⟨hsome, disk, hw, hread⟩ |
    ⟨hsome, f, disk, hw, hread⟩
  · have hstored : stored = m.stored := by simp only [stored, Mirror.stored, hw]
    rw [hstored]
    exact ⟨fun hr => absurd hnone (h.reported_iff.mp hr), h.turned⟩
  · have hstored : stored = m.cache.entries := by
      simp only [stored, hw, hread, CacheEntries.ofBytes_encode_render h.legible hstamp]
    refine ⟨fun _ => hstored, fun hr => ?_⟩
    rw [h.reported_iff.mpr hsome] at hr
    cases hr
  · rw [hw] at hflush
    cases hflush

end Mirror

/-- After every run of changes, of writes and of others that leave the file as it is, and after a
write that succeeds: a cache that is opened anew has the same addresses under every key. It has the
same keys just if a change was reported since the file was written before, or if every key that came
or went unreported since did so an even number of times. The changes are counted in 64 bits, and are
fewer than come round. -/
theorem reopened_eq_iff (disk : Disk) (folder file : String) (flushDelay : Duration)
    (syncSave : Bool) (events : List Mirror.Event) (hevents : ∀ event ∈ events, event.Legible)
    (hfits : events.countP Mirror.Event.isMade < 2 ^ 64)
    (stamp : String) (hstamp : '\n' ∉ stamp.toList) :
    let m := Mirror.ofEvents disk (.load disk folder file flushDelay syncSave) events
    (m.cache.write stamp m.disk).1 = .ok () →
      let reopened := load (m.cache.write stamp m.disk).2.2 folder file flushDelay syncSave
      (reopened.entries = m.cache.entries ↔
        m.reported = true ∨ ∀ key, m.toggled.count key % 2 = 0) ∧
      ∀ key, reopened.entries.getD key ∅ = m.cache.entries.getD key ∅ := by
  intro m hflush reopened
  have hzero : (0 : UInt64).toNat + events.countP Mirror.Event.isMade < 2 ^ 64 := by simpa
  have h : m.Sound :=
    (Mirror.sound_load disk folder file flushDelay syncSave).run events hevents hzero
  obtain ⟨hfolder, hfile⟩ : m.cache.folder = folder ∧ m.cache.file = file :=
    Mirror.path_run _ events
  have hstored := h.stored_of_write hstamp hflush
  rw [hfolder, hfile] at hstored
  obtain ⟨hsame, hturned⟩ : (m.reported = true → reopened.entries = m.cache.entries) ∧
    (m.reported = false → reopened.entries.Turned m.toggled m.cache.entries) := hstored
  cases hr : m.reported with
  | true =>
    have hsame := hsame hr
    exact ⟨iff_of_true hsame (.inl rfl), fun key => by rw [hsame]⟩
  | false =>
    have hturned := hturned hr
    refine ⟨hturned.eq_iff.trans ⟨.inr, fun hcases => hcases.resolve_left ?_⟩, hturned.getD_eq⟩
    rintro ⟨⟩

/-- A key that came without any address is gone from a cache that is opened anew. -/
theorem reopened_ne_of_replace_nil :
    let events := [Mirror.Event.made (.replace "/s" [])]
    let m := Mirror.ofEvents ∅ (.load ∅ "cache" "registry" (.ofMillis 100) false) events
    (∀ event ∈ events, event.Legible) ∧ events.countP Mirror.Event.isMade < 2 ^ 64 ∧
      '\n' ∉ "now".toList ∧
      (m.cache.write "now" m.disk).1 = .ok () ∧
      (load (m.cache.write "now" m.disk).2.2 "cache" "registry" (.ofMillis 100) false).entries ≠
        m.cache.entries := by
  intro events m
  have hevents : ∀ event ∈ events, event.Legible := by
    simp [events, Mirror.Event.Legible, Change.Legible]
  have hstamp : '\n' ∉ "now".toList := by decide
  have hflush : (m.cache.write "now" m.disk).1 = .ok () := rfl
  have hfits : events.countP Mirror.Event.isMade < 2 ^ 64 := by decide
  refine ⟨hevents, hfits, hstamp, hflush, ?_⟩
  have hiff := (reopened_eq_iff ∅ "cache" "registry" (.ofMillis 100) false events hevents hfits
    "now" hstamp hflush).1
  intro heq
  rcases hiff.mp heq with hreported | heven
  · cases hreported
  · have hodd : m.toggled.count "/s" % 2 = 1 := by decide
    have hzero : m.toggled.count "/s" % 2 = 0 := heven "/s"
    rw [hodd] at hzero
    cases hzero

end Cache

end Switchboard
