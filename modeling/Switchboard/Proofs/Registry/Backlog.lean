import Switchboard.Proofs.Registry.Saving

/-!
# What a file owes to its cache

A scene is sound when every change that was counted is known to the thread that writes, or another
write comes after it; when what was collected and what stands in the file are the entries after
their number of changes, as far as changes are counted; and when a write that failed leaves the
numbers apart. Every act keeps a scene sound.
-/

namespace Switchboard.Saving

/-- Whether a thread at a stage is about to learn the number of changes, or knows it. -/
def Stage.sees (version : UInt64) : Stage → Bool
  | .admitted => true
  | .comparing v | .behind v | .replacing v _ | .replaced v => v == version
  | _ => false

namespace Scene

/-- Whether a write comes that has yet to wait for its turn. -/
def IsAhead (s : Scene) : Prop := ∃ c, (s.stage c).isAhead = true

/-- Whether a change was made that is not counted yet. -/
def IsUncounted (s : Scene) : Prop := ∃ c, s.stage c = .changed

/-- Whether the changes that the file lacks are going to be written, unless a write failed. -/
def IsDue (s : Scene) : Prop :=
  s.cache.version = s.cache.written ∨ s.failed = true ∨ s.IsAhead ∨
    ∃ c, (s.stage c).sees s.cache.version = true

/-- Whether no change was counted after a number, but such as are written later. -/
def Knows (s : Scene) (version : UInt64) : Prop := version = s.cache.version ∨ s.IsAhead

/-- Whether entries are those after a number of changes, as far as changes are counted, but for keys
that came or went unreported. -/
def Keeps (s : Scene) (turned : List String) (version : UInt64) (e : CacheEntries) : Prop :=
  version = s.cache.version → s.IsUncounted ∨ e.Turned turned s.cache.entries

end Scene

/-- What is so of the number and the bytes that a thread at a stage has. -/
def Stage.Fits (s : Scene) (turned : List String) : Stage → Prop
  | comparing v =>
    s.cache.written ≤ v ∧ v ≤ s.cache.version ∧ s.Knows v ∧ (s.failed = true → s.cache.written < v)
  | behind v => s.cache.written < v ∧ v ≤ s.cache.version ∧ s.Knows v
  | replacing v content =>
    s.cache.written < v ∧ v ≤ s.cache.version ∧ s.Knows v ∧
      s.Keeps turned v (.ofBytes (some content))
  | replaced v => s.cache.written < v ∧ v ≤ s.cache.version ∧ s.Knows v ∧ s.Keeps turned v s.stored
  | _ => True

/-- A scene that threads have led to, and the keys that came or went unreported since the entries
were last collected. -/
structure Scene.Sound (s : Scene) (turned : List String) : Prop where
  legible : s.cache.entries.Legible
  written_le : s.cache.written ≤ s.cache.version
  /-- One thread at a time writes. -/
  isWriting_iff : ∀ c, (s.stage c).isWriting = true ↔ s.writer = some c
  /-- A task that clears the flag comes after whoever set it. -/
  isFlagged_of_pending : s.cache.flushPending = true → ∃ c, (s.stage c).isFlagged = true
  fits : ∀ c, (s.stage c).Fits s turned
  isDue : s.IsDue
  ne_of_failed : s.failed = true → s.cache.version ≠ s.cache.written
  keeps : s.Keeps turned s.cache.written s.stored

/-- A cache that was just opened is sound. -/
theorem Scene.sound_opened (disk : Disk) (folder file : String) (flushDelay : Duration) :
    (Scene.opened disk folder file flushDelay).Sound [] where
  legible := CacheEntries.legible_ofBytes _
  written_le := UInt64.le_refl 0
  isWriting_iff := by simp [Scene.opened, Stage.isWriting]
  isFlagged_of_pending := by rintro ⟨⟩
  fits := fun _ => trivial
  isDue := .inl rfl
  ne_of_failed := by rintro ⟨⟩
  keeps := fun _ => .inr (.refl _)

/-- A thread that does not write has no number to fit. -/
theorem Stage.fits_of_not_isWriting {s : Scene} {turned : List String} {stage : Stage}
    (h : stage.isWriting = false) : stage.Fits s turned := by
  cases stage with
  | comparing _ | behind _ | replacing _ _ | replaced _ => cases h
  | _ => trivial

/-- A thread that is flagged has a write ahead. -/
theorem Stage.isAhead_of_isFlagged {stage : Stage} (h : stage.isFlagged = true) :
    stage.isAhead = true := by
  cases stage with
  | beginning | due => rfl
  | _ => cases h

namespace Scene

variable {s : Scene} {c : ThreadId} {stage : Stage}

private theorem stage_move_self (s : Scene) (c : ThreadId) (stage : Stage) :
    (s.move c stage).stage c = stage := Function.update_self ..

private theorem stage_move_of_ne (s : Scene) (stage : Stage) {d : ThreadId} (h : d ≠ c) :
    (s.move c stage).stage d = s.stage d := Function.update_of_ne h ..

/-- What some thread is goes on to be so if the thread that moves is it afterwards. -/
theorem exists_move {p : Stage → Prop} (h : ∃ d, p (s.stage d)) (hc : p (s.stage c) → p stage) :
    ∃ d, p ((s.move c stage).stage d) := by
  obtain ⟨d, hd⟩ := h
  by_cases hdc : d = c
  · subst hdc
    exact ⟨d, by rw [stage_move_self]; exact hc hd⟩
  · exact ⟨d, by rwa [stage_move_of_ne s stage hdc]⟩

private theorem IsAhead.move (h : s.IsAhead)
    (hc : (s.stage c).isAhead = true → stage.isAhead = true) :
    (s.move c stage).IsAhead :=
  exists_move (p := (·.isAhead = true)) h hc

private theorem IsUncounted.move (h : s.IsUncounted) (hc : s.stage c ≠ .changed) :
    (s.move c stage).IsUncounted :=
  exists_move (p := (· = .changed)) h fun hc' => absurd hc' hc

/-- A thread that has a write ahead is one. -/
theorem isAhead_move (hstage : stage.isAhead = true) : (s.move c stage).IsAhead :=
  ⟨c, by rw [stage_move_self]; exact hstage⟩

/-- Changes go on to be due if the thread that moves was not to write them, or still is. -/
theorem IsDue.move (h : s.IsDue) (hahead : (s.stage c).isAhead = true → (s.move c stage).IsDue)
    (hsees : (s.stage c).sees s.cache.version = true → (s.move c stage).IsDue) :
    (s.move c stage).IsDue := by
  rcases h with hwritten | hfailed | ⟨d, hd⟩ | ⟨d, hd⟩
  · exact .inl hwritten
  · exact .inr (.inl hfailed)
  · by_cases hdc : d = c
    · exact hahead (hdc ▸ hd)
    · exact .inr (.inr (.inl ⟨d, by rwa [stage_move_of_ne s stage hdc]⟩))
  · by_cases hdc : d = c
    · exact hsees (hdc ▸ hd)
    · exact .inr (.inr (.inr ⟨d, by rwa [stage_move_of_ne s stage hdc]⟩))

end Scene

/-- What fits goes on to fit while the file and the numbers stay, but for changes that are counted,
and while no number is less known and no entries are less kept. -/
theorem Stage.Fits.mono {s s' : Scene} {turned turned' : List String} {stage : Stage}
    (h : stage.Fits s turned) (hwritten : s'.cache.written = s.cache.written)
    (hversion : s.cache.version ≤ s'.cache.version) (hfailed : s'.failed = s.failed)
    (hstored : s'.stored = s.stored) (hknows : ∀ v, s.Knows v → s'.Knows v)
    (hkeeps : ∀ v e, v ≤ s.cache.version → s.Keeps turned v e → s'.Keeps turned' v e) :
    stage.Fits s' turned' := by
  cases stage with
  | comparing v =>
    obtain ⟨hw, hv, hk, hf⟩ := h
    exact ⟨hwritten ▸ hw, UInt64.le_trans hv hversion, hknows v hk,
      fun hf' => hwritten ▸ hf (hfailed ▸ hf')⟩
  | behind v =>
    obtain ⟨hw, hv, hk⟩ := h
    exact ⟨hwritten ▸ hw, UInt64.le_trans hv hversion, hknows v hk⟩
  | replacing v content =>
    obtain ⟨hw, hv, hk, he⟩ := h
    exact ⟨hwritten ▸ hw, UInt64.le_trans hv hversion, hknows v hk, hkeeps v _ hv he⟩
  | replaced v =>
    obtain ⟨hw, hv, hk, he⟩ := h
    exact ⟨hwritten ▸ hw, UInt64.le_trans hv hversion, hknows v hk, hstored ▸ hkeeps v _ hv he⟩
  | _ => trivial

/-- What fits goes on to fit when another thread moves. -/
theorem Stage.Fits.move {s : Scene} {turned : List String} {c : ThreadId} {stage other : Stage}
    (h : other.Fits s turned) (hahead : s.IsAhead → (s.move c stage).IsAhead)
    (hcounted : s.stage c ≠ .changed) : other.Fits (s.move c stage) turned :=
  h.mono rfl (UInt64.le_refl _) rfl rfl (fun _ hk => hk.imp_right hahead)
    fun _ _ _ he hv => (he hv).imp_left fun hu => hu.move hcounted

namespace Scene.Sound

variable {s : Scene} {turned : List String} (h : Sound s turned) (c : ThreadId)

include h

/-- While nobody writes, no thread has a number. -/
theorem fits_of_writer_eq_none (hfree : s.writer = none) {s' : Scene} {turned' : List String}
    (d : ThreadId) : (s.stage d).Fits s' turned' := by
  apply Stage.fits_of_not_isWriting
  by_contra hd
  cases hfree.symm.trans ((h.isWriting_iff d).mp (by simpa using hd))

/-- While one thread writes, no other one has a number. -/
theorem fits_of_ne {s' : Scene} {turned' : List String} {d : ThreadId}
    (hc : (s.stage c).isWriting = true) (hd : d ≠ c) : (s.stage d).Fits s' turned' := by
  apply Stage.fits_of_not_isWriting
  by_contra hd'
  have hwriter : s.writer = some d := (h.isWriting_iff d).mp (by simpa using hd')
  exact hd (Option.some.inj (hwriter.symm.trans ((h.isWriting_iff c).mp hc)))

/-- A thread comes to another stage, and the flag and the right to write may change. -/
theorem move {old stage : Stage} (hc : s.stage c = old) {pending : Bool}
    {writer : Option ThreadId}
    (hwriting : ∀ d, ((s.move c stage).stage d).isWriting = true ↔ writer = some d)
    (hpending : pending = true → ∃ d, ((s.move c stage).stage d).isFlagged = true)
    (hcounted : old ≠ .changed)
    (hothers : ∀ d, d ≠ c → (s.stage d).Fits (s.move c stage) turned)
    (hfits : stage.Fits (s.move c stage) turned)
    (hdue : (s.move c stage).IsDue) :
    Sound { s.move c stage with
      cache := { s.cache with flushPending := pending }
      writer } turned where
  legible := h.legible
  written_le := h.written_le
  isWriting_iff := hwriting
  isFlagged_of_pending := hpending
  fits := by
    intro d
    by_cases hd : d = c
    · subst hd
      change ((s.move d stage).stage d).Fits (s.move d stage) turned
      rw [stage_move_self]
      exact hfits
    · change ((s.move c stage).stage d).Fits (s.move c stage) turned
      rw [stage_move_of_ne s stage hd]
      exact hothers d hd
  isDue := hdue
  ne_of_failed := h.ne_of_failed
  keeps := fun hversion => (h.keeps hversion).imp_left fun hu => hu.move (hc ▸ hcounted)

/-- Who writes stays who it is when a thread moves that writes afterwards if it did before. -/
theorem isWriting_move {old stage : Stage} (hc : s.stage c = old)
    (hwriting : stage.isWriting = old.isWriting) (d : ThreadId) :
    ((s.move c stage).stage d).isWriting = true ↔ s.writer = some d := by
  rw [← h.isWriting_iff d]
  by_cases hd : d = c
  · subst hd
    rw [stage_move_self, hwriting, hc]
  · rw [stage_move_of_ne s stage hd]

/-- The flag goes on to be followed by a task when a thread moves that is not one, or stays one. -/
theorem isFlagged_move {stage : Stage}
    (hflagged : (s.stage c).isFlagged = true → stage.isFlagged = true)
    (hpending : s.cache.flushPending = true) :
    ∃ d, ((s.move c stage).stage d).isFlagged = true :=
  exists_move (p := (·.isFlagged = true)) (h.isFlagged_of_pending hpending) hflagged

/-- A thread comes to another stage, and all else stays as it is. -/
theorem advance {old stage : Stage} (hc : s.stage c = old)
    (hwriting : stage.isWriting = old.isWriting)
    (hflagged : old.isFlagged = true → stage.isFlagged = true) (hcounted : old ≠ .changed)
    (hahead : old.isAhead = true → stage.isAhead = true) (hfits : stage.Fits s turned)
    (hsees : old.sees s.cache.version = true → (s.move c stage).IsDue) :
    Sound (s.move c stage) turned := by
  subst hc
  have hkept : s.IsAhead → (s.move c stage).IsAhead := fun ha => ha.move hahead
  exact h.move c rfl (h.isWriting_move c rfl hwriting) (h.isFlagged_move c hflagged) hcounted
    (fun d _ => (h.fits d).move hkept hcounted) (hfits.move hkept hcounted)
    (h.isDue.move (fun ha => .inr (.inr (.inl (isAhead_move (hahead ha))))) hsees)

/-! ### Threads that count changes and begin tasks -/

/-- A change that is not reported goes no further than a key without any text, and one that is
reported is going to be counted. -/
theorem alter {change : Cache.Change} (hchange : change.Legible) :
    Sound (s.after (.alter c change)) (s.turned turned (.alter c change)) := by
  simp only [Scene.after, Scene.turned]
  split
  · next hc =>
    have hlegible := change.legible_outcome h.legible hchange
    have hturned : ∀ e : CacheEntries, (change.outcome s.cache.entries).1 = false →
        e.Turned turned s.cache.entries →
        e.Turned ((change.unreportedKey? s.cache.entries).toList ++ turned)
          (change.outcome s.cache.entries).2 :=
      fun e hsilent he => he.outcome hsilent
    generalize change.outcome s.cache.entries = outcome at hlegible hturned
    generalize (change.unreportedKey? s.cache.entries).toList ++ turned = turned' at hturned ⊢
    obtain ⟨reported, entries⟩ := outcome
    have hcounted : s.stage c ≠ .changed := by rw [hc]; rintro ⟨⟩
    let stage : Stage := if reported then .changed else .idle
    have hstage : stage.isWriting = false := by cases reported <;> rfl
    let s' : Scene := { s.move c stage with cache := { s.cache with entries } }
    have hkeeps : ∀ v e, s.Keeps turned v e → s'.Keeps turned' v e := by
      intro v e he hv
      cases reported with
      | true => exact .inl ⟨c, stage_move_self ..⟩
      | false => exact (he hv).imp (fun hu => hu.move hcounted) (hturned e rfl)
    have hahead : s.IsAhead → s'.IsAhead := fun ha => ha.move (by rw [hc]; rintro ⟨⟩)
    change Sound s' turned'
    refine ⟨hlegible, h.written_le, h.isWriting_move c hc hstage,
      h.isFlagged_move c (by rw [hc]; rintro ⟨⟩), fun d => ?_, ?_, h.ne_of_failed,
      hkeeps _ _ h.keeps⟩
    · by_cases hd : d = c
      · subst hd
        apply Stage.fits_of_not_isWriting
        change ((s.move d stage).stage d).isWriting = false
        rw [stage_move_self]
        exact hstage
      · change ((s.move c stage).stage d).Fits s' turned'
        rw [stage_move_of_ne s stage hd]
        exact (h.fits d).mono rfl (UInt64.le_refl _) rfl rfl (fun _ hk => hk.imp_right hahead)
          fun v e _ => hkeeps v e
    · exact h.isDue.move (by rw [hc]; rintro ⟨⟩) (by rw [hc]; rintro ⟨⟩)
  · exact h

/-- A change that is counted is written by a thread that comes after. -/
theorem count (hfits : s.cache.version.toNat + 1 < 2 ^ 64) : Sound (s.after (.count c)) turned := by
  simp only [Scene.after]
  split
  · next hc =>
    have hahead : (s.move c .counted).IsAhead := isAhead_move rfl
    have hsucc : s.cache.version < s.cache.version + 1 := by
      rw [UInt64.lt_iff_toNat_lt, UInt64.toNat_add, UInt64.toNat_one, Nat.mod_eq_of_lt hfits]
      exact Nat.lt_succ_self _
    have hlt : ∀ v, v ≤ s.cache.version → v ≠ s.cache.version + 1 :=
      fun v hv => UInt64.ne_of_lt (UInt64.lt_of_le_of_lt hv hsucc)
    have hle := UInt64.le_of_lt hsucc
    refine ⟨h.legible, UInt64.le_trans h.written_le hle, h.isWriting_move c hc rfl,
      h.isFlagged_move c (by rw [hc]; rintro ⟨⟩), fun d => ?_, .inr (.inr (.inl hahead)),
      fun _ => (hlt _ h.written_le).symm, fun hv => absurd hv (hlt _ h.written_le)⟩
    change ((s.move c .counted).stage d).Fits _ turned
    by_cases hd : d = c
    · subst hd
      rw [stage_move_self]
      trivial
    · rw [stage_move_of_ne s .counted hd]
      exact (h.fits d).mono rfl hle rfl rfl (fun _ _ => .inr hahead)
        fun v _ hv _ heq => absurd heq (hlt v hv)
  · exact h

/-- Who finds the flag set leaves the write to the task that clears it. -/
theorem flag : Sound (s.after (.flag c)) turned := by
  simp only [Scene.after]
  split
  · next hc =>
    have hcounted : s.stage c ≠ .changed := by rw [hc]; rintro ⟨⟩
    split
    · next hpending =>
      obtain ⟨d, hd⟩ := h.isFlagged_of_pending hpending
      have hdc : d ≠ c := by
        rintro rfl
        rw [hc] at hd
        cases hd
      have hflagged : ((s.move c .idle).stage d).isFlagged = true := by
        rwa [stage_move_of_ne s .idle hdc]
      have hahead : (s.move c .idle).IsAhead := ⟨d, Stage.isAhead_of_isFlagged hflagged⟩
      exact h.move c hc (h.isWriting_move c hc rfl) (fun _ => ⟨d, hflagged⟩) (by rintro ⟨⟩)
        (fun e _ => (h.fits e).move (fun _ => hahead) hcounted) trivial (.inr (.inr (.inl hahead)))
    · have hahead : (s.move c .beginning).IsAhead := isAhead_move rfl
      exact h.move c hc (h.isWriting_move c hc rfl)
        (fun _ => ⟨c, by rw [stage_move_self]; rfl⟩) (by rintro ⟨⟩)
        (fun e _ => (h.fits e).move (fun _ => hahead) hcounted) trivial (.inr (.inr (.inl hahead)))
  · exact h

/-- The task that a thread begins is flagged in its place. -/
theorem begin (task : ThreadId) : Sound (s.after (.begin c task)) turned := by
  simp only [Scene.after]
  split
  · next hc htask =>
    have hne : task ≠ c := by
      rintro rfl
      cases hc.symm.trans htask
    have hbegun : Sound (s.move task .due) turned :=
      h.advance task htask rfl (by rintro ⟨⟩) (by rintro ⟨⟩) (by rintro ⟨⟩) trivial (by rintro ⟨⟩)
    have hc' : (s.move task .due).stage c = .beginning := by
      rwa [stage_move_of_ne s .due (Ne.symm hne)]
    have htask' : ((s.move task .due).move c .idle).stage task = .due := by
      rw [stage_move_of_ne _ .idle hne, stage_move_self]
    have hahead : ((s.move task .due).move c .idle).IsAhead := ⟨task, by rw [htask']; rfl⟩
    exact hbegun.move c hc' (hbegun.isWriting_move c hc' rfl)
      (fun _ => ⟨task, by rw [htask']; rfl⟩) (by rintro ⟨⟩)
      (fun d _ => (hbegun.fits d).move (fun _ => hahead) (by rw [hc']; rintro ⟨⟩)) trivial
      (.inr (.inr (.inl hahead)))
  · exact h

/-- A task that clears the flag goes on to write. -/
theorem clear : Sound (s.after (.clear c)) turned := by
  simp only [Scene.after]
  split
  · next hc =>
    have hahead : (s.move c .waiting).IsAhead := isAhead_move rfl
    exact h.move c hc (h.isWriting_move c hc rfl) (by rintro ⟨⟩) (by rintro ⟨⟩)
      (fun d _ => (h.fits d).move (fun _ => hahead) (by rw [hc]; rintro ⟨⟩)) trivial
      (.inr (.inr (.inl hahead)))
  · exact h

private theorem flush : Sound (s.after (.flush c)) turned := by
  simp only [Scene.after]
  split
  · next hc =>
    exact h.advance c hc rfl (by rintro ⟨⟩) (by rintro ⟨⟩) (by rintro ⟨⟩) trivial (by rintro ⟨⟩)
  · exact h

/-! ### Threads that write -/

/-- Who begins to write has yet to read the number of changes. -/
theorem enter : Sound (s.after (.enter c)) turned := by
  simp only [Scene.after]
  split
  · next hc =>
    split
    · next hfree =>
      refine h.move c hc (fun d => ?_) (h.isFlagged_move c (by rw [hc]; rintro ⟨⟩)) (by rintro ⟨⟩)
        (fun d _ => h.fits_of_writer_eq_none hfree d) trivial
        (.inr (.inr (.inr ⟨c, by rw [stage_move_self]; rfl⟩)))
      by_cases hd : d = c
      · subst hd
        rw [stage_move_self]
        simp [Stage.isWriting]
      · rw [stage_move_of_ne s .admitted hd, h.isWriting_iff d, hfree]
        simp [Ne.symm hd]
    · exact h
  · exact h

/-- Who reads the number of changes knows of all that were counted. -/
theorem read : Sound (s.after (.read c)) turned := by
  simp only [Scene.after]
  split
  · next hc =>
    have hlt : s.failed = true → s.cache.written < s.cache.version := fun hfailed =>
      UInt64.lt_of_le_of_ne h.written_le (Ne.symm (h.ne_of_failed hfailed))
    exact h.advance c hc rfl (by rintro ⟨⟩) (by rintro ⟨⟩) (by rintro ⟨⟩)
      ⟨h.written_le, UInt64.le_refl _, .inl rfl, hlt⟩
      fun _ => .inr (.inr (.inr ⟨c, by rw [stage_move_self]; exact beq_self_eq_true _⟩))
  · exact h

/-- Who finds that the file holds the changes it knows of leaves no change that was counted, and
who finds that it does not goes on. -/
theorem compare : Sound (s.after (.compare c)) turned := by
  simp only [Scene.after]
  split
  · next v hc =>
    obtain ⟨hwritten, hversion, hknows, -⟩ : (Stage.comparing v).Fits s turned := hc ▸ h.fits c
    split
    · next heq =>
      refine h.advance c hc rfl (by rintro ⟨⟩) (by rintro ⟨⟩) (by rintro ⟨⟩) trivial
        fun hsees => .inl ?_
      exact (beq_iff_eq.mp hsees).symm.trans heq
    · next hne =>
      exact h.advance c hc rfl (by rintro ⟨⟩) (by rintro ⟨⟩) (by rintro ⟨⟩)
        ⟨UInt64.lt_of_le_of_ne hwritten (Ne.symm hne), hversion, hknows⟩
        fun hsees => .inr (.inr (.inr ⟨c, by rw [stage_move_self]; exact hsees⟩))
  · exact h

/-- When the thread that writes moves on, no other one has a number. -/
theorem fits_of_writing {s' : Scene} {turned' : List String} {stage : Stage}
    (hc : (s.stage c).isWriting = true) (hstage : s'.stage = (s.move c stage).stage)
    (hfits : stage.Fits s' turned') (d : ThreadId) : (s'.stage d).Fits s' turned' := by
  rw [hstage]
  by_cases hd : d = c
  · subst hd
    rwa [stage_move_self]
  · rw [stage_move_of_ne s stage hd]
    exact h.fits_of_ne c hc hd

/-- The bytes that are collected stand for the entries, and no key has come or gone since. -/
theorem collect {stamp : String} (hstamp : '\n' ∉ stamp.toList) :
    Sound (s.after (.collect c stamp)) (s.turned turned (.collect c stamp)) := by
  simp only [Scene.after, Scene.turned]
  split
  · next v hc =>
    obtain ⟨hwritten, hversion, hknows⟩ : (Stage.behind v).Fits s turned := hc ▸ h.fits c
    have hcontent : CacheEntries.ofBytes
        (some (Text.Utf8.encode (s.cache.entries.render stamp).toList)) = s.cache.entries :=
      CacheEntries.ofBytes_encode_render h.legible hstamp
    refine ⟨h.legible, h.written_le, h.isWriting_move c hc rfl,
      h.isFlagged_move c (by rw [hc]; rintro ⟨⟩),
      h.fits_of_writing c (by rw [hc]; rfl) rfl ⟨hwritten, hversion, ?_, fun _ => .inr ?_⟩, ?_,
      h.ne_of_failed, fun hv => ?_⟩
    · exact hknows.imp_right fun ha => ha.move (by rw [hc]; rintro ⟨⟩)
    · rw [hcontent]
      exact .refl _
    · exact h.isDue.move (by rw [hc]; rintro ⟨⟩) (by
        rw [hc]
        exact fun hsees => .inr (.inr (.inr ⟨c, by rw [stage_move_self]; exact hsees⟩)))
    · exact absurd hv (UInt64.ne_of_lt (UInt64.lt_of_lt_of_le hwritten hversion))
  · exact h

/-- A write that fails leaves the file and the numbers as they are. -/
theorem lose {v : UInt64} {content : Bytes} (hc : s.stage c = .replacing v content) (f : Failure)
    {disk : Disk} (hdisk : s.Spares disk) :
    Sound { s.move c (.finished (.error f)) with disk, failed := true } turned := by
  obtain ⟨hwritten, hversion, -⟩ : (Stage.replacing v content).Fits s turned := hc ▸ h.fits c
  have hcounted : s.stage c ≠ .changed := by rw [hc]; rintro ⟨⟩
  refine ⟨h.legible, h.written_le, h.isWriting_move c hc rfl,
    h.isFlagged_move c (by rw [hc]; rintro ⟨⟩),
    h.fits_of_writing c (by rw [hc]; rfl) rfl trivial, .inr (.inl rfl), fun _ => ?_, fun hv => ?_⟩
  · exact (UInt64.ne_of_lt (UInt64.lt_of_lt_of_le hwritten hversion)).symm
  · refine (h.keeps hv).imp (fun hu => hu.move hcounted) fun hturned => ?_
    change (CacheEntries.ofBytes (Disk.read disk s.cache.folder s.cache.file)).Turned ..
    rw [hdisk]
    exact hturned

private theorem fail (f : Failure) (disk : Disk) : Sound (s.after (.fail c f disk)) turned := by
  simp only [Scene.after]
  split
  · next hc =>
    split
    · next hdisk => exact h.lose c hc f hdisk
    · exact h
  · exact h

/-- A file that is replaced holds the bytes that were collected. -/
theorem replace : Sound (s.after (.replace c)) turned := by
  simp only [Scene.after]
  split
  · next v content hc =>
    obtain ⟨hwritten, hversion, hknows, hkeeps⟩ : (Stage.replacing v content).Fits s turned :=
      hc ▸ h.fits c
    have hcounted : s.stage c ≠ .changed := by rw [hc]; rintro ⟨⟩
    have hread := Disk.read_replaceFile s.disk s.cache.folder s.cache.file content
    cases hreplace : s.disk.replaceFile s.cache.folder s.cache.file content with
    | mk outcome disk =>
      rw [hreplace] at hread
      cases outcome with
      | error f => exact h.lose c hc f hread
      | ok u =>
        refine ⟨h.legible, h.written_le, h.isWriting_move c hc rfl,
          h.isFlagged_move c (by rw [hc]; rintro ⟨⟩),
          h.fits_of_writing c (by rw [hc]; rfl) rfl ⟨hwritten, hversion, ?_, fun hv => ?_⟩, ?_,
          h.ne_of_failed, fun hv => ?_⟩
        · exact hknows.imp_right fun ha => ha.move (by rw [hc]; rintro ⟨⟩)
        · refine (hkeeps hv).imp (fun hu => hu.move hcounted) fun hturned => ?_
          change (CacheEntries.ofBytes (Disk.read disk s.cache.folder s.cache.file)).Turned ..
          rw [hread]
          exact hturned
        · exact h.isDue.move (by rw [hc]; rintro ⟨⟩) (by
            rw [hc]
            exact fun hsees => .inr (.inr (.inr ⟨c, by rw [stage_move_self]; exact hsees⟩)))
        · exact absurd hv (UInt64.ne_of_lt (UInt64.lt_of_lt_of_le hwritten hversion))
  · exact h

/-- Once a write is noted the file holds the changes that it knew of. -/
theorem note : Sound (s.after (.note c)) turned := by
  simp only [Scene.after]
  split
  · next v hc =>
    obtain ⟨hwritten, hversion, hknows, hkeeps⟩ : (Stage.replaced v).Fits s turned := hc ▸ h.fits c
    have hcounted : s.stage c ≠ .changed := by rw [hc]; rintro ⟨⟩
    refine ⟨h.legible, hversion, h.isWriting_move c hc rfl,
      h.isFlagged_move c (by rw [hc]; rintro ⟨⟩),
      h.fits_of_writing c (by rw [hc]; rfl) rfl trivial, ?_, (by rintro ⟨⟩), fun hv => ?_⟩
    · rcases hknows with heq | hahead
      · exact .inl heq.symm
      · exact .inr (.inr (.inl (hahead.move (by rw [hc]; rintro ⟨⟩))))
    · exact (hkeeps hv).imp_left fun hu => hu.move hcounted
  · exact h

/-- A thread that lets others write has no number left. -/
theorem leave : Sound (s.after (.leave c)) turned := by
  simp only [Scene.after]
  split
  · next outcome hc =>
    have hwriting : (s.stage c).isWriting = true := by rw [hc]; rfl
    refine h.move c hc (fun d => ?_) (h.isFlagged_move c (by rw [hc]; rintro ⟨⟩)) (by rintro ⟨⟩)
      (fun d hd => h.fits_of_ne c hwriting hd) trivial
      (h.isDue.move (by rw [hc]; rintro ⟨⟩) (by rw [hc]; rintro ⟨⟩))
    by_cases hd : d = c
    · subst hd
      rw [stage_move_self]
      simp [Stage.isWriting]
    · rw [stage_move_of_ne s .idle hd, h.isWriting_iff d, (h.isWriting_iff c).mp hwriting]
      simp [Ne.symm hd]
  · exact h

omit c in
/-- Others that leave the file as it is leave the scene sound. -/
theorem disturb (disk : Disk) : Sound (s.after (.disturb disk)) turned := by
  simp only [Scene.after]
  split
  · next hdisk =>
    have hstored : CacheEntries.ofBytes (Disk.read disk s.cache.folder s.cache.file) = s.stored :=
      congrArg _ hdisk
    refine ⟨h.legible, h.written_le, h.isWriting_iff, h.isFlagged_of_pending, fun d => ?_, h.isDue,
      h.ne_of_failed, fun hv => ?_⟩
    · exact (h.fits d).mono rfl (UInt64.le_refl _) rfl hstored (fun _ hk => hk) fun _ _ _ he => he
    · refine (h.keeps hv).imp_right fun hturned => ?_
      change (CacheEntries.ofBytes (Disk.read disk s.cache.folder s.cache.file)).Turned ..
      rw [hdisk]
      exact hturned
  · exact h

omit h c in
/-- Only a count of a change raises the number of changes, and by one. -/
theorem version_after_le (s : Scene) (act : Act) :
    (s.after act).cache.version.toNat ≤
      s.cache.version.toNat + if act.isCount then 1 else 0 := by
  cases act with
  | count c =>
    simp only [Scene.after]
    split
    · rw [UInt64.toNat_add]
      exact Nat.mod_le _ _
    · exact Nat.le_add_right ..
  | _ =>
    simp only [Scene.after]
    repeat' split
    all_goals exact Nat.le_add_right ..

omit c in
/-- Every act leaves the scene sound, unless the number of changes comes round. -/
theorem after {act : Act} (hact : act.Legible)
    (hfits : (s.cache.version.toNat + if act.isCount then 1 else 0) < 2 ^ 64) :
    Sound (s.after act) (s.turned turned act) := by
  cases act with
  | alter c change => exact h.alter c hact
  | count c => exact h.count c hfits
  | flag c => exact h.flag c
  | begin c task => exact h.begin c task
  | clear c => exact h.clear c
  | flush c => exact h.flush c
  | enter c => exact h.enter c
  | read c => exact h.read c
  | compare c => exact h.compare c
  | collect c stamp => exact h.collect c hact
  | replace c => exact h.replace c
  | fail c f disk => exact h.fail c f disk
  | note c => exact h.note c
  | leave c => exact h.leave c
  | disturb disk => exact h.disturb disk

omit c in
/-- Every run leaves the scene sound, unless the number of changes comes round. -/
theorem run {acts : List Act} (hacts : ∀ act ∈ acts, act.Legible)
    (hfits : s.cache.version.toNat + acts.countP Act.isCount < 2 ^ 64) :
    Sound (s.run acts) (s.turns turned acts) := by
  induction acts generalizing s turned with
  | nil => exact h
  | cons act rest ih =>
    rw [List.countP_cons] at hfits
    have hversion := version_after_le s act
    exact ih (h.after (hacts act List.mem_cons_self) (by omega))
      (fun a ha => hacts a (List.mem_cons_of_mem _ ha)) (by omega)

end Scene.Sound

end Switchboard.Saving
