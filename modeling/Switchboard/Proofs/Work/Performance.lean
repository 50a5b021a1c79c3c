import Switchboard.Work.Machine

/-!
# Work in the foreground that ends

Work in the foreground is given up after a number of rounds. Whether it ends, and how, is told here
without them: it runs to its end, or it has to wait, others take their turns, the clock may move,
and what is left of it ends. Then it ends in every number of rounds from some on, and nothing else
does; and one routine after another ends if each of them does.
-/

namespace Switchboard.Machine

variable {σ δ γ α β : Type} [DecidableEq γ] (body : δ → Routine σ δ γ (Option δ)) (turns : Nat)
  (limit : Option Nat)

/-- A routine in the foreground ends with a value and leaves a machine behind, before that is
woken. -/
inductive Ends : Routine σ δ γ α → Machine σ δ γ → α → Machine σ δ γ → Prop where
  /-- It runs to its end. -/
  | runs {r : Routine σ δ γ α} {m m' : Machine σ δ γ} {a : α}
      (hrun : run body foreground r m = (.ok a, m')) : Ends r m a m'
  /-- It has to wait, and can go on when the others had their turns. -/
  | goesOn {r left : Routine σ δ γ α} {m m₁ m' : Machine σ δ γ} {a : α}
      (hrun : run body foreground r m = (.error left, m₁))
      (hlimit : limit.any (· ≤ m₁.now) = false)
      (hgo : (settle body turns m₁.wake).canGo foreground left = true)
      (hrest : Ends left (settle body turns m₁.wake) a m') : Ends r m a m'
  /-- It has to wait, and goes on when the clock has moved. -/
  | waits {r left : Routine σ δ γ α} {m m₁ m' : Machine σ δ γ} {a : α} {time : Nat}
      (hrun : run body foreground r m = (.error left, m₁))
      (hlimit : limit.any (· ≤ m₁.now) = false)
      (hgo : (settle body turns m₁.wake).canGo foreground left = false)
      (htime : earlier (earlier (settle body turns m₁.wake).nextTime (timeOf left)) limit =
        some time)
      (hrest : Ends left ((settle body turns m₁.wake).moveTo time) a m') : Ends r m a m'

variable {body turns limit} {r : Routine σ δ γ α} {m m' : Machine σ δ γ} {a : α}

/-- Work that ends is performed, in every number of rounds from some on. -/
theorem Ends.perform_eq (h : Ends body turns limit r m a m') :
    ∃ n, ∀ rounds, n ≤ rounds → perform body turns limit rounds r m = (some a, m'.wake) := by
  induction h with
  | runs hrun =>
    refine ⟨1, fun rounds hn => ?_⟩
    obtain ⟨rounds, rfl⟩ := Nat.exists_eq_add_of_le' hn
    simp only [perform, hrun]
  | goesOn hrun hlimit hgo hrest ih =>
    obtain ⟨n, ih⟩ := ih
    refine ⟨n + 1, fun rounds hn => ?_⟩
    obtain ⟨rounds, rfl⟩ := Nat.exists_eq_add_of_le' (Nat.le_trans (Nat.le_add_left 1 n) hn)
    simp only [perform, hrun, hlimit, hgo, Bool.false_eq_true, if_false, if_true]
    exact ih rounds (Nat.le_of_succ_le_succ hn)
  | waits hrun hlimit hgo htime hrest ih =>
    obtain ⟨n, ih⟩ := ih
    refine ⟨n + 1, fun rounds hn => ?_⟩
    obtain ⟨rounds, rfl⟩ := Nat.exists_eq_add_of_le' (Nat.le_trans (Nat.le_add_left 1 n) hn)
    simp only [perform, hrun, hlimit, hgo, htime, Bool.false_eq_true, if_false]
    exact ih rounds (Nat.le_of_succ_le_succ hn)

/-- Work that is performed ends. -/
theorem ends_of_perform_eq {rounds : Nat} {m'' : Machine σ δ γ}
    (h : perform body turns limit rounds r m = (some a, m'')) :
    ∃ m', Ends body turns limit r m a m' ∧ m'' = m'.wake := by
  induction rounds generalizing r m with
  | zero => cases h
  | succ rounds ih =>
    rw [perform] at h
    split at h
    · next hrun =>
      cases h
      exact ⟨_, .runs hrun, rfl⟩
    · next left m₁ hrun =>
      split at h
      · cases h
      · next hlimit =>
        rw [Bool.not_eq_true] at hlimit
        dsimp only at h
        split at h
        · next hgo =>
          obtain ⟨m', hends, rfl⟩ := ih h
          exact ⟨m', .goesOn hrun hlimit hgo hends, rfl⟩
        · next hgo =>
          rw [Bool.not_eq_true] at hgo
          split at h
          · cases h
          · next time htime =>
            obtain ⟨m', hends, rfl⟩ := ih h
            exact ⟨m', .waits hrun hlimit hgo htime hends, rfl⟩

/-- How a routine ends shows in how it runs. -/
theorem Ends.congr {r' : Routine σ δ γ α} {m₂ : Machine σ δ γ}
    (h : Ends body turns limit r m a m')
    (hrun : run body foreground r' m₂ = run body foreground r m) :
    Ends body turns limit r' m₂ a m' := by
  cases h with
  | runs h => exact .runs (hrun.trans h)
  | goesOn h hlimit hgo hrest => exact .goesOn (hrun.trans h) hlimit hgo hrest
  | waits h hlimit hgo htime hrest => exact .waits (hrun.trans h) hlimit hgo htime hrest

/-- A value is an end at once. -/
theorem Ends.pure (a : α) (m : Machine σ δ γ) : Ends body turns limit (pure a) m a m :=
  .runs rfl

/-- What has to wait stands at a pause or at a gate. -/
theorem waits_of_run {task : TaskId} {left : Routine σ δ γ α}
    (h : run body task r m = (.error left, m')) :
    (∃ time ready next, left = .pause time ready next) ∨ ∃ gate next, left = .enter gate next := by
  induction r generalizing m with
  | done a => cases h
  | act update next ih => exact ih _ h
  | start duty next ih => exact ih _ h
  | cancel other next ih => exact ih h
  | clock next ih => exact ih _ h
  | pause time ready next ih =>
    rw [run] at h
    split at h
    · exact ih h
    · cases h
      exact .inl ⟨time, ready, next, rfl⟩
  | enter gate next ih =>
    simp only [run] at h
    split at h
    · exact ih h
    · cases h
      exact .inr ⟨gate, next, rfl⟩
  | leave gate next ih => exact ih h

/-- What has to wait waits for the same with more to do after it. -/
theorem canGo_bind_and_timeOf_bind {task : TaskId} {left : Routine σ δ γ α}
    (h : run body task r m = (.error left, m')) (k : α → Routine σ δ γ β)
    (other : TaskId) (m₂ : Machine σ δ γ) :
    m₂.canGo other (left >>= k) = m₂.canGo other left ∧ timeOf (left >>= k) = timeOf left := by
  rcases waits_of_run h with ⟨time, ready, next, rfl⟩ | ⟨gate, next, rfl⟩ <;> exact ⟨rfl, rfl⟩

/-- One routine after another ends if each of them does. -/
theorem Ends.bind {k : α → Routine σ δ γ β} {b : β} {m₂ : Machine σ δ γ}
    (h : Ends body turns limit r m a m') (hk : Ends body turns limit (k a) m' b m₂) :
    Ends body turns limit (r >>= k) m b m₂ := by
  induction h with
  | runs hrun =>
    refine hk.congr ?_
    rw [run_bind, hrun]
  | goesOn hrun hlimit hgo hrest ih =>
    have hwaits := canGo_bind_and_timeOf_bind hrun k foreground
    refine .goesOn ?_ hlimit ?_ (ih hk)
    · rw [run_bind, hrun]
    · rw [(hwaits _).1, hgo]
  | @waits r left m m₁ m' a time hrun hlimit hgo htime hrest ih =>
    have hwaits := canGo_bind_and_timeOf_bind hrun k foreground
    refine .waits ?_ hlimit ?_ ?_ (ih hk)
    · rw [run_bind, hrun]
    · rw [(hwaits _).1, hgo]
    · rw [(hwaits m).2, htime]

/-- A look ends at once and changes nothing. -/
theorem Ends.look (f : σ → α) (m : Machine σ δ γ) :
    Ends body turns limit (Routine.look f) m (f m.state) m := .runs rfl

/-- A look at the state and what follows from it. -/
theorem Ends.look_bind {f : σ → α} {k : α → Routine σ δ γ β} {b : β}
    (h : Ends body turns limit (k (f m.state)) m b m') :
    Ends body turns limit (Routine.look f >>= k) m b m' :=
  h.congr (run_look_bind ..)

/-- A look at the clock and what follows from it. -/
theorem Ends.now_bind {k : Nat → Routine σ δ γ β} {b : β}
    (h : Ends body turns limit (k m.now) m b m') :
    Ends body turns limit (Routine.now >>= k) m b m' := h.congr rfl

/-- A step and what follows from its answer. -/
theorem Ends.step_bind {f : σ → α × σ} {k : α → Routine σ δ γ β} {b : β}
    (h : Ends body turns limit (k (f m.state).1) { m with state := (f m.state).2 } b m') :
    Ends body turns limit (Routine.step f >>= k) m b m' :=
  h.congr (run_step_bind ..)

/-- A change of the state and what follows from it. -/
theorem Ends.modify_bind {f : σ → σ} {k : Unit → Routine σ δ γ β} {b : β} {m' : Machine σ δ γ}
    (h : Ends body turns limit (k ()) { m with state := f m.state } b m') :
    Ends body turns limit (Routine.modify f >>= k) m b m' :=
  h.congr (run_modify_bind ..)

/-- Whoever waits for what is right already goes on at once. -/
theorem Ends.await {ready : σ → Bool} (h : ready m.state = true) :
    Ends body turns limit (Routine.await ready : Routine σ δ γ Unit) m () m :=
  .runs (by simp [Routine.await, run, h])

/-- So does whoever would wait for it for a span. -/
theorem Ends.awaitWithin {ready : σ → Bool} (h : ready m.state = true) (span : Nat) :
    Ends body turns limit (Routine.awaitWithin span ready : Routine σ δ γ Unit) m () m :=
  .runs (by simp [Routine.awaitWithin, run, h])

/-! ### A machine on which nobody else works -/

/-- Whether there is no work but in the foreground. -/
def IsQuiet (m : Machine σ δ γ) : Prop := m.ready = [] ∧ m.waiting = []

private theorem IsQuiet.wake_eq (h : IsQuiet m) : m.wake = m := by
  obtain ⟨hready, hwaiting⟩ := h
  cases m
  subst hready hwaiting
  rfl

private theorem IsQuiet.settle_eq (h : IsQuiet m) (turns : Nat) : settle body turns m = m := by
  cases turns with
  | zero => rfl
  | succ turns => rw [settle, turn?, h.1]

/-- A wait for a time only takes until then where nobody else works. -/
theorem IsQuiet.pause_ends (h : IsQuiet m) {time : Nat} {ready : σ → Bool}
    (hready : ready m.state = false)
    (hends : Ends body turns none r { m with now := max m.now time } a m') :
    Ends body turns none (.pause (some time) ready r) m a m' := by
  have hrun : ∀ m : Machine σ δ γ, time ≤ m.now →
      run body foreground (.pause (some time) ready r) m = run body foreground r m := by
    intro m hle
    simp [run, hle]
  by_cases hle : time ≤ m.now
  · rw [Nat.max_eq_left hle] at hends
    exact hends.congr (hrun m hle)
  · have hleft : run body foreground (.pause (some time) ready r) m =
        (.error (.pause (some time) ready r), m) := by
      simp [run, hready, hle]
    have htime : earlier (earlier (settle body turns m.wake).nextTime
        (timeOf (.pause (some time) ready r))) none = some time := by
      rw [h.wake_eq, h.settle_eq, nextTime, h.2]
      rfl
    refine .waits hleft rfl ?_ htime ?_
    · rw [h.wake_eq, h.settle_eq]
      simp [canGo, hready, hle]
    · have hquiet : IsQuiet { m with now := max m.now time } := h
      rw [h.wake_eq, h.settle_eq, moveTo, hquiet.wake_eq]
      exact hends.congr (hrun _ (Nat.le_max_right ..))

/-- Sleep only takes its time where nobody else works. -/
theorem IsQuiet.sleep_ends (h : IsQuiet m) (span : Nat) :
    Ends body turns none (Routine.sleep span : Routine σ δ γ Unit) m ()
      { m with now := m.now + span } := by
  have hpause : Ends body turns none
      (.pause (some (m.now + span)) (fun _ => false) (.done ()) : Routine σ δ γ Unit) m ()
      { m with now := max m.now (m.now + span) } :=
    h.pause_ends rfl (.pure () _)
  rw [Nat.max_eq_right (Nat.le_add_right ..)] at hpause
  exact hpause.congr rfl

end Switchboard.Machine
