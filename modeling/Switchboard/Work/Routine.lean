/-!
# Routines

A routine is a piece of work that shares a state with others and takes turns with them. Its atomic
steps change the state; between them it may begin further work, call some off, wait, or stand in
line at a gate that lets one through at a time. What a routine does after a step depends on the
state before that step, so nothing that happens in between can slip into a step.

Waits are the suspension points of `SPEC_FULL.md`, section 5; steps are its critical sections.

Main statement: routines form a lawful monad.
-/

namespace Switchboard

/-- Names a piece of work that was begun. -/
abbrev TaskId := Nat

/-- Work over states `σ` that may begin duties `δ`, stand in line at gates `γ` and ends with an
`α`. -/
inductive Routine (σ δ γ α : Type) where
  /-- The end. -/
  | done (a : α)
  /-- One step: the state changes, and what follows depends on the state before. -/
  | act (update : σ → σ) (next : σ → Routine σ δ γ α)
  /-- Begins a duty that takes its turns from now on. -/
  | start (duty : δ) (next : TaskId → Routine σ δ γ α)
  /-- Calls a task off, wherever it stands. -/
  | cancel (task : TaskId) (next : Routine σ δ γ α)
  /-- Reads the clock, which stands still during a turn. -/
  | clock (next : Nat → Routine σ δ γ α)
  /-- Waits until a time has come or the state is right. -/
  | pause (until? : Option Nat) (ready : σ → Bool) (next : Routine σ δ γ α)
  /-- Takes a place in the line at a gate and waits to be its first. -/
  | enter (gate : γ) (next : Routine σ δ γ α)
  /-- Gives up the place at a gate. -/
  | leave (gate : γ) (next : Routine σ δ γ α)

namespace Routine

variable {σ δ γ α β : Type}

/-- One routine after another. -/
def bind : Routine σ δ γ α → (α → Routine σ δ γ β) → Routine σ δ γ β
  | done a, k => k a
  | act update next, k => act update fun s => (next s).bind k
  | start duty next, k => start duty fun task => (next task).bind k
  | cancel task next, k => cancel task (next.bind k)
  | clock next, k => clock fun now => (next now).bind k
  | pause time ready next, k => pause time ready (next.bind k)
  | enter gate next, k => enter gate (next.bind k)
  | leave gate next, k => leave gate (next.bind k)

/-- Routines run one after another. -/
instance : Monad (Routine σ δ γ) where
  pure := done
  bind := bind

private theorem bind_done (r : Routine σ δ γ α) : r.bind done = r := by
  induction r with
  | done a => rfl
  | act update next ih => simp [bind, ih]
  | start duty next ih => simp [bind, ih]
  | cancel task next ih => simp [bind, ih]
  | clock next ih => simp [bind, ih]
  | pause time ready next ih => simp [bind, ih]
  | enter gate next ih => simp [bind, ih]
  | leave gate next ih => simp [bind, ih]

private theorem bind_assoc {ε : Type} (r : Routine σ δ γ α) (f : α → Routine σ δ γ β)
    (g : β → Routine σ δ γ ε) : (r.bind f).bind g = r.bind fun a => (f a).bind g := by
  induction r with
  | done a => rfl
  | act update next ih => simp [bind, ih]
  | start duty next ih => simp [bind, ih]
  | cancel task next ih => simp [bind, ih]
  | clock next ih => simp [bind, ih]
  | pause time ready next ih => simp [bind, ih]
  | enter gate next ih => simp [bind, ih]
  | leave gate next ih => simp [bind, ih]

/-- Routines form a lawful monad. -/
instance : LawfulMonad (Routine σ δ γ) :=
  .mk' (Routine σ δ γ) bind_done (fun _ _ => rfl) bind_assoc

/-- A step that answers. -/
def step (f : σ → α × σ) : Routine σ δ γ α := act (fun s => (f s).2) fun s => done (f s).1

/-- A step that only changes the state. -/
def modify (f : σ → σ) : Routine σ δ γ Unit := act f fun _ => done ()

/-- A step that only looks at the state. -/
def look (f : σ → α) : Routine σ δ γ α := act id fun s => done (f s)

/-- Begins a duty. -/
def begin (duty : δ) : Routine σ δ γ TaskId := start duty done

/-- The time. -/
def now : Routine σ δ γ Nat := clock done

/-- Waits until the state is right. -/
def await (ready : σ → Bool) : Routine σ δ γ Unit := pause none ready (done ())

/-- Waits until a time. -/
def sleepUntil (time : Nat) : Routine σ δ γ Unit := pause (some time) (fun _ => false) (done ())

/-- Waits for a span. -/
def sleep (span : Nat) : Routine σ δ γ Unit := clock fun now => sleepUntil (now + span)

/-- Waits until the state is right, but no longer than a span; the state is what tells which. -/
def awaitWithin (span : Nat) (ready : σ → Bool) : Routine σ δ γ Unit :=
  clock fun now => pause (some (now + span)) ready (done ())

/-- Goes through a gate, works there, and leaves it. -/
def through (gate : γ) (r : Routine σ δ γ α) : Routine σ δ γ α :=
  enter gate (r.bind fun a => leave gate (done a))

end Routine

end Switchboard
