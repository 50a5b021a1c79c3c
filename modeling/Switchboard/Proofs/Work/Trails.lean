import Switchboard.Work.Machine

/-!
# Trails of routines

A trail of a routine is what it does to the shared state until it ends, step by step: the state
that a step found and the state that it left. Others may change the state between two steps in any
way, so a trail tells of a routine among others, however their steps fall between its own. Where
nobody comes between, every step finds what the one before it left, and that is what a machine runs.
-/

namespace Switchboard

namespace Routine

variable {σ δ γ α β : Type}

/-- A routine ends with a value after some steps of its own. It passes a wait in a state that is
right, or in any other if it waits for a time as well. -/
inductive Trail : Routine σ δ γ α → List (σ × σ) → α → Prop where
  /-- The end. -/
  | done (a : α) : Trail (.done a) [] a
  /-- One step in the state that others left. -/
  | act {update : σ → σ} {next : σ → Routine σ δ γ α} {s : σ} {steps : List (σ × σ)} {a : α}
      (h : Trail (next s) steps a) : Trail (.act update next) ((s, update s) :: steps) a
  /-- A duty begins. -/
  | start {duty : δ} {next : TaskId → Routine σ δ γ α} {task : TaskId} {steps : List (σ × σ)}
      {a : α} (h : Trail (next task) steps a) : Trail (.start duty next) steps a
  /-- A task is called off. -/
  | cancel {task : TaskId} {next : Routine σ δ γ α} {steps : List (σ × σ)} {a : α}
      (h : Trail next steps a) : Trail (.cancel task next) steps a
  /-- The clock is read. -/
  | clock {next : Nat → Routine σ δ γ α} {time : Nat} {steps : List (σ × σ)} {a : α}
      (h : Trail (next time) steps a) : Trail (.clock next) steps a
  /-- A wait is over. -/
  | pause {until? : Option Nat} {ready : σ → Bool} {next : Routine σ δ γ α} {s : σ}
      {steps : List (σ × σ)} {a : α} (hready : ready s = true ∨ until?.isSome = true)
      (h : Trail next steps a) : Trail (.pause until? ready next) ((s, s) :: steps) a
  /-- A gate is passed. -/
  | enter {gate : γ} {next : Routine σ δ γ α} {steps : List (σ × σ)} {a : α}
      (h : Trail next steps a) : Trail (.enter gate next) steps a
  /-- A gate is left. -/
  | leave {gate : γ} {next : Routine σ δ γ α} {steps : List (σ × σ)} {a : α}
      (h : Trail next steps a) : Trail (.leave gate next) steps a

/-- Steps lead from one state to another, with what others do before, between and after them. -/
def Leads (others : σ → σ → Prop) : σ → List (σ × σ) → σ → Prop
  | s, [], s' => others s s'
  | s, (found, left) :: rest, s' => others s found ∧ Leads others left rest s'

/-- What leads somewhere among some others does so among others that do more. -/
theorem Leads.mono {others wider : σ → σ → Prop} (hwider : ∀ {s s'}, others s s' → wider s s')
    {s s' : σ} {steps : List (σ × σ)} (h : Leads others s steps s') : Leads wider s steps s' := by
  induction steps generalizing s with
  | nil => exact hwider h
  | cons step rest ih => exact ⟨hwider h.1, ih h.2⟩

/-- Steps after others lead on where those led. -/
theorem leads_append {others : σ → σ → Prop} (hrefl : ∀ s, others s s)
    (htrans : ∀ {a b c}, others a b → others b c → others a c) {s s' : σ}
    {steps more : List (σ × σ)} :
    Leads others s (steps ++ more) s' ↔
      ∃ mid, Leads others s steps mid ∧ Leads others mid more s' := by
  induction steps generalizing s with
  | nil =>
    cases more with
    | nil =>
      exact ⟨fun h => ⟨s', h, hrefl s'⟩, fun ⟨_, h, h'⟩ => htrans h h'⟩
    | cons step rest =>
      exact ⟨fun ⟨h, hrest⟩ => ⟨step.1, h, hrefl _, hrest⟩,
        fun ⟨_, h, h', hrest⟩ => ⟨htrans h h', hrest⟩⟩
  | cons step rest ih =>
    obtain ⟨found, left⟩ := step
    simp only [List.cons_append, Leads, ih]
    constructor
    · rintro ⟨hfound, mid, hrest, hmore⟩
      exact ⟨mid, ⟨hfound, hrest⟩, hmore⟩
    · rintro ⟨mid, ⟨hfound, hrest⟩, hmore⟩
      exact ⟨hfound, mid, hrest, hmore⟩

/-- What every step keeps, and what others keep between them, is kept from the first to the last. -/
theorem Leads.throughout {R : σ → σ → Prop} {s s' : σ} {steps : List (σ × σ)}
    (h : Leads R s steps s') (htrans : ∀ {a b c}, R a b → R b c → R a c)
    (hsteps : ∀ step ∈ steps, R step.1 step.2) : R s s' := by
  induction steps generalizing s with
  | nil => exact h
  | cons step rest ih =>
    obtain ⟨hfound, hrest⟩ := h
    have hstep := hsteps step List.mem_cons_self
    exact htrans (htrans hfound hstep)
      (ih hrest fun step hm => hsteps step (List.mem_cons_of_mem _ hm))

/-- What every step keeps, steps between which nobody comes keep together. -/
theorem Leads.keeps {s s' : σ} {steps : List (σ × σ)} (h : Leads Eq s steps s')
    {R : σ → σ → Prop} (hrefl : ∀ s, R s s) (htrans : ∀ {a b c}, R a b → R b c → R a c)
    (hsteps : ∀ step ∈ steps, R step.1 step.2) : R s s' := by
  have hR : Leads R s steps s' := h.mono (by rintro s _ rfl; exact hrefl s)
  exact hR.throughout htrans hsteps

section Laws

variable {steps : List (σ × σ)} {a : α} {b : β}

/-- The trails of one routine after another. -/
theorem trail_bind_iff {r : Routine σ δ γ α} {k : α → Routine σ δ γ β} :
    Trail (r >>= k) steps b ↔
      ∃ a first rest, Trail r first a ∧ Trail (k a) rest b ∧ steps = first ++ rest := by
  change Trail (r.bind k) steps b ↔ _
  constructor
  · intro h
    induction r generalizing steps with
    | done a => exact ⟨a, [], steps, .done a, h, rfl⟩
    | act update next ih =>
      cases h with
      | act h =>
        obtain ⟨a, first, rest, hfirst, hrest, rfl⟩ := ih _ h
        exact ⟨a, _ :: first, rest, .act hfirst, hrest, rfl⟩
    | start duty next ih =>
      cases h with
      | start h =>
        obtain ⟨a, first, rest, hfirst, hrest, rfl⟩ := ih _ h
        exact ⟨a, first, rest, .start hfirst, hrest, rfl⟩
    | cancel task next ih =>
      cases h with
      | cancel h =>
        obtain ⟨a, first, rest, hfirst, hrest, rfl⟩ := ih h
        exact ⟨a, first, rest, .cancel hfirst, hrest, rfl⟩
    | clock next ih =>
      cases h with
      | clock h =>
        obtain ⟨a, first, rest, hfirst, hrest, rfl⟩ := ih _ h
        exact ⟨a, first, rest, .clock hfirst, hrest, rfl⟩
    | pause time ready next ih =>
      cases h with
      | pause hready h =>
        obtain ⟨a, first, rest, hfirst, hrest, rfl⟩ := ih h
        exact ⟨a, _ :: first, rest, .pause hready hfirst, hrest, rfl⟩
    | enter gate next ih =>
      cases h with
      | enter h =>
        obtain ⟨a, first, rest, hfirst, hrest, rfl⟩ := ih h
        exact ⟨a, first, rest, .enter hfirst, hrest, rfl⟩
    | leave gate next ih =>
      cases h with
      | leave h =>
        obtain ⟨a, first, rest, hfirst, hrest, rfl⟩ := ih h
        exact ⟨a, first, rest, .leave hfirst, hrest, rfl⟩
  · rintro ⟨a, first, rest, hfirst, hrest, rfl⟩
    induction hfirst with
    | done a => exact hrest
    | act h ih => exact .act (ih hrest)
    | start h ih => exact .start (ih hrest)
    | cancel h ih => exact .cancel (ih hrest)
    | clock h ih => exact .clock (ih hrest)
    | pause hready h ih => exact .pause hready (ih hrest)
    | enter h ih => exact .enter (ih hrest)
    | leave h ih => exact .leave (ih hrest)

/-- A value leaves no trace. -/
@[simp]
theorem trail_pure_iff {a' : α} :
    Trail (pure a' : Routine σ δ γ α) steps a ↔ steps = [] ∧ a = a' := by
  constructor
  · rintro ⟨⟩
    exact ⟨rfl, rfl⟩
  · rintro ⟨rfl, rfl⟩
    exact .done a

/-- A step leaves one trace, the state that it found and the state that it left. -/
@[simp]
theorem trail_step_iff {f : σ → α × σ} :
    Trail (step f : Routine σ δ γ α) steps a ↔ ∃ s, steps = [(s, (f s).2)] ∧ a = (f s).1 := by
  constructor
  · rintro (_ | h)
    obtain ⟨rfl, rfl⟩ := trail_pure_iff.mp h
    exact ⟨_, rfl, rfl⟩
  · rintro ⟨s, rfl, rfl⟩
    exact .act (.done _)

/-- A look finds some state and leaves it as it is. -/
@[simp]
theorem trail_look_iff {f : σ → α} :
    Trail (look f : Routine σ δ γ α) steps a ↔ ∃ s, steps = [(s, s)] ∧ a = f s := by
  constructor
  · rintro (_ | h)
    obtain ⟨rfl, rfl⟩ := trail_pure_iff.mp h
    exact ⟨_, rfl, rfl⟩
  · rintro ⟨s, rfl, rfl⟩
    exact .act (.done _)

/-- A change finds some state and leaves what it makes of it. -/
@[simp]
theorem trail_modify_iff {f : σ → σ} {u : Unit} :
    Trail (modify f : Routine σ δ γ Unit) steps u ↔ ∃ s, steps = [(s, f s)] := by
  constructor
  · rintro (_ | h)
    obtain ⟨rfl, -⟩ := trail_pure_iff.mp h
    exact ⟨_, rfl⟩
  · rintro ⟨s, rfl⟩
    exact .act (.done _)

/-- A wait is over in a state in which what it is for is there. -/
@[simp]
theorem trail_await_iff {ready : σ → Bool} {u : Unit} :
    Trail (await ready : Routine σ δ γ Unit) steps u ↔ ∃ s, ready s = true ∧ steps = [(s, s)] := by
  constructor
  · rintro (_ | _ | _ | _ | _ | ⟨hready, h⟩)
    obtain ⟨rfl, -⟩ := trail_pure_iff.mp h
    exact ⟨_, by simpa using hready, rfl⟩
  · rintro ⟨s, hready, rfl⟩
    exact .pause (.inl hready) (.done _)

/-- A gate leaves no trace. -/
@[simp]
theorem trail_through_iff {gate : γ} {r : Routine σ δ γ α} :
    Trail (through gate r) steps a ↔ Trail r steps a := by
  constructor
  · rintro (_ | _ | _ | _ | _ | _ | h)
    obtain ⟨_, _, _, hfirst, hleave, rfl⟩ := trail_bind_iff.mp h
    cases hleave with
    | leave hdone =>
      obtain ⟨rfl, rfl⟩ := trail_pure_iff.mp hdone
      rwa [List.append_nil]
  · intro h
    exact .enter (trail_bind_iff.mpr ⟨a, steps, [], h, .leave (.done a), by rw [List.append_nil]⟩)

/-- A wait for a span may be over in any state. -/
@[simp]
theorem trail_awaitWithin_iff {span : Nat} {ready : σ → Bool} {u : Unit} :
    Trail (awaitWithin span ready : Routine σ δ γ Unit) steps u ↔ ∃ s, steps = [(s, s)] := by
  constructor
  · rintro (_ | _ | _ | _ | @⟨_, time, _, _, h⟩)
    obtain _ | _ | _ | _ | _ | ⟨-, h⟩ := h
    obtain ⟨rfl, -⟩ := trail_pure_iff.mp h
    exact ⟨_, rfl⟩
  · rintro ⟨s, rfl⟩
    have hpause :
        Trail (pause (some (0 + span)) ready (done ()) : Routine σ δ γ Unit) [(s, s)] () :=
      .pause (.inr rfl) (.done _)
    exact .clock hpause

end Laws

/-! ### What every step keeps -/

/-- Every step of a routine relates the state that it found to the state that it left. -/
def Keeps (R : σ → σ → Prop) (r : Routine σ δ γ α) : Prop :=
  ∀ (steps : List (σ × σ)) (a : α), Trail r steps a → ∀ step ∈ steps, R step.1 step.2

section Keeps

variable {R : σ → σ → Prop}

/-- A value takes no step. -/
theorem keeps_pure (a : α) : Keeps R (pure a : Routine σ δ γ α) := by
  intro steps b h
  obtain ⟨rfl, -⟩ := trail_pure_iff.mp h
  exact nofun

/-- What two routines keep, one after the other keeps. -/
theorem Keeps.bind {r : Routine σ δ γ α} {k : α → Routine σ δ γ β} (hr : Keeps R r)
    (hk : ∀ a, Keeps R (k a)) : Keeps R (r >>= k) := by
  intro steps b h
  obtain ⟨a, first, rest, hfirst, hrest, rfl⟩ := trail_bind_iff.mp h
  intro step hstep
  exact (List.mem_append.mp hstep).elim (hr first a hfirst step) (hk a rest b hrest step)

/-- A step keeps what its update keeps. -/
theorem keeps_step {f : σ → α × σ} (h : ∀ s, R s (f s).2) :
    Keeps R (step f : Routine σ δ γ α) := by
  intro steps a htrail
  obtain ⟨s, rfl, -⟩ := trail_step_iff.mp htrail
  exact List.forall_mem_singleton.mpr (h s)

/-- A change keeps what its update keeps. -/
theorem keeps_modify {f : σ → σ} (h : ∀ s, R s (f s)) :
    Keeps R (modify f : Routine σ δ γ Unit) := by
  intro steps a htrail
  obtain ⟨s, rfl⟩ := trail_modify_iff.mp htrail
  exact List.forall_mem_singleton.mpr (h s)

/-- Work on each of a list keeps what it keeps on every one. -/
theorem keeps_forM {work : β → Routine σ δ γ PUnit} (h : ∀ b, Keeps R (work b)) (l : List β) :
    Keeps R (l.forM work) := by
  induction l with
  | nil => exact keeps_pure _
  | cons b rest ih => exact (h b).bind fun _ => ih

/-- A task is begun without a step. -/
theorem keeps_begin (duty : δ) : Keeps R (begin duty : Routine σ δ γ TaskId) := by
  rintro steps a (_ | _ | h)
  exact keeps_pure _ _ _ h

/-- The clock is read without a step. -/
theorem keeps_now : Keeps R (now : Routine σ δ γ Nat) := by
  rintro steps a (_ | _ | _ | _ | h)
  exact keeps_pure _ _ _ h

variable (hrefl : ∀ s, R s s)

include hrefl

/-- A look keeps what every state keeps of itself. -/
theorem keeps_look (f : σ → α) : Keeps R (look f : Routine σ δ γ α) := by
  intro steps a h
  obtain ⟨s, rfl, -⟩ := trail_look_iff.mp h
  exact List.forall_mem_singleton.mpr (hrefl s)

/-- A wait keeps what every state keeps of itself. -/
theorem keeps_await (ready : σ → Bool) : Keeps R (await ready : Routine σ δ γ Unit) := by
  intro steps u h
  obtain ⟨s, -, rfl⟩ := trail_await_iff.mp h
  exact List.forall_mem_singleton.mpr (hrefl s)

/-- A wait for a span keeps what every state keeps of itself. -/
theorem keeps_awaitWithin (span : Nat) (ready : σ → Bool) :
    Keeps R (awaitWithin span ready : Routine σ δ γ Unit) := by
  intro steps u h
  obtain ⟨s, rfl⟩ := trail_awaitWithin_iff.mp h
  exact List.forall_mem_singleton.mpr (hrefl s)

/-- A sleep keeps what every state keeps of itself. -/
theorem keeps_sleep (span : Nat) : Keeps R (sleep span : Routine σ δ γ Unit) :=
  keeps_awaitWithin hrefl span fun _ => false

end Keeps

/-! ### Routines that nobody has to help -/

/-- From every state a routine comes to its end with nobody coming between. -/
def Passes (r : Routine σ δ γ α) : Prop :=
  ∀ s, ∃ steps a s', Trail r steps a ∧ Leads Eq s steps s'

/-- A value is an end. -/
theorem passes_pure (a : α) : Passes (pure a : Routine σ δ γ α) :=
  fun s => ⟨[], a, s, .done a, rfl⟩

/-- One routine after another comes to its end if each does. -/
theorem Passes.bind {r : Routine σ δ γ α} {k : α → Routine σ δ γ β} (hr : Passes r)
    (hk : ∀ a, Passes (k a)) : Passes (r >>= k) := by
  intro s
  obtain ⟨first, a, mid, hfirst, hmid⟩ := hr s
  obtain ⟨rest, b, s', hrest, hend⟩ := hk a mid
  exact ⟨first ++ rest, b, s', trail_bind_iff.mpr ⟨a, first, rest, hfirst, hrest, rfl⟩,
    (leads_append (fun _ => rfl) Eq.trans).mpr ⟨mid, hmid, hend⟩⟩

/-- A step needs nobody. -/
theorem passes_step (f : σ → α × σ) : Passes (step f : Routine σ δ γ α) :=
  fun s => ⟨_, _, (f s).2, trail_step_iff.mpr ⟨s, rfl, rfl⟩, rfl, rfl⟩

/-- A look needs nobody. -/
theorem passes_look (f : σ → α) : Passes (look f : Routine σ δ γ α) :=
  fun s => ⟨_, _, s, trail_look_iff.mpr ⟨s, rfl, rfl⟩, rfl, rfl⟩

/-- A change needs nobody. -/
theorem passes_modify (f : σ → σ) : Passes (modify f : Routine σ δ γ Unit) :=
  fun s => ⟨_, (), f s, trail_modify_iff.mpr ⟨s, rfl⟩, rfl, rfl⟩

/-- A task is begun without help. -/
theorem passes_begin (duty : δ) : Passes (begin duty : Routine σ δ γ TaskId) :=
  fun s => ⟨[], 0, s, .start (.done 0), rfl⟩

/-- The clock is read without help. -/
theorem passes_now : Passes (now : Routine σ δ γ Nat) :=
  fun s => ⟨[], 0, s, .clock (.done 0), rfl⟩

/-- A sleep ends without help. -/
theorem passes_sleep (span : Nat) : Passes (sleep span : Routine σ δ γ Unit) :=
  fun s => ⟨_, (), s, trail_awaitWithin_iff.mpr ⟨s, rfl⟩, rfl, rfl⟩

/-- Work on each of a list comes to its end if it does on every one. -/
theorem passes_forM {work : β → Routine σ δ γ PUnit} (h : ∀ b, Passes (work b)) (l : List β) :
    Passes (l.forM work) := by
  induction l with
  | nil => exact passes_pure _
  | cons b rest ih => exact (h b).bind fun _ => ih

end Routine

namespace Machine

open Routine

variable {σ δ γ α : Type} [DecidableEq γ]

end Machine

end Switchboard
