import Mathlib.Data.List.Induction
import Mathlib.Tactic.Tauto
import Switchboard.Exporter

/-!
# What an exporter remembers

An exporter remembers what it registered, to take it back later. It forgets an address as soon as it
asks for its withdrawal, before it is known whether the registry grants it. So what it remembers is
what stands in the registry for it, less what a withdrawal that failed has left behind there: no
later `unexport` asks for that again.
-/

namespace Switchboard

namespace Exporter

/-- A call of an exporter on its registry, with the outcome. -/
inductive Deed where
  /-- An address was to be registered. -/
  | register (a : Address) (outcome : Outcome Unit)
  /-- An address was to be withdrawn. -/
  | unregister (a : Address) (outcome : Outcome Unit)

/-- Some deed of a log is of the first kind, and none after it of the second. -/
def Since (first second : Deed → Prop) (log : List Deed) : Prop :=
  ∃ before deed after, log = before ++ deed :: after ∧ first deed ∧ ∀ later ∈ after, ¬ second later

/-- An address was registered, and not withdrawn since. -/
def Standing (a : Address) : List Deed → Prop :=
  Since (· = .register a (.ok ())) (· = .unregister a (.ok ()))

/-- A withdrawal of an address failed, and it was not registered since. -/
def LeftBehind (a : Address) : List Deed → Prop :=
  Since (fun deed => ∃ f, deed = .unregister a (.error f)) (· = .register a (.ok ()))

/-- An address was registered, and its withdrawal not asked for since. -/
def Unasked (a : Address) : List Deed → Prop :=
  Since (· = .register a (.ok ())) (fun deed => ∃ outcome, deed = .unregister a outcome)

/-- How a registry answers, given the calls made before. -/
structure Answers where
  register : List Deed → Address → Outcome Unit
  unregister : List Deed → Address → Outcome Unit

namespace Answers

/-- Asks a registry to register an address, and writes that down. -/
def enrol (answers : Answers) (a : Address) : StateM (List Deed) (Outcome Unit) := fun log =>
  (answers.register log a, log ++ [.register a (answers.register log a)])

/-- Asks a registry to withdraw an address, and writes that down. -/
def release (answers : Answers) (a : Address) : StateM (List Deed) (Outcome Unit) := fun log =>
  (answers.unregister log a, log ++ [.unregister a (answers.unregister log a)])

/-- A registration is answered by the registry and written down. -/
theorem run_enrol (answers : Answers) (a : Address) (log : List Deed) :
    (answers.enrol a).run log =
      (answers.register log a, log ++ [.register a (answers.register log a)]) :=
  rfl

/-- A withdrawal is answered by the registry and written down. -/
theorem run_release (answers : Answers) (a : Address) (log : List Deed) :
    (answers.release a).run log =
      (answers.unregister log a, log ++ [.unregister a (answers.unregister log a)]) :=
  rfl

end Answers

/-- What may be asked of an exporter. -/
inductive Act where
  /-- Announce commands in a group. -/
  | announce (group : String) (commands : List Command)
  /-- Take back all that was announced. -/
  | unexport

/-- Does what is asked of an exporter. -/
def Act.perform (answers : Answers) : Act → Exporter → StateM (List Deed) Exporter
  | .announce group commands, e => Prod.snd <$> exportAll answers.enrol group e commands
  | .unexport, e => Prod.snd <$> Exporter.unexport answers.release e

/-- A new exporter after what was asked of it, with what it did. -/
def history (answers : Answers) (provider : Address) (acts : List Act) : Exporter × List Deed :=
  (acts.foldlM (fun e act => act.perform answers e) { provider } : StateM _ _).run []

variable {answers : Answers} {a b : Address} {log : List Deed} {deed : Deed}

/-! ### What stands, by the deed done last -/

section Since

variable {first second : Deed → Prop}

private theorem not_since_nil : ¬ Since first second [] := by
  rintro ⟨before, deed, after, heq, -⟩
  simp at heq

private theorem since_append_singleton : Since first second (log ++ [deed]) ↔
    first deed ∨ ¬ second deed ∧ Since first second log := by
  constructor
  · rintro ⟨before, d, after, heq, hfirst, hnone⟩
    rcases List.eq_nil_or_concat after with rfl | ⟨after, last, rfl⟩
    · obtain ⟨-, hdeed⟩ := List.append_inj' heq rfl
      cases hdeed
      exact .inl hfirst
    · rw [List.concat_eq_append, ← List.cons_append, ← List.append_assoc] at heq
      obtain ⟨rfl, hdeed⟩ := List.append_inj' heq rfl
      cases hdeed
      simp only [List.concat_eq_append, List.forall_mem_append, List.forall_mem_singleton] at hnone
      exact .inr ⟨hnone.2, before, d, after, rfl, hfirst, hnone.1⟩
  · rintro (hfirst | ⟨hsecond, before, d, after, rfl, hfirst, hnone⟩)
    · exact ⟨log, deed, [], rfl, hfirst, by simp⟩
    · refine ⟨before, d, after ++ [deed], by simp, hfirst, ?_⟩
      simpa [or_imp, forall_and] using ⟨hnone, hsecond⟩

end Since

private theorem unasked_register {outcome : Outcome Unit} :
    Unasked a (log ++ [.register b outcome]) ↔ b = a ∧ outcome = .ok () ∨ Unasked a log := by
  simp [Unasked, since_append_singleton]

private theorem unasked_unregister {outcome : Outcome Unit} :
    Unasked a (log ++ [.unregister b outcome]) ↔ b ≠ a ∧ Unasked a log := by
  simp [Unasked, since_append_singleton]

/-- What stands was asked for, or it was left behind. -/
theorem unasked_iff : Unasked a log ↔ Standing a log ∧ ¬ LeftBehind a log := by
  induction log using List.reverseRecOn with
  | nil => simp [Unasked, Standing, not_since_nil]
  | append_singleton log deed ih =>
    rw [Unasked, Standing, LeftBehind] at ih ⊢
    simp only [since_append_singleton, ih]
    cases deed with
    | register b outcome =>
      cases outcome <;> simp
      tauto
    | unregister b outcome =>
      cases outcome <;> simp
      · tauto
      · tauto

/-! ### What one request does -/

/-- An exporter remembers just what was registered and not asked back since. -/
def Remembers (e : Exporter) (log : List Deed) : Prop :=
  ∀ a, a ∈ e.exported ↔ Unasked a log

variable {e : Exporter}

/-- Announcing remembers what it registers, up to the failure that ends it. -/
theorem Remembers.exportAll (h : Remembers e log) (group : String) (commands : List Command) :
    Remembers ((exportAll answers.enrol group e commands).run log).1.2
      ((exportAll answers.enrol group e commands).run log).2 := by
  induction commands generalizing e log with
  | nil => exact h
  | cons c rest ih =>
    simp only [Exporter.exportAll, StateT.run_bind, Answers.run_enrol]
    set address := e.provider.withPath (c.servicePath group)
    cases hanswer : answers.register log address with
    | error f =>
      intro a
      change a ∈ e.exported ↔ Unasked a (log ++ [.register address (.error f)])
      simp [h a, unasked_register]
    | ok =>
      refine ih fun a => ?_
      simp [h a, unasked_register, or_comm, eq_comm]

/-- Taking addresses back asks for each of them, whatever the answers are, and answers with the
first failure. -/
theorem withdrawAll_run (answers : Answers) (addresses : List Address) (log : List Deed) :
    ∃ outcomes : List (Outcome Unit), outcomes.length = addresses.length ∧
      (withdrawAll answers.release addresses).run log =
        (outcomes.forM id, log ++ List.zipWith Deed.unregister addresses outcomes) := by
  induction addresses generalizing log with
  | nil => exact ⟨[], rfl, by rw [List.zipWith_nil_left, List.append_nil]; rfl⟩
  | cons a rest ih =>
    obtain ⟨outcomes, hlength, hrun⟩ := ih (log ++ [.unregister a (answers.unregister log a)])
    refine ⟨answers.unregister log a :: outcomes, by simp [hlength], ?_⟩
    rw [← List.append_cons] at hrun
    simp only [withdrawAll, StateT.run_bind, Answers.run_release, List.zipWith_cons_cons]
    cases hanswer : answers.unregister log a with
    | ok =>
      rw [hanswer] at hrun
      exact hrun
    | error f =>
      rw [hanswer] at hrun
      exact congrArg (fun later : Outcome Unit × List Deed => (Except.error f, later.2)) hrun

/-- Taking back all that was announced asks for what is remembered, and nothing is remembered. -/
theorem unexport_run (answers : Answers) (e : Exporter) (log : List Deed) :
    ∃ outcomes : List (Outcome Unit), outcomes.length = e.exported.length ∧
      (Exporter.unexport answers.release e).run log =
        ((outcomes.forM id, { e with exported := [] }),
          log ++ List.zipWith Deed.unregister e.exported outcomes) := by
  obtain ⟨outcomes, hlength, hrun⟩ := withdrawAll_run answers e.exported log
  refine ⟨outcomes, hlength, ?_⟩
  rw [Exporter.unexport, StateT.run_bind, hrun]
  rfl

private theorem unasked_zipWith_unregister {addresses : List Address}
    {outcomes : List (Outcome Unit)}
    (hlength : outcomes.length = addresses.length) :
    Unasked a (log ++ List.zipWith Deed.unregister addresses outcomes) ↔
      a ∉ addresses ∧ Unasked a log := by
  induction addresses generalizing log outcomes with
  | nil => simp
  | cons b rest ih =>
    cases outcomes with
    | nil => simp at hlength
    | cons outcome outcomes =>
      simp only [List.length_cons, Nat.add_right_cancel_iff] at hlength
      rw [List.zipWith_cons_cons, List.append_cons, ih hlength, unasked_unregister]
      simp only [List.mem_cons, not_or, ne_comm, and_assoc, and_left_comm]

private theorem Remembers.unexport (h : Remembers e log) :
    Remembers ((Exporter.unexport answers.release e).run log).1.2
      ((Exporter.unexport answers.release e).run log).2 := by
  obtain ⟨outcomes, hlength, hrun⟩ := unexport_run answers e log
  intro a
  simp [hrun, unasked_zipWith_unregister hlength, ← h a]

/-- What stands goes on standing while its withdrawal is refused. -/
theorem Standing.withdrawAll (hrefused : ∀ log, ∃ f, answers.unregister log a = .error f)
    (h : Standing a log) (addresses : List Address) :
    Standing a ((Exporter.withdrawAll answers.release addresses).run log).2 := by
  induction addresses generalizing log with
  | nil => exact h
  | cons b rest ih =>
    refine ih (since_append_singleton.mpr (.inr ⟨?_, h⟩))
    intro heq
    obtain ⟨rfl, hgranted⟩ := Deed.unregister.inj heq
    obtain ⟨f, hf⟩ := hrefused log
    exact nomatch hgranted.symm.trans hf

private theorem Remembers.perform (h : Remembers e log) (act : Act) :
    Remembers ((act.perform answers e).run log).1 ((act.perform answers e).run log).2 := by
  cases act with
  | announce group commands => exact h.exportAll group commands
  | unexport => exact h.unexport

/-! ### What a history leaves -/

private theorem Remembers.foldlM (h : Remembers e log) (acts : List Act) :
    Remembers ((acts.foldlM (fun e act => act.perform answers e) e : StateM _ _).run log).1
      ((acts.foldlM (fun e act => act.perform answers e) e : StateM _ _).run log).2 := by
  induction acts generalizing e log with
  | nil => exact h
  | cons act rest ih => exact ih (h.perform act)

private theorem remembers_history (answers : Answers) (provider : Address) (acts : List Act) :
    Remembers (history answers provider acts).1 (history answers provider acts).2 :=
  Remembers.foldlM (fun a => by simp [Unasked, not_since_nil]) acts

private theorem history_unexport (answers : Answers) (provider : Address) (acts : List Act) :
    history answers provider (acts ++ [.unexport]) =
      (Act.unexport.perform answers (history answers provider acts).1).run
        (history answers provider acts).2 := by
  simp only [history, List.foldlM_append, StateT.run_bind, List.foldlM_cons, List.foldlM_nil,
    bind_pure]
  rfl

/-- Whatever is asked of an exporter, and whatever its registry grants: it remembers what stands
for it but for what a failed withdrawal left behind, and just that is what the next `unexport`
asks for. What it remembers and cannot withdraw then stands, and it has forgotten it. -/
theorem exported_of_history (answers : Answers) (provider : Address) (acts : List Act) :
    let (e, log) := history answers provider acts
    (∀ a, a ∈ e.exported ↔ Standing a log ∧ ¬ LeftBehind a log) ∧
      (∃ outcomes : List (Outcome Unit), outcomes.length = e.exported.length ∧
        (Exporter.unexport answers.release e).run log =
          ((outcomes.forM id, { e with exported := [] }),
            log ++ List.zipWith Deed.unregister e.exported outcomes)) ∧
      ∀ a ∈ e.exported, (∀ log, ∃ f, answers.unregister log a = .error f) →
        let (e', log') := history answers provider (acts ++ [.unexport])
        Standing a log' ∧ a ∉ e'.exported := by
  have h := remembers_history answers provider acts
  refine ⟨fun a => (h a).trans unasked_iff, unexport_run answers _ _, fun a ha hrefused => ?_⟩
  rw [history_unexport]
  have hstands := (unasked_iff.mp ((h a).mp ha)).1
  exact ⟨hstands.withdrawAll hrefused _, List.not_mem_nil⟩

/-- A registry that takes every address and gives none back: one command was announced, and
`unexport` has forgotten it while it stands. -/
theorem exported_of_refused_withdrawal :
    let answers : Answers := ⟨fun _ _ => .ok (), fun _ _ => .error (.registry "disconnected")⟩
    let provider : Address := { protocol := some "quic", host := some "a" }
    let acts : List Act := [.announce "g" [⟨"add"⟩]]
    let address := provider.withPath (Command.servicePath ⟨"add"⟩ "g")
    address ∈ (history answers provider acts).1.exported ∧
      (∀ log, ∃ f, answers.unregister log address = .error f) ∧
      Standing address (history answers provider (acts ++ [.unexport])).2 ∧
      address ∉ (history answers provider (acts ++ [.unexport])).1.exported := by
  intro answers provider acts address
  have hmem : address ∈ (history answers provider acts).1.exported := List.mem_singleton_self _
  have hrefused : ∀ log, ∃ f, answers.unregister log address = .error f := fun _ => ⟨_, rfl⟩
  exact ⟨hmem, hrefused,
    (exported_of_history answers provider acts).2.2 address hmem hrefused⟩

end Exporter

end Switchboard
