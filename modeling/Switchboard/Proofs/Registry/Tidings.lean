import Switchboard.Proofs.Registry.Overlap

/-!
# What overlapping calls tell of data

Calls change the tree one after the other and tell what they changed later, each in its own time.
Everything is told once all calls have returned, and nothing else is; so a path for which no change
was made while an earlier one was untold is told of in the order of its changes, and what is told
last is its data. Two calls that overlap on one path may tell in the other order: then whoever
believes the log believes in data that is gone.
-/

namespace Switchboard.Overlap

open TreeEvent (tellings)

variable {path : String} {events : List TreeEvent}

/-- Events tell of the data of a path just if it is among the paths that they tell of. -/
theorem mem_toldPaths_iff : path ∈ toldPaths events ↔ tellings path events ≠ [] := by
  simp only [toldPaths, List.mem_filterMap]
  constructor
  · rintro ⟨event, hm, hsome⟩
    cases event <;> cases hsome
    exact List.ne_nil_of_mem (TreeEvent.mem_tellings_iff.mpr hm)
  · intro hne
    obtain ⟨data, hm⟩ := List.exists_mem_of_ne_nil _ hne
    exact ⟨_, TreeEvent.mem_tellings_iff.mp hm, rfl⟩

/-- Events tell nothing of a path just if none of them does. -/
theorem tellings_eq_nil_iff :
    tellings path events = [] ↔ ∀ event ∈ events, tellings path [event] = [] := by
  induction events with
  | nil => simp [tellings]
  | cons event rest ih =>
    rw [List.forall_mem_cons, ← ih, ← List.append_eq_nil_iff, ← TreeEvent.tellings_append,
      List.singleton_append]

namespace Scene

variable {s : Scene} {t : CallId}

/-- Whether an untold event is about the data of a path. -/
def IsAbout (path : String) (entry : CallId × TreeEvent) : Prop := tellings path [entry.2] ≠ []

/-- What happened is told or will be; the tree has the data that was put last; and as long as no
change of a path is made while an earlier one is untold, the path is told of in order. -/
structure Told (s : Scene) : Prop where
  all : s.made.Perm (s.coordinator.log.toList ++ s.untold.map Prod.snd)
  data : ∀ path, s.coordinator.tree.data? path = (tellings path s.made).getLast?.join
  alone : ∀ path, path ∉ s.crossed → ∀ entry ∈ s.untold, ∀ other ∈ s.untold,
    IsAbout path entry → IsAbout path other → entry.1 = other.1
  inOrder : ∀ path, path ∉ s.crossed →
    tellings path s.made = tellings path s.coordinator.log.toList ++ s.owed path

private theorem map_snd_map (t : CallId) (events : List TreeEvent) :
    (events.map (t, ·)).map Prod.snd = events := by
  rw [List.map_map]
  exact List.map_id _

/-- Nothing has happened to a new coordinator. -/
theorem told_empty : Told {} := by
  constructor <;> simp [Tree.data?, tellings, owed]

/-- A scene is as truthful as one with the same tree and the same events. -/
theorem Told.congr {s' : Scene} (h : Told s) (htree : s'.coordinator.tree = s.coordinator.tree)
    (hlog : s'.coordinator.log = s.coordinator.log) (huntold : s'.untold = s.untold)
    (hmade : s'.made = s.made) (hcrossed : s'.crossed = s.crossed) : Told s' where
  all := by rw [hmade, hlog, huntold]; exact h.all
  data := by rw [htree, hmade]; exact h.data
  alone := by rw [hcrossed, huntold]; exact h.alone
  inOrder := by rw [hcrossed, hmade, hlog]; unfold owed; rw [huntold]; exact h.inOrder

private theorem Told.move (h : Told s) (t : CallId) (stage : Stage) : Told (s.move t stage) :=
  h.congr rfl rfl rfl rfl rfl

/-- Of a path that no change crosses, what a call keeps in mind tells nothing, or what was untold
before tells nothing. -/
theorem tellings_eq_nil_or_of_keep (hpath : path ∉ (s.keep t events).crossed) :
    path ∉ s.crossed ∧ (tellings path events = [] ∨ s.owed path = []) := by
  simp only [keep, List.mem_append, List.mem_filter, not_or, not_and, mem_toldPaths_iff] at hpath
  refine ⟨hpath.1, or_iff_not_imp_left.mpr fun htold => ?_⟩
  simpa using hpath.2 htold

/-- What is told of the tree stays true when a call changes it and keeps in mind what it changed. -/
theorem Told.keep (h : Told s) {tree : Tree} (hdata : ∀ path, tree.data? path =
      (tellings path events).getLast?.getD (s.coordinator.tree.data? path)) :
    Told { s.keep t events with coordinator := { s.coordinator with tree } } where
  all := by
    simp only [Scene.keep, List.map_append, map_snd_map, ← List.append_assoc]
    exact h.all.append_right events
  data path := by
    simp only [Scene.keep, TreeEvent.tellings_append, List.getLast?_append, hdata, h.data]
    cases (tellings path events).getLast? <;> rfl
  alone := by
    intro path hpath entry hentry other hother habout habout'
    obtain ⟨hpath, hnone⟩ := tellings_eq_nil_or_of_keep (t := t) hpath
    have hnew : ∀ entry ∈ events.map (t, ·), IsAbout path entry → tellings path events ≠ [] := by
      intro entry hm habout hnil
      obtain ⟨event, hevent, rfl⟩ := List.mem_map.mp hm
      exact habout (tellings_eq_nil_iff.mp hnil event hevent)
    have hold : ∀ entry ∈ s.untold, IsAbout path entry → s.owed path ≠ [] := by
      intro entry hm habout hnil
      exact habout (tellings_eq_nil_iff.mp hnil _ (List.mem_map_of_mem hm))
    have htag : ∀ entry ∈ events.map (t, ·), entry.1 = t := by
      intro entry hm
      obtain ⟨event, -, rfl⟩ := List.mem_map.mp hm
      rfl
    rcases List.mem_append.mp hentry with hentry | hentry <;>
      rcases List.mem_append.mp hother with hother | hother
    · exact h.alone path hpath entry hentry other hother habout habout'
    · exact absurd (hold entry hentry habout) (by simpa [hnew other hother habout'] using hnone)
    · exact absurd (hold other hother habout') (by simpa [hnew entry hentry habout] using hnone)
    · rw [htag entry hentry, htag other hother]
  inOrder := by
    intro path hpath
    obtain ⟨hpath, -⟩ := tellings_eq_nil_or_of_keep (t := t) hpath
    simp only [Scene.keep, owed, List.map_append, map_snd_map, TreeEvent.tellings_append,
      h.inOrder path hpath, List.append_assoc]

/-- A change of the tree is told as it happens. -/
theorem Told.put (h : Told s) (session : SessionId) (path : String) (data : Option String)
    (ephemeral : Bool) : Told (s.put t session path data ephemeral) :=
  (h.keep fun _ => Tree.data?_put ..).congr rfl rfl rfl rfl rfl

private theorem Told.removeWhere (h : Told s) (doomed : String → TreeNode → Bool) :
    Told (s.removeWhere t doomed) :=
  h.keep fun _ => Tree.data?_removeWhere ..

private theorem Told.switch (h : Told s) (id : SessionId) (state : SessionState) :
    Told (s.switch t id state) := by
  rcases s.switch_cases t id state with ⟨before, -, -, hswitch⟩ | ⟨-, hswitch⟩
  · have hsame : ∀ path, s.coordinator.tree.data? path =
        (tellings path [.session id state]).getLast?.getD (s.coordinator.tree.data? path) :=
      fun _ => by simp [tellings]
    have hkeep := h.keep (t := t) hsame
    rw [hswitch]
    exact hkeep.congr rfl rfl rfl rfl rfl
  · rwa [hswitch]

/-- What is told next of a path that no change crosses is what is due next. -/
theorem Told.tell (h : Told s) (ended : Option SessionId) : Told (s.tell t ended) := by
  rcases s.tell_cases t ended with ⟨before, entry, rest, hbefore, htag, huntold, htell⟩ | ⟨-, htell⟩
  · have hmem : ∀ other ∈ before ++ rest, other ∈ s.untold := by
      intro other hm
      rw [huntold]
      rcases List.mem_append.mp hm with hm | hm <;> simp [hm]
    have hentry : entry ∈ s.untold := by simp [huntold]
    rw [htell]
    constructor
    · refine h.all.trans ?_
      simp only [huntold, Coordinator.publish, Array.toList_append, List.map_append, List.map_cons,
        List.append_assoc]
      exact (List.perm_middle).append_left _
    · exact h.data
    · exact fun path hpath one hone other hother =>
        h.alone path hpath one (hmem one hone) other (hmem other hother)
    · intro path hpath
      have hearlier : IsAbout path entry → tellings path (before.map Prod.snd) = [] := by
        intro habout
        refine tellings_eq_nil_iff.mpr fun event hm => ?_
        obtain ⟨other, hother, rfl⟩ := List.mem_map.mp hm
        by_contra hne
        exact hbefore other hother ((h.alone path hpath other (hmem other (by simp [hother])) entry
          hentry hne habout).trans htag)
      rw [h.inOrder path hpath]
      simp only [owed, huntold, Coordinator.publish, Array.toList_append, List.map_append,
        TreeEvent.tellings_append, List.append_assoc]
      rw [List.map_cons, ← List.singleton_append, TreeEvent.tellings_append]
      by_cases habout : IsAbout path entry
      · rw [hearlier habout, List.nil_append, List.nil_append]
      · rw [not_not.mp habout, List.nil_append, List.nil_append]
  · exact htell ▸ h.move t _

/-- Every step of every call keeps what is told true. -/
theorem Told.next (h : Told s) (t : CallId) : Told (s.next t) := by
  rw [Scene.next]
  cases s.stage t with
  | idle => exact h
  | begun move =>
    cases move with
    | openSession => exact h.congr rfl rfl rfl rfl rfl
    | put session path data ephemeral | delete session path => exact h.move t _
    | disconnect id | reconnect id => exact (h.switch id _).move t _
    | expire id => exact (h.removeWhere _).congr rfl rfl rfl rfl rfl
  | opening id => exact h.congr rfl rfl rfl rfl rfl
  | putting session path data ephemeral => exact (h.put ..).move t _
  | deleting path => exact (h.removeWhere _).move t _
  | telling ended => exact h.tell ended
  | ending id =>
    have hswept : Told { s with sweeps := s.sweeps.filter (·.1 ≠ t) } :=
      h.congr rfl rfl rfl rfl rfl
    exact (hswept.switch id _).move t _

/-- What is told is true after every run. -/
theorem Told.run (h : Told s) (acts : List Act) : Told (s.run acts) :=
  run_induction (fun _ t _ h _ => h.move t _) (fun _ t h => h.next t) h acts

/-! ### Who has yet to tell -/

/-- Whoever has something to tell is about to tell it. -/
def IsToBeTold (s : Scene) : Prop := ∀ entry ∈ s.untold, ∃ ended, s.stage entry.1 = .telling ended

/-- A call that has nothing to tell may go anywhere. -/
theorem IsToBeTold.move (h : IsToBeTold s) {stage : Stage}
    (hnone : ∀ entry ∈ s.untold, entry.1 ≠ t) : IsToBeTold (s.move t stage) := by
  intro entry hentry
  rw [stage_move_of_ne (hnone entry hentry)]
  exact h entry hentry

/-- A call that has kept something in mind goes on to tell it. -/
theorem IsToBeTold.telling (h : IsToBeTold s) {s' : Scene} {ended : Option SessionId}
    (hstage : s'.stage = Function.update s.stage t (.telling ended))
    (huntold : ∃ events : List TreeEvent, s'.untold = s.untold ++ events.map (t, ·)) :
    IsToBeTold s' := by
  intro entry hentry
  obtain ⟨events, huntold⟩ := huntold
  rw [hstage]
  by_cases htag : entry.1 = t
  · exact ⟨ended, by rw [htag, Function.update_self]⟩
  · rw [Function.update_of_ne htag]
    rw [huntold] at hentry
    rcases List.mem_append.mp hentry with hentry | hentry
    · exact h entry hentry
    · obtain ⟨event, -, rfl⟩ := List.mem_map.mp hentry
      exact absurd rfl htag

private theorem untold_switch (s : Scene) (t : CallId) (id : SessionId) (state : SessionState) :
    ∃ events : List TreeEvent,
      (s.switch t id state).untold = s.untold ++ events.map (t, ·) := by
  rcases s.switch_cases t id state with ⟨before, -, -, h⟩ | ⟨-, h⟩
  · exact ⟨_, congrArg Scene.untold h⟩
  · exact ⟨[], by simp [h]⟩

/-- A session that changes its state is going to tell so. -/
theorem IsToBeTold.switch (h : IsToBeTold s) (id : SessionId) (state : SessionState) :
    IsToBeTold ((s.switch t id state).move t (.telling none)) :=
  h.telling (show _ = Function.update s.stage t (.telling none) by
    simp only [Scene.move, stage_switch]) (untold_switch ..)

/-- A call that is not telling has nothing to tell. -/
theorem IsToBeTold.ne_of_stage (h : IsToBeTold s) (hstage : ∀ ended, s.stage t ≠ .telling ended) :
    ∀ entry ∈ s.untold, entry.1 ≠ t := by
  rintro entry hentry rfl
  obtain ⟨ended, hended⟩ := h entry hentry
  exact hstage ended hended

private theorem IsToBeTold.next (h : IsToBeTold s) (t : CallId) : IsToBeTold (s.next t) := by
  rw [Scene.next]
  cases hstage : s.stage t with
  | idle => exact h
  | begun move =>
    have hnone := h.ne_of_stage (t := t) (by simp [hstage])
    cases move with
    | openSession | put session path data ephemeral | delete session path => exact h.move hnone
    | disconnect id | reconnect id => exact h.switch id _
    | expire id => exact h.telling rfl ⟨_, rfl⟩
  | opening id => exact h.move (h.ne_of_stage (by simp [hstage]))
  | putting session path data ephemeral | deleting path => exact h.telling rfl ⟨_, rfl⟩
  | telling ended =>
    rw [Scene.step]
    rcases s.tell_cases t ended with ⟨before, entry, rest, -, -, huntold, htell⟩ | ⟨hnone, htell⟩
    · rw [htell]
      intro other hother
      refine h other ?_
      rw [huntold]
      rcases List.mem_append.mp hother with hother | hother <;> simp [hother]
    · rw [htell]
      exact h.move hnone
  | ending id =>
    have hswept : IsToBeTold { s with sweeps := s.sweeps.filter (·.1 ≠ t) } := h
    exact hswept.switch id _

private theorem IsToBeTold.run (h : IsToBeTold s) (acts : List Act) : IsToBeTold (s.run acts) :=
  run_induction (fun _ _ _ h hidle => h.move (h.ne_of_stage (by simp [hidle])))
    (fun _ t h => h.next t) h acts

/-- All is told once no call is in progress. -/
theorem untold_eq_nil_of_atRest (h : IsToBeTold s) (hrest : s.AtRest) : s.untold = [] := by
  refine List.eq_nil_iff_forall_not_mem.mpr fun entry hentry => ?_
  obtain ⟨ended, hended⟩ := h entry hentry
  rw [hrest entry.1] at hended
  cases hended

/-- After any run of overlapping calls, once all of them have returned: all that happened is told,
and what happened last to a path's data is what it is. So the data is among what is told of the
path, if anything is; and unless a change of the path was made while an earlier one was untold, it
is what is told last. -/
theorem last_told_of_atRest (acts : List Act) (hrest : (ofActs acts).AtRest) (path : String) :
    let s := ofActs acts
    let told := tellings path s.coordinator.log.toList
    s.made.Perm s.coordinator.log.toList ∧
      s.coordinator.tree.data? path = (tellings path s.made).getLast?.join ∧
      (told ≠ [] → s.coordinator.tree.data? path ∈ told) ∧
      (path ∉ s.crossed → ∀ data, told.getLast? = some data →
        data = s.coordinator.tree.data? path) := by
  intro s told
  have h : Told s := told_empty.run acts
  have hnone : s.untold = [] :=
    untold_eq_nil_of_atRest (IsToBeTold.run (by simp [IsToBeTold]) acts) hrest
  have hperm : s.made.Perm s.coordinator.log.toList := by simpa [hnone] using h.all
  have htold : (tellings path s.made).Perm told := hperm.filterMap _
  refine ⟨hperm, h.data path, fun hne => ?_, fun hpath data hlast => ?_⟩
  · have hmade : tellings path s.made ≠ [] := fun hnil => hne (by simpa [hnil] using htold)
    rw [h.data path, List.getLast?_eq_some_getLast hmade]
    exact htold.subset (List.getLast_mem hmade)
  · have hnothing : s.owed path = [] := by simp [owed, hnone, tellings]
    rw [h.data path, h.inOrder path hpath, hnothing, List.append_nil, hlast, Option.join_some]

/-- Two threads put data at one path; the one that changes the tree first tells of it last. The path
then has the other's data, and nobody is told so any more. -/
theorem last_told_of_overlapping :
    let acts : List Act := [.begin 0 .openSession, .go 0, .go 0,
      .begin 0 (.put 1 "/a" (some "old") false), .go 0, .begin 1 (.put 1 "/a" (some "new") false),
      .go 1, .go 0, .go 1, .go 1, .go 1, .go 0, .go 0, .go 0]
    let s := ofActs acts
    let told := tellings "/a" s.coordinator.log.toList
    s.AtRest ∧ s.made.Perm s.coordinator.log.toList ∧ told ≠ [] ∧
      s.coordinator.tree.data? "/a" ∈ told ∧ s.coordinator.tree.data? "/a" = some "new" ∧
      told.getLast? = some (some "old") ∧ "/a" ∈ s.crossed := by
  intro acts s told
  have hrest : s.AtRest := atRest_run (n := 2) (fun _ => rfl) (by decide) (by decide +kernel)
  have htold : told = [some "new", some "old"] := by decide +kernel
  have hdata : s.coordinator.tree.data? "/a" = some "new" := by decide +kernel
  obtain ⟨hperm, -, hmem, hlast⟩ := last_told_of_atRest acts hrest "/a"
  have hne : told ≠ [] := by simp [htold]
  have hold : told.getLast? = some (some "old") := by rw [htold]; rfl
  refine ⟨hrest, hperm, hne, hmem hne, hdata, hold, ?_⟩
  by_contra hpath
  have hwrong := (hlast hpath (some "old") hold).trans hdata
  simp at hwrong

end Scene

end Switchboard.Overlap
