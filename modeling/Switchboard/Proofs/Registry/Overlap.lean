import Mathlib.Logic.Function.Basic
import Switchboard.Proofs.Registry.Announcements

/-!
# Calls that overlap

Many threads call one coordinator. A put or a deletion first sees whether its session is connected,
then changes the tree, and then tells what it changed, event by event; a session that ends loses its
nodes first, of which all is told, and is marked as ended after that. A scene is the coordinator
among the calls; an act is one step of one call, and a run is a list of acts, the steps of all calls
in any order.
-/

namespace Switchboard.Overlap

open Coordinator (Move)
open TreeEvent (tellings)

/-- Names a thread, which makes one call after the other. -/
abbrev CallId := Nat

/-- How far a call has come. -/
inductive Stage where
  /-- The thread makes no call. -/
  | idle
  /-- It has begun a call. -/
  | begun (move : Move)
  /-- It has drawn the number of a new session, which nobody knows yet. -/
  | opening (id : SessionId)
  /-- The session was connected, and the node is not put yet. -/
  | putting (session : SessionId) (path : String) (data : Option String) (ephemeral : Bool)
  /-- The session was connected, and the nodes are not deleted yet. -/
  | deleting (path : String)
  /-- The change is made, and is told event by event. A session whose nodes were removed because it
  ends is marked after that. -/
  | telling (ended : Option SessionId)
  /-- The nodes of the session are removed, and the session is not marked as ended yet. -/
  | ending (id : SessionId)
deriving DecidableEq

/-- Where a call comes when all is told. -/
def Stage.told : Option SessionId → Stage
  | some id => .ending id
  | none => .idle

/-- One step of one call. -/
inductive Act where
  /-- A thread begins a call. -/
  | begin (call : CallId) (move : Move)
  /-- A call takes its next step. -/
  | go (call : CallId)

/-- The thread that acts. -/
def Act.call : Act → CallId
  | .begin t _ | .go t => t

/-- Whether a thread begins to open a session. -/
def Act.isOpening : Act → Bool
  | .begin _ .openSession => true
  | _ => false

/-- A coordinator among calls. -/
structure Scene where
  /-- The coordinator. -/
  coordinator : Coordinator := {}
  /-- How far every call has come. -/
  stage : CallId → Stage := fun _ => .idle
  /-- What calls have yet to tell, in the order in which it happened. -/
  untold : List (CallId × TreeEvent) := []
  /-- All that happened, in the order in which it did. -/
  made : List TreeEvent := []
  /-- The paths whose data was changed while an earlier change of it was still untold. -/
  crossed : List String := []
  /-- The sessions whose nodes a call has removed and that it has yet to mark as ended. -/
  sweeps : List (CallId × SessionId) := []
  /-- The paths whose node was put for a session after the nodes of the session were removed. -/
  late : List String := []

/-- The paths of whose data events tell. -/
def toldPaths (events : List TreeEvent) : List String :=
  events.filterMap fun
    | .dataChanged path _ => some path
    | _ => none

namespace Scene

/-- A call comes to another stage. -/
def move (s : Scene) (t : CallId) (stage : Stage) : Scene :=
  { s with stage := Function.update s.stage t stage }

/-- What is told of the data of a path by events that are untold. -/
def owed (s : Scene) (path : String) : List (Option String) :=
  tellings path (s.untold.map Prod.snd)

/-- A call keeps in mind what happened, until it tells it. -/
def keep (s : Scene) (t : CallId) (events : List TreeEvent) : Scene :=
  { s with
    untold := s.untold ++ events.map (t, ·)
    made := s.made ++ events
    crossed := s.crossed ++ (toldPaths events).filter fun path => !(s.owed path).isEmpty }

/-- A call changes the tree. -/
def change (s : Scene) (t : CallId) (outcome : Tree × List TreeEvent) : Scene :=
  { s.keep t outcome.2 with coordinator := { s.coordinator with tree := outcome.1 } }

/-- A call puts a node. -/
def put (s : Scene) (t : CallId) (session : SessionId) (path : String) (data : Option String)
    (ephemeral : Bool) : Scene :=
  let isLate := ephemeral && (s.coordinator.sessions[session]? == some .expired ||
    s.sweeps.any (·.2 == session))
  let others := s.late.filter (· ≠ path)
  { s.change t (s.coordinator.tree.put path data (if ephemeral then some session else none)) with
    late := if isLate then path :: others else others }

/-- A call removes the nodes that satisfy a condition. -/
def removeWhere (s : Scene) (t : CallId) (doomed : String → TreeNode → Bool) : Scene :=
  s.change t (s.coordinator.tree.removeWhere doomed)

/-- A session changes its state, unless it has ended or is not open. -/
def switch (s : Scene) (t : CallId) (id : SessionId) (state : SessionState) : Scene :=
  match s.coordinator.sessions[id]? with
  | none | some .expired => s
  | some _ =>
    { s.keep t [.session id state] with
      coordinator := { s.coordinator with sessions := s.coordinator.sessions.insert id state } }

/-- A call tells the next of its events; or there is none left. -/
def tell (s : Scene) (t : CallId) (ended : Option SessionId) : Scene :=
  match s.untold.find? (·.1 == t) with
  | some entry =>
    { s with
      coordinator := s.coordinator.publish [entry.2]
      untold := s.untold.eraseP (·.1 == t) }
  | none => s.move t (.told ended)

/-- The scene after the step of a call from where it is. -/
def step (s : Scene) (t : CallId) : Stage → Scene
  | .idle => s
  | .begun .openSession =>
    { s.move t (.opening s.coordinator.upcoming) with
      coordinator := { s.coordinator with nextSession := s.coordinator.nextSession + 1 } }
  | .opening id =>
    { s.move t .idle with
      coordinator := { s.coordinator with
        sessions := s.coordinator.sessions.insert id .connected } }
  | .begun (.put session path data ephemeral) =>
    s.move t (if s.coordinator.sessions[session]? = some .connected then
      .putting session path data ephemeral else .idle)
  | .putting session path data ephemeral =>
    (s.put t session path data ephemeral).move t (.telling none)
  | .begun (.delete session path) =>
    s.move t (if s.coordinator.sessions[session]? = some .connected then .deleting path else .idle)
  | .deleting path =>
    (s.removeWhere t fun key _ => Tree.isWithin path key).move t (.telling none)
  | .begun (.disconnect id) => (s.switch t id .disconnected).move t (.telling none)
  | .begun (.reconnect id) => (s.switch t id .connected).move t (.telling none)
  | .begun (.expire id) =>
    { (s.removeWhere t fun _ node => node.owner == some id).move t (.telling (some id)) with
      sweeps := (t, id) :: s.sweeps }
  | .telling ended => s.tell t ended
  | .ending id =>
    (Scene.switch { s with sweeps := s.sweeps.filter (·.1 ≠ t) } t id .expired).move t
      (.telling none)

/-- The scene after the next step of a call. -/
def next (s : Scene) (t : CallId) : Scene := s.step t (s.stage t)

/-- The scene after one act. Only a thread that makes no call begins one. -/
def after (s : Scene) : Act → Scene
  | .begin t move =>
    match s.stage t with
    | .idle => s.move t (.begun move)
    | _ => s
  | .go t => s.next t

/-- The scene after a run of acts. -/
def run (s : Scene) (acts : List Act) : Scene := acts.foldl after s

/-- The scene of a new coordinator after a run of acts. -/
def ofActs (acts : List Act) : Scene := run {} acts

/-- Whether no call is in progress. -/
def AtRest (s : Scene) : Prop := ∀ t, s.stage t = .idle

variable {s : Scene} {t : CallId}

/-- What the begin of a call and every step of a call preserve holds along every run. -/
theorem run_induction {P : Scene → Prop}
    (hbegin : ∀ s t move, P s → s.stage t = .idle → P (s.move t (.begun move)))
    (hnext : ∀ s t, P s → P (s.next t)) (h : P s) (acts : List Act) : P (s.run acts) := by
  induction acts generalizing s with
  | nil => exact h
  | cons act rest ih =>
    refine ih ?_
    cases act with
    | go t => exact hnext s t h
    | begin t move =>
      rw [after]
      split
      · next hidle => exact hbegin s t move h hidle
      · exact h

/-- Without the first event of a call, the others are left. -/
theorem eraseP_own {before rest : List (CallId × TreeEvent)} {entry : CallId × TreeEvent}
    (hbefore : ∀ other ∈ before, other.1 ≠ t) (hentry : entry.1 = t) :
    (before ++ entry :: rest).eraseP (·.1 == t) = before ++ rest := by
  rw [List.eraseP_append_right _ fun other hm => by simpa using hbefore other hm]
  simp [hentry]

/-- A call that tells tells the first of its events, unless it has none left. -/
theorem tell_cases (s : Scene) (t : CallId) (ended : Option SessionId) :
    (∃ before entry rest, (∀ other ∈ before, other.1 ≠ t) ∧ entry.1 = t ∧
      s.untold = before ++ entry :: rest ∧ s.tell t ended =
        { s with coordinator := s.coordinator.publish [entry.2], untold := before ++ rest }) ∨
    (∀ entry ∈ s.untold, entry.1 ≠ t) ∧ s.tell t ended = s.move t (.told ended) := by
  unfold tell
  split
  · next entry hfind =>
    obtain ⟨hentry, before, rest, huntold, hbefore⟩ := List.find?_eq_some_iff_append.mp hfind
    have hbefore : ∀ other ∈ before, other.1 ≠ t := by simpa using hbefore
    have hentry : entry.1 = t := by simpa using hentry
    refine .inl ⟨before, entry, rest, hbefore, hentry, huntold, ?_⟩
    rw [huntold, eraseP_own hbefore hentry]
  · next hfind => exact .inr ⟨by simpa using hfind, rfl⟩

/-- The next step of a call is the one its stage says. -/
theorem next_eq {stage : Stage} (h : s.stage t = stage) : s.next t = s.step t stage := by
  rw [next, h]

/-- A call that moves is where it moved. -/
theorem stage_move_self (s : Scene) (t : CallId) (stage : Stage) :
    (s.move t stage).stage t = stage := Function.update_self ..

/-- One call moves at a time. -/
theorem stage_move_of_ne {u : CallId} (h : u ≠ t) (stage : Stage) :
    (s.move t stage).stage u = s.stage u := Function.update_of_ne h ..

/-- A stage to which no call came just now is where the call was before. -/
theorem stage_of_move {u : CallId} {stage stage' : Stage} (h : (s.move t stage).stage u = stage')
    (hne : stage ≠ stage') : s.stage u = stage' := by
  by_cases hu : u = t
  · rw [hu, stage_move_self] at h
    exact absurd h hne
  · rwa [stage_move_of_ne hu] at h

/-- A session changes its state and this is kept in mind, unless it has ended or is not open. -/
theorem switch_cases (s : Scene) (t : CallId) (id : SessionId) (state : SessionState) :
    (∃ before, s.coordinator.sessions[id]? = some before ∧ before ≠ .expired ∧
      s.switch t id state = { s.keep t [.session id state] with
        coordinator := { s.coordinator with
          sessions := s.coordinator.sessions.insert id state } }) ∨
    (s.coordinator.sessions[id]? = none ∨ s.coordinator.sessions[id]? = some .expired) ∧
      s.switch t id state = s := by
  unfold switch
  cases hs : s.coordinator.sessions[id]? with
  | none => exact .inr ⟨.inl rfl, rfl⟩
  | some before =>
    cases before with
    | expired => exact .inr ⟨.inr rfl, rfl⟩
    | connected | disconnected => exact .inl ⟨_, rfl, by simp, rfl⟩

/-- A session that changes its state moves no call. -/
theorem stage_switch (s : Scene) (t : CallId) (id : SessionId) (state : SessionState) :
    (s.switch t id state).stage = s.stage := by
  rcases s.switch_cases t id state with ⟨before, -, -, h⟩ | ⟨-, h⟩ <;> rw [h]
  rfl

private theorem stage_tell_of_ne {u : CallId} (h : u ≠ t) (ended : Option SessionId) :
    (s.tell t ended).stage u = s.stage u := by
  rcases s.tell_cases t ended with ⟨before, entry, rest, -, -, -, htell⟩ | ⟨-, htell⟩
  · rw [htell]
  · rw [htell, stage_move_of_ne h]

/-- A step of a call leaves the others where they are. -/
theorem stage_next_of_ne {u : CallId} (h : u ≠ t) : (s.next t).stage u = s.stage u := by
  have hswitch : ∀ (s : Scene) id state,
      ((s.switch t id state).move t (.telling none)).stage u = s.stage u :=
    fun s id state => (stage_move_of_ne h _).trans (by rw [stage_switch])
  unfold next step
  split
  all_goals first
    | rfl
    | exact stage_move_of_ne h _
    | exact stage_tell_of_ne h _
    | exact hswitch ..

/-- The threads that act are the only ones that are anywhere but at rest. -/
theorem atRest_run {acts : List Act} {n : CallId} (hrest : s.AtRest)
    (hacts : ∀ act ∈ acts, act.call < n)
    (h : ∀ u < n, (s.run acts).stage u = .idle) : (s.run acts).AtRest := by
  intro t
  by_cases ht : t < n
  · exact h t ht
  · have hstay : ∀ s : Scene, (s.run acts).stage t = s.stage t := by
      clear h hrest
      induction acts with
      | nil => exact fun _ => rfl
      | cons act rest ih =>
        intro s
        have hne : ∀ u < n, t ≠ u := fun u hu heq => ht (heq ▸ hu)
        have hact := hacts act List.mem_cons_self
        refine (ih (fun a ha => hacts a (List.mem_cons_of_mem _ ha)) _).trans ?_
        cases act with
        | begin u move =>
          simp only [after]
          split
          · exact stage_move_of_ne (hne u hact) _
          · rfl
        | go u => exact stage_next_of_ne (hne u hact)
    rw [hstay, hrest]

/-! ### Calls that nobody interrupts

Done without a pause, the steps of a call are the move of the coordinator. -/

/-- A call that nobody interrupts brings the coordinator to a state and itself to a stage, and has
told all by then. -/
def Completes (t : CallId) (s : Scene) (c : Coordinator) (stage : Stage)
    (untold : List (CallId × TreeEvent)) : Prop :=
  ∃ n, ∃ s' : Scene, s.run (List.replicate n (.go t)) = s' ∧ s'.coordinator = c ∧
    s'.stage = Function.update s.stage t stage ∧ s'.untold = untold

variable {c : Coordinator} {stage : Stage} {untold : List (CallId × TreeEvent)}

/-- A call has come to where it is. -/
theorem Completes.here (hstage : s.stage t = stage) :
    Completes t s s.coordinator stage s.untold :=
  ⟨0, s, rfl, rfl, by rw [← hstage, Function.update_eq_self], rfl⟩

/-- A call that is at a stage takes its step from there. -/
theorem Completes.step {from' : Stage} (hfrom : s.stage t = from')
    (h : Completes t (s.step t from') c stage untold) : Completes t s c stage untold := by
  obtain ⟨n, s', hrun, hc, hstage, huntold⟩ := h
  rw [← next_eq hfrom] at hrun hstage
  refine ⟨n + 1, s', hrun, hc, hstage.trans ?_, huntold⟩
  funext u
  by_cases hu : u = t
  · rw [hu, Function.update_self, Function.update_self]
  · rw [Function.update_of_ne hu, Function.update_of_ne hu, stage_next_of_ne hu]

/-- A call goes on from where it has come to. -/
theorem Completes.trans {c' : Coordinator} {stage' : Stage} {untold' : List (CallId × TreeEvent)}
    (h : Completes t s c stage untold)
    (hrest : ∀ s' : Scene, s'.coordinator = c → s'.stage t = stage → s'.untold = untold →
      Completes t s' c' stage' untold') : Completes t s c' stage' untold' := by
  obtain ⟨n, s', hrun, hc, hstage, huntold⟩ := h
  obtain ⟨m, s'', hrun', hc', hstage', huntold'⟩ :=
    hrest s' hc (by rw [hstage, Function.update_self]) huntold
  refine ⟨n + m, s'', ?_, hc', ?_, huntold'⟩
  · rw [← List.replicate_append_replicate, run, List.foldl_append]
    exact (congrArg (run · (List.replicate m (.go t))) hrun).trans hrun'
  · rw [hstage', hstage, Function.update_idem]

private theorem publish_nil (c : Coordinator) : c.publish [] = c := by simp [Coordinator.publish]

private theorem publish_publish (c : Coordinator) (event : TreeEvent) (rest : List TreeEvent) :
    (c.publish [event]).publish rest = c.publish (event :: rest) := by
  simp [Coordinator.publish]

/-- A call that is not interrupted tells all that it has to tell. -/
theorem completes_tell (ended : Option SessionId) {before : List (CallId × TreeEvent)}
    {events : List TreeEvent} (hstage : s.stage t = .telling ended)
    (hbefore : ∀ entry ∈ before, entry.1 ≠ t) (huntold : s.untold = before ++ events.map (t, ·)) :
    Completes t s (s.coordinator.publish events) (.told ended) before := by
  have hnone : before.find? (·.1 == t) = none :=
    List.find?_eq_none.mpr fun entry hm => by simpa using hbefore entry hm
  induction events generalizing s with
  | nil =>
    obtain rfl : s.untold = before := by simpa using huntold
    refine .step hstage ?_
    simp only [Scene.step, tell, hnone, publish_nil]
    exact .here (stage_move_self ..)
  | cons event rest ih =>
    have hfind : s.untold.find? (·.1 == t) = some (t, event) := by
      simp [huntold, List.find?_append, hnone]
    have herase : s.untold.eraseP (·.1 == t) = before ++ rest.map (t, ·) :=
      huntold ▸ eraseP_own hbefore rfl
    refine .step hstage ?_
    rw [← publish_publish]
    simp only [Scene.step, tell, hfind, herase]
    exact ih hstage rfl

/-- A session that changes its state tells so. -/
theorem completes_switch (hnone : ∀ entry ∈ s.untold, entry.1 ≠ t) (id : SessionId)
    (state : SessionState) : Completes t ((s.switch t id state).move t (.telling none))
      (s.coordinator.transition id state) .idle s.untold := by
  have hkept : Completes t (s.move t (.telling none)) s.coordinator .idle s.untold := by
    rw [← publish_nil s.coordinator]
    exact completes_tell (s := s.move t (.telling none)) none (stage_move_self ..) hnone
      (by simp [move])
  unfold switch Coordinator.transition Coordinator.sessionState?
  cases s.coordinator.sessions[id]? with
  | none => exact hkept
  | some before =>
    cases before with
    | expired => exact hkept
    | connected | disconnected =>
      exact completes_tell (s := Scene.move _ t (.telling none)) none (stage_move_self ..) hnone
        (show _ = s.untold ++ [TreeEvent.session id state].map (t, ·) from rfl)

/-- A call that nobody interrupts makes its move. -/
theorem completes_move (hstage : s.stage t = .idle) (hnone : ∀ entry ∈ s.untold, entry.1 ≠ t)
    (move : Move) :
    Completes t (s.after (.begin t move)) (s.coordinator.after move) .idle s.untold := by
  have hbegin : s.after (.begin t move) = s.move t (.begun move) := by simp only [after, hstage]
  have hself : ∀ (s : Scene) stage, (s.move t stage).stage t = stage := fun s => stage_move_self s t
  rw [hbegin]
  refine .step (hself ..) ?_
  cases move with
  | openSession =>
    refine .step (show _ = Stage.opening s.coordinator.upcoming from hself ..) ?_
    exact .here (hself ..)
  | put session path data ephemeral =>
    simp only [Scene.step]
    rcases s.coordinator.put_cases session path data ephemeral with ⟨hs, hput⟩ | ⟨hs, f, hput⟩
    · rw [if_pos (show (s.move t _).coordinator.sessions[session]? = _ from hs)]
      refine .step (hself ..) ?_
      rw [Coordinator.after, hput]
      exact completes_tell none (hself ..) hnone rfl
    · rw [if_neg (show (s.move t _).coordinator.sessions[session]? ≠ _ from hs),
        Coordinator.after, hput]
      exact .here (hself ..)
  | delete session path =>
    simp only [Scene.step]
    rcases s.coordinator.delete_cases session path with ⟨hs, removed, hdel⟩ | ⟨hs, f, hdel⟩
    · rw [if_pos (show (s.move t _).coordinator.sessions[session]? = _ from hs)]
      refine .step (hself ..) ?_
      rw [Coordinator.after, hdel]
      exact completes_tell none (hself ..) hnone rfl
    · rw [if_neg (show (s.move t _).coordinator.sessions[session]? ≠ _ from hs),
        Coordinator.after, hdel]
      exact .here (hself ..)
  | disconnect id => exact completes_switch (s := s.move t _) hnone id .disconnected
  | reconnect id => exact completes_switch (s := s.move t _) hnone id .connected
  | expire id =>
    refine .trans (completes_tell (some id) (hself ..) hnone rfl) fun s' hc hstage hu => ?_
    have hmove : s'.coordinator.transition id .expired = s.coordinator.after (.expire id) := by
      rw [hc]
      rfl
    have hnone' : ∀ entry ∈ s'.untold, entry.1 ≠ t := hu ▸ hnone
    refine .step hstage ?_
    rw [← hmove, ← hu]
    exact completes_switch (s := { s' with sweeps := s'.sweeps.filter (·.1 ≠ t) }) hnone' id
      .expired

end Scene

end Switchboard.Overlap
