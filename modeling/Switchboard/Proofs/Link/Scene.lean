import Mathlib.Logic.Function.Basic
import Switchboard.Proofs.Board.Connections

/-!
# A link that is written to and closed at once

Many threads write frames at one end of a link, and close the link from either end, while a task
carries the frames across. A write first sees whether the link is open, and then puts its frame on
the lane. Who closes the link first goes on to let the tasks know, and tells both sides. The task
takes a frame, sees whether the link is open, hands the frame over and acknowledges it, or refuses
it; or it learns that the link is closed, or that nobody can write any more, whichever comes first.
Then it refuses what is on the lane until nothing is, and lets go of the lane; what came to the lane
in between is lost. A scene is the link among these threads; an act is one step of one thread, and a
run is a list of acts, the steps of all threads in any order.
-/

namespace Switchboard

/-- What becomes of an acknowledgement that nobody can settle any more. -/
def Ack.lose : Ack → Ack
  | .waiting _ => .lost
  | ack => ack

/-- Whether the writing of a frame has failed: the link was closed, or nobody can tell. -/
def Ack.HasFailed (ack : Ack) : Prop :=
  ack = .settled (.error .connectionClosed) ∨ ack = .lost

/-- Closing a link leaves what is on its lanes. -/
theorem Link.lane_close (l : Link) (side : Side) : l.close.2.lane side = l.lane side := by
  unfold Link.close
  cases l.isOpen <;> cases side <;> rfl

namespace Passage

/-- Names a thread, which makes one call after the other. -/
abbrev CallId := Nat

/-- A frame and its acknowledgement. -/
abbrev Parcel := Bytes × AckRef

/-- How far a call has come. -/
inductive Stage where
  /-- The thread makes no call. -/
  | idle
  /-- The link was open, and the frame is not on the lane yet. -/
  | writing (frame : Bytes)
  /-- The link is closed, and the tasks do not know yet. -/
  | publishing
  /-- The call is to tell a side that the link is closed. -/
  | telling (side : Side)
deriving DecidableEq

/-- How far the task has come that carries frames across. -/
inductive Task where
  /-- It waits for a frame, or for the link to be closed. -/
  | waiting
  /-- It has taken a frame and has yet to see whether the link is open. -/
  | taken (parcel : Parcel)
  /-- The link was open, and the frame is not handed over yet. -/
  | handing (parcel : Parcel)
  /-- The frame is handed over and not acknowledged yet. -/
  | handed (ack : AckRef)
  /-- The frame is to be refused. -/
  | refusing (ack : AckRef)
  /-- The task refuses what is on the lane. -/
  | draining
  /-- It found nothing on the lane. -/
  | leaving
  /-- It has let go of the lane. -/
  | gone
deriving DecidableEq

namespace Task

/-- Whether frames may be handed over yet. -/
def isCarrying : Task → Bool
  | waiting | taken _ | handing _ | handed _ => true
  | _ => false

/-- The frame that was taken off the lane and of which nothing is decided. -/
def held : Task → List Parcel
  | taken parcel | handing parcel => [parcel]
  | _ => []

/-- The acknowledgement that is settled next. -/
def settling? : Task → Option AckRef
  | handed ack | refusing ack => some ack
  | _ => none

end Task

/-- One step of one thread. -/
inductive Act where
  /-- A thread begins to write a frame: it sees whether the link is open. -/
  | write (call : CallId) (frame : Bytes)
  /-- It puts the frame on the lane. -/
  | queue (call : CallId)
  /-- A thread closes the link, and goes on if nobody did before. -/
  | close (call : CallId)
  /-- It lets the tasks know. -/
  | publish (call : CallId)
  /-- It tells the next side. -/
  | tell (call : CallId)
  /-- The last who held the end lets go of it; nobody begins to write any more. -/
  | release
  /-- The task learns that the link is closed. -/
  | heed
  /-- The task learns that nobody can write any more. -/
  | part
  /-- The task takes the next frame off the lane. -/
  | take
  /-- It sees whether the link is open. -/
  | look
  /-- It hands the frame over. -/
  | hand
  /-- It settles the acknowledgement of the frame. -/
  | settle
  /-- It finds nothing on the lane. -/
  | finish
  /-- It lets go of the lane. -/
  | leave
deriving DecidableEq

namespace Act

/-- Whether an act is one of the task's. -/
def isTask : Act → Bool
  | .heed | .part | .take | .look | .hand | .settle | .finish | .leave => true
  | _ => false

/-- Whether an act goes on with what is under way. -/
def isStep : Act → Bool
  | .write .. | .close _ | .release => false
  | _ => true

/-- The thread that makes the call. -/
def call? : Act → Option CallId
  | .write t _ | .queue t | .close t | .publish t | .tell t => some t
  | _ => none

/-- An act of the task is none of a call. -/
theorem call?_of_isTask {act : Act} (h : act.isTask = true) : act.call? = none := by
  cases act <;> first | rfl | cases h

/-- An act of the task goes on with what is under way. -/
theorem isStep_of_isTask {act : Act} (h : act.isTask = true) : act.isStep = true := by
  cases act <;> first | rfl | cases h

/-- What is left to do of a call, however far it has come. -/
def rest (t : CallId) : List Act := [.queue t, .publish t, .tell t, .tell t]

end Act

/-- A link among threads. -/
structure Scene where
  /-- The link. -/
  link : Link
  /-- The end that is written to. -/
  side : Side
  /-- Whether the tasks can know that the link is closed. -/
  isPublished : Bool := false
  /-- Whether anybody holds the end, and may begin to write. -/
  isHeld : Bool := true
  /-- How many threads have begun to write, and hold the end until they are done. -/
  writing : Nat := 0
  /-- How far every call has come. -/
  stage : CallId → Stage := fun _ => .idle
  /-- How far the task has come. -/
  task : Task := .waiting
  /-- How many writes have been answered by an acknowledgement. -/
  writes : Nat := 0
  /-- The acknowledgements. -/
  acks : AckRef → Ack := fun _ => .lost
  /-- The frames that were put on the lane, in the order in which they were. -/
  queued : List Parcel := []
  /-- The frames that were handed over, in the order in which they were. -/
  handed : List Parcel := []
  /-- The frames that were taken off the lane and not handed over. -/
  refused : List Parcel := []
  /-- How many calls began to close the link. -/
  closes : Nat := 0
  /-- The sides that were told, in the order in which they were. -/
  told : List Side := []

namespace Scene

/-- The frames on the lane. -/
def lane (s : Scene) : List Parcel := s.link.lane s.side

/-- Puts other frames on the lane. -/
def setLane (s : Scene) (parcels : List Parcel) : Scene :=
  { s with link := s.link.setLane s.side parcels }

/-- A call comes to another stage. -/
def move (s : Scene) (t : CallId) (stage : Stage) : Scene :=
  { s with stage := Function.update s.stage t stage }

/-- A write is answered by an acknowledgement. -/
def answer (s : Scene) (ack : Ack) : Scene :=
  { s with writes := s.writes + 1, acks := Function.update s.acks s.writes ack }

/-- Puts a frame on the lane, with a new acknowledgement. -/
def put (s : Scene) (frame : Bytes) : Scene :=
  { (s.setLane (s.lane ++ [(frame, s.writes)])).answer (.waiting false) with
    queued := s.queued ++ [(frame, s.writes)] }

/-- The task decides not to hand a frame over. -/
def refuse (s : Scene) (parcel : Parcel) : Scene :=
  { s with task := .refusing parcel.2, refused := s.refused ++ [parcel] }

/-- The task settles an acknowledgement. -/
def settleAs (s : Scene) (ack : AckRef) (outcome : Outcome Unit) (task : Task) : Scene :=
  { s with task, acks := Function.update s.acks ack ((s.acks ack).settle outcome) }

/-- The task lets go of the lane with all that is on it. -/
def abandon (s : Scene) : Scene :=
  { s.setLane [] with
    task := .gone
    refused := s.refused ++ s.lane
    acks := fun r => if r ∈ s.lane.map Prod.snd then (s.acks r).lose else s.acks r }

/-- The scene after one act. A thread that has not come to its act yet leaves all as it is. -/
def after (s : Scene) : Act → Scene
  | .write t frame =>
    match s.stage t, s.isHeld with
    | .idle, true =>
      if s.link.isOpen then { s.move t (.writing frame) with writing := s.writing + 1 }
      else s.answer (.settled (.error .connectionClosed))
    | _, _ => s
  | .queue t =>
    match s.stage t with
    | .writing frame =>
      let done := { s.move t .idle with writing := s.writing - 1 }
      if s.task = .gone then done.answer (.settled (.error .connectionClosed)) else done.put frame
    | _ => s
  | .close t =>
    match s.stage t with
    | .idle =>
      { s.move t (if s.link.isOpen then .publishing else .idle) with
        link := s.link.close.2
        closes := s.closes + 1 }
    | _ => s
  | .publish t =>
    match s.stage t with
    | .publishing => { s.move t (.telling .client) with isPublished := true }
    | _ => s
  | .tell t =>
    match s.stage t with
    | .telling .client => { s.move t (.telling .server) with told := s.told ++ [.client] }
    | .telling .server => { s.move t .idle with told := s.told ++ [.server] }
    | _ => s
  | .release => { s with isHeld := false }
  | .heed =>
    match s.task with
    | .waiting => if s.isPublished then { s with task := .draining } else s
    | _ => s
  | .part =>
    match s.task, s.lane with
    | .waiting, [] => if s.isHeld || s.writing ≠ 0 then s else { s with task := .draining }
    | _, _ => s
  | .take =>
    match s.task, s.lane with
    | .waiting, parcel :: rest => { s.setLane rest with task := .taken parcel }
    | .draining, parcel :: rest => (s.setLane rest).refuse parcel
    | _, _ => s
  | .look =>
    match s.task with
    | .taken parcel => if s.link.isOpen then { s with task := .handing parcel } else s.refuse parcel
    | _ => s
  | .hand =>
    match s.task with
    | .handing parcel => { s with task := .handed parcel.2, handed := s.handed ++ [parcel] }
    | _ => s
  | .settle =>
    match s.task with
    | .handed ack => s.settleAs ack (.ok ()) .waiting
    | .refusing ack => s.settleAs ack (.error .connectionClosed) .draining
    | _ => s
  | .finish =>
    match s.task, s.lane with
    | .draining, [] => { s with task := .leaving }
    | _, _ => s
  | .leave =>
    match s.task with
    | .leaving => s.abandon
    | _ => s

/-- The scene after a run of acts. -/
def run (s : Scene) (acts : List Act) : Scene := acts.foldl after s

/-- The scene of a link that is open and has nothing on its lane, after a run of acts. -/
def ofActs (client server : ConnectionRef × Handler) (side : Side) (acts : List Act) : Scene :=
  run { link := { client, server }, side } acts

/-- Whether the task is gone, or waits and has nothing to do. -/
def IsDone (s : Scene) : Prop :=
  s.task = .gone ∨ s.task = .waiting ∧ s.lane = [] ∧ s.isPublished = false

/-- Whether no call is under way and the task has nothing to do. -/
def AtRest (s : Scene) : Prop := (∀ t, s.stage t = .idle) ∧ s.IsDone

variable {s : Scene} {t : CallId}

/-! ### Threads that nobody interrupts

Done without a pause, the steps of a thread are the operations of the link. -/

/-- A lane holds the parcels that were laid on it. -/
theorem lane_setLane (s : Scene) (parcels : List Parcel) : (s.setLane parcels).lane = parcels := by
  unfold lane setLane Link.lane Link.setLane
  cases s.side <;> rfl

/-- Parcels on a lane neither open nor close the link. -/
theorem isOpen_setLane (s : Scene) (parcels : List Parcel) :
    (s.setLane parcels).link.isOpen = s.link.isOpen := by
  unfold setLane Link.setLane
  cases s.side <;> rfl

/-- A write that nobody interrupts is a write to the link. -/
theorem run_write (hidle : s.stage t = .idle) (hheld : s.isHeld = true) (htask : s.task ≠ .gone)
    (frame : Bytes) :
    let s' := s.run [.write t frame, .queue t]
    (s.link.isOpen, s'.link) = s.link.write s.side frame s.writes ∧
      s'.acks s.writes =
        if s.link.isOpen then .waiting false else .settled (.error .connectionClosed) := by
  cases hopen : s.link.isOpen <;>
    simp [run, after, move, answer, put, setLane, lane, Link.write, hidle, hheld, htask,
      hopen]

/-- A frame that is carried across without a pause crosses the link. -/
theorem run_carry {frame : Bytes} {ack : AckRef} {rest : List Parcel} (htask : s.task = .waiting)
    (hopen : s.link.isOpen = true) (hlane : s.lane = (frame, ack) :: rest) :
    let s' := s.run [.take, .look, .hand, .settle]
    (.handOver frame ack, s'.link) = s.link.cross s.side ∧ s'.task = .waiting ∧
      s'.handed = s.handed ++ [(frame, ack)] ∧ s'.acks ack = (s.acks ack).settle (.ok ()) := by
  have hcross : s.link.lane s.side = (frame, ack) :: rest := hlane
  have hopen' : (s.link.setLane s.side rest).isOpen = true := (s.isOpen_setLane rest).trans hopen
  simp [run, after, settleAs, setLane, Link.cross, htask, hopen, hlane, hcross, hopen']

private theorem setLane_of_lane_eq_nil (h : s.lane = []) : s.link.setLane s.side [] = s.link := by
  revert h
  unfold lane Link.lane Link.setLane
  cases s.side <;> intro h <;> simp only at h <;> rw [← h]

/-- A run after a run is one run. -/
theorem run_append (s : Scene) (acts more : List Act) :
    s.run (acts ++ more) = (s.run acts).run more := List.foldl_append

/-- A task that refuses what is on the lane refuses all of it. -/
theorem run_drain {parcels : List Parcel} (htask : s.task = .draining) (hlane : s.lane = parcels) :
    let s' := s.run (parcels.flatMap fun _ => [.take, .settle])
    s'.task = .draining ∧ s'.lane = [] ∧ s'.side = s.side ∧ s'.link = s.link.setLane s.side [] ∧
      s'.acks = fun r => if r ∈ parcels.map Prod.snd then
        (s.acks r).settle (.error .connectionClosed) else s.acks r := by
  induction parcels generalizing s with
  | nil => exact ⟨htask, hlane, rfl, (setLane_of_lane_eq_nil hlane).symm, by simp [run]⟩
  | cons parcel rest ih =>
    let next := ((s.setLane rest).refuse parcel).settleAs parcel.2 (.error .connectionClosed)
      .draining
    have hstep : s.run [.take, .settle] = next := by
      simp [next, run, after, refuse, htask, hlane]
    obtain ⟨htask', hlane', hside, hlink, hacks⟩ := ih (s := next) rfl (lane_setLane s rest)
    rw [List.flatMap_cons, run_append, hstep]
    refine ⟨htask', hlane', hside, hlink.trans ?_, hacks.trans (funext fun r => ?_)⟩
    · simp only [next, settleAs, refuse, setLane, Link.setLane]
      cases s.side <;> rfl
    · have hsettle : ∀ outcome (ack : Ack),
          (ack.settle outcome).settle outcome = ack.settle outcome := by
        intro outcome ack
        cases ack <;> rfl
      rw [List.map_cons]
      by_cases hr : r = parcel.2
      · subst hr
        simp [next, settleAs, refuse, setLane, hsettle]
      · simp only [next, settleAs, refuse, setLane, Function.update_of_ne hr, List.mem_cons, hr,
          false_or]

/-- A task that finds nothing on the lane lets go of it. -/
theorem run_end (htask : s.task = .draining) (hlane : s.lane = []) :
    s.run [.finish, .leave] = s.abandon := by
  have hend : s.run [.finish, .leave] = { s with task := .leaving }.abandon := by
    simp [run, after, htask, hlane]
  rw [hend]
  rfl

/-- The end of a task that nobody interrupts refuses what did not cross the link. -/
theorem run_refuse (htask : s.task = .waiting) (hclosed : s.link.isOpen = false)
    (hpublished : s.isPublished = true) :
    let s' := s.run (.heed :: ((s.lane.flatMap fun _ => [.take, .settle]) ++ [.finish, .leave]))
    (.refuse (s.lane.map Prod.snd), s'.link) = s.link.cross s.side ∧ s'.task = .gone ∧
      s'.acks = fun r => if r ∈ s.lane.map Prod.snd then
        (s.acks r).settle (.error .connectionClosed) else s.acks r := by
  intro s'
  have hheed : s.after .heed = { s with task := .draining } := by
    simp [after, htask, hpublished]
  obtain ⟨htask', hlane, hside, hlink, hacks⟩ := run_drain (s := { s with task := .draining }) rfl
    (show _ = s.lane from rfl)
  generalize hdrained : run { s with task := .draining } _ = drained at *
  have hs' : s' = drained.abandon := by
    change run (s.after .heed) _ = _
    rw [hheed, run_append, hdrained, run_end htask' hlane]
  have hcross : s.link.cross s.side =
      (.refuse (s.lane.map Prod.snd), s.link.setLane s.side []) := by
    simp [Link.cross, hclosed, lane]
  rw [hs', hcross]
  refine ⟨?_, rfl, ?_⟩
  · rw [abandon, setLane, hlink, hside]
    cases s.side <;> rfl
  · funext r
    simp [abandon, hlane, hacks]

/-- A close that nobody interrupts closes the link and tells those whom it has to. -/
theorem run_close (hidle : s.stage t = .idle) :
    let s' := s.run [.close t, .publish t, .tell t, .tell t]
    s'.link = s.link.close.2 ∧
      ∃ sides, s'.told = s.told ++ sides ∧ sides.map s.link.endAt = s.link.close.1 := by
  cases hopen : s.link.isOpen
  · exact ⟨by simp [run, after, move, Link.close, hidle, hopen], [],
      by simp [run, after, move, Link.close, hidle, hopen]⟩
  · exact ⟨by simp [run, after, move, Link.close, hidle, hopen], [.client, .server],
      by simp [run, after, move, Link.close, Link.endAt, hidle, hopen]⟩

end Scene

end Passage

end Switchboard
