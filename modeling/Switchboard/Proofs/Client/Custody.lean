import Mathlib.Logic.Function.Basic
import Switchboard.Board.Duties
import Switchboard.Proofs.Board.Connections

/-!
# Who has a client's connections

A client keeps at most one connection, and threads put it there and take it away: one thread at a
time connects, and any may disconnect, reconnect or close the client meanwhile. Each of them looks
at the client's mark, looks at its connection, or changes one of the two, one step at a time. A
request connects the client in a task of its own, as a call does. A scene is the board among these
threads; an act is one atomic step of one thread, and a run is a list of acts, the steps of all
threads in any order.
-/

namespace Switchboard

namespace Board

/-- Forgets the channel of a connection of a client. -/
def forgetChannel (b : Board) (c : ClientRef) (x : ConnectionRef) : Board :=
  let table := (b.client c).channels
  { b with
    channelTables := b.channelTables.setIfInBounds table
      ((b.channelTable table).remove (b.idOf x)).2 }

/-- Fails the requests of a client that were written on a connection. -/
def failWritten (b : Board) (c : ClientRef) (x : ConnectionRef) : Board :=
  (b.changeExchange c fun exchange store => ((), exchange.closed store (b.idOf x))).2

/-- Letting go of a connection is to close it, to forget its channel and to fail its requests. -/
theorem release_eq (b : Board) (c : ClientRef) (x : ConnectionRef) :
    b.release c x = ((b.close x).forgetChannel c x).failWritten c x := rfl

/-- Takes a client's connection away and lets go of it. -/
def disconnected (b : Board) (c : ClientRef) : Board :=
  match b.replaceConnection c none with
  | (none, b) => b
  | (some x, b) => b.release c x

end Board

namespace Op

open Routine

/-- What is left of a connect once the transport has answered. -/
def placeConnection (c : ClientRef) (client : Client) :
    Option (Outcome ConnectionRef) → Op (Outcome Unit)
  | none => pure (.error (Client.connectTimeout client.address client.settings.connectTimeout))
  | some (.error f) => pure (.error (Client.connectFailure client.address f))
  | some (.ok connection) => do
    if !(← look (·.isOpen connection)) then
      pure (.error (Client.deadFailure client.address))
    else if ← look fun b => (b.client c).isClosed then
      close connection
      pure (.error (Client.closedFailure client.address))
    else
      match ← step fun b => b.replaceConnection c (some connection) with
      | some previous => modify fun b => b.release c previous
      | none => pure ()
      pure (.ok ())

/-- Connecting in turn looks twice, dials within the time that is left, and puts what it got in
place. -/
theorem connectInTurn_eq (c : ClientRef) :
    connectInTurn c = (do
      let client ← look (·.client c)
      if client.isClosed then pure (.error (Client.closedFailure client.address))
      else if ← look (·.isConnected c) then pure (.ok ())
      else
        let deadline := (← now) + client.settings.connectTimeout.toMillisUp
        placeConnection c client (← dialBy (some deadline) client.address (.exchange c))) := by
  rfl

private theorem run_disconnect (t : TaskId) (c : ClientRef) (m : Site) :
    Machine.run Duty.body t (disconnect c) m =
      (.ok (), { m with state := m.state.disconnected c }) := by
  unfold disconnect
  rw [Machine.run_step_bind]
  cases hconnection : (m.state.client c).connection with
  | none => simp only [Board.replaceConnection, Board.disconnected, hconnection, Machine.run_pure]
  | some x =>
    simp only [Board.replaceConnection, Board.disconnected, hconnection, Machine.run_modify]

/-- Whoever marks a client as closed first also lets go of its connection and fails its
requests. -/
theorem run_closeClient (t : TaskId) (c : ClientRef) (m : Site) :
    (Machine.run Duty.body t (closeClient c) m).2.state =
      let marked := m.state.onClient c fun client => { client with isClosed := true }
      if (m.state.client c).isClosed then marked
      else ((marked.disconnected c).changeExchange c fun x store =>
        x.failAll store .connectionClosed).2 := by
  unfold closeClient
  rw [Machine.run_step_bind]
  cases hclosed : (m.state.client c).isClosed with
  | true => simp only [if_true, Machine.run_pure]
  | false =>
    simp only [Bool.false_eq_true, if_false]
    rw [Machine.run_bind, run_disconnect]
    simp only [Machine.run_step_bind, Machine.run_pure]

end Op

namespace Custody

/-- Names a thread. -/
abbrev ThreadId := Nat

/-- What a thread does after what it is about. -/
inductive Next where
  /-- Nothing. -/
  | rest
  /-- It leaves the turn to others, connected. -/
  | leave
  /-- It connects again. -/
  | connect
  /-- It sees whether to connect once more. -/
  | ponder
  /-- It fails all requests. -/
  | drain
deriving DecidableEq

/-- How far a thread has come. -/
inductive Stage where
  /-- The thread does nothing to the client. -/
  | idle
  /-- It waits for its turn to connect. What is next is what comes after a connect that fails. -/
  | waiting (next : Next)
  /-- It is its turn, and it has yet to see whether the client is closed. -/
  | entered (next : Next)
  /-- The client was not closed. -/
  | unmarked (next : Next)
  /-- The client was not connected: the transport is asked. -/
  | dialing (next : Next)
  /-- The transport has handed it a connection. -/
  | handed (x : ConnectionRef) (next : Next)
  /-- The connection was open. -/
  | live (x : ConnectionRef) (next : Next)
  /-- The client was still not closed: it puts the connection there. -/
  | cleared (x : ConnectionRef) (next : Next)
  /-- The client was closed meanwhile: it closes the connection. -/
  | spurned (x : ConnectionRef) (next : Next)
  /-- It leaves the turn to others. -/
  | leaving (next : Next)
  /-- It takes the client's connection away. -/
  | taking (next : Next)
  /-- It lets go of a connection, which it has yet to close. -/
  | shutting (x : ConnectionRef) (next : Next)
  /-- The connection is closed, and its channel is not forgotten yet. -/
  | forgetting (x : ConnectionRef) (next : Next)
  /-- Its requests have yet to fail. -/
  | failing (x : ConnectionRef) (next : Next)
  /-- Its connect has failed, and it has yet to see whether the client is closed. -/
  | pondering
  /-- It waits before it connects once more, or is done. -/
  | resting
  /-- It marks the client as closed. -/
  | marking
  /-- It fails all requests. -/
  | draining
deriving DecidableEq

/-- Where a thread goes on. -/
def Next.stage : Next → Stage
  | rest => .idle
  | leave => .leaving .rest
  | connect => .waiting .ponder
  | ponder => .pondering
  | drain => .draining

/-- The connection that a thread has in its hands: it has yet to put it into its place or to close
it. -/
def Stage.held? : Stage → Option ConnectionRef
  | handed x _ | live x _ | cleared x _ | spurned x _ | shutting x _ => some x
  | _ => none

/-- What a thread may be asked to do. -/
inductive Errand where
  /-- To connect the client. -/
  | connect
  /-- To let go of its connection. -/
  | disconnect
  /-- To let go of its connection and to connect it again, perhaps several times. -/
  | reconnect
  /-- To close it for good. -/
  | close
deriving DecidableEq

/-- Where a thread begins. -/
def Errand.stage : Errand → Stage
  | connect => .waiting .rest
  | disconnect => .taking .rest
  | reconnect => .taking .connect
  | close => .marking

/-- One step of one thread. -/
inductive Act where
  /-- A thread begins. -/
  | begin (thread : ThreadId) (errand : Errand)
  /-- A thread takes its next step. -/
  | go (thread : ThreadId)
  /-- The transport hands a thread a connection; or it fails, or takes too long. -/
  | answer (thread : ThreadId) (x : Option ConnectionRef)
  /-- A thread has waited, and the policy permits one more connect or not. -/
  | wake (thread : ThreadId) (again : Bool)
  /-- A thread is called off where it waits. -/
  | abandon (thread : ThreadId)
  /-- Work that is none of the client's, such as the opening of a link, the writing of a frame, or a
  change of requests and channels. -/
  | work (board : Board)

/-- The thread that an act is a step of. -/
def Act.thread? : Act → Option ThreadId
  | begin t _ | go t | answer t _ | wake t _ | abandon t => some t
  | work _ => none

/-- A client of a board among threads. -/
structure Scene where
  /-- The board. -/
  board : Board
  /-- The client. -/
  client : ClientRef
  /-- Whose turn it is to connect. -/
  turn : Option ThreadId := none
  /-- How far every thread has come. -/
  stage : ThreadId → Stage := fun _ => .idle
  /-- The connections that the transport has handed over, latest first. -/
  obtained : List ConnectionRef := []

namespace Scene

/-- A thread comes to another stage. -/
def move (s : Scene) (t : ThreadId) (stage : Stage) : Scene :=
  { s with stage := Function.update s.stage t stage }

/-- The connection of the client. -/
def connection (s : Scene) : Option ConnectionRef := (s.board.client s.client).connection

/-- Whether the client is marked as closed. -/
def isClosed (s : Scene) : Bool := (s.board.client s.client).isClosed

/-- The scene after the next step of a thread. -/
def next (s : Scene) (t : ThreadId) : Scene :=
  match s.stage t with
  | .waiting next =>
    if s.turn = none then { s.move t (.entered next) with turn := some t } else s
  | .entered next => s.move t (if s.isClosed then .leaving next else .unmarked next)
  | .unmarked next =>
    s.move t (if s.board.isConnected s.client then .leaving .rest else .dialing next)
  | .handed x next => s.move t (if s.board.isOpen x then .live x next else .leaving next)
  | .live x next => s.move t (if s.isClosed then .spurned x next else .cleared x next)
  | .cleared x _ =>
    let (previous, board) := s.board.replaceConnection s.client (some x)
    let stage := match previous with
      | some y => .shutting y .leave
      | none => .leaving .rest
    { s.move t stage with board }
  | .spurned x next => { s.move t (.leaving next) with board := s.board.close x }
  | .leaving next => { s.move t next.stage with turn := none }
  | .taking next =>
    let (previous, board) := s.board.replaceConnection s.client none
    let stage := match previous with
      | some y => .shutting y next
      | none => next.stage
    { s.move t stage with board }
  | .shutting x next => { s.move t (.forgetting x next) with board := s.board.close x }
  | .forgetting x next =>
    { s.move t (.failing x next) with board := s.board.forgetChannel s.client x }
  | .failing x next => { s.move t next.stage with board := s.board.failWritten s.client x }
  | .pondering => s.move t (if s.isClosed then .idle else .resting)
  | .marking =>
    { s.move t (if s.isClosed then .idle else .taking .drain) with
      board := s.board.onClient s.client fun client => { client with isClosed := true } }
  | .draining =>
    { s.move t .idle with
      board := (s.board.changeExchange s.client fun exchange store =>
        exchange.failAll store .connectionClosed).2 }
  | .idle | .dialing _ | .resting => s

/-- The scene after one act. A thread that has not come to its act yet leaves all as it is, as does
a transport that hands over what cannot be closed, and work that does not spare the client. -/
def after (s : Scene) : Act → Scene
  | .begin t errand =>
    match s.stage t with
    | .idle => s.move t errand.stage
    | _ => s
  | .go t => s.next t
  | .answer t x =>
    match s.stage t, x with
    | .dialing next, none => s.move t (.leaving next)
    | .dialing next, some x =>
      if s.board.isWired x then { s.move t (.handed x next) with obtained := x :: s.obtained }
      else s
    | _, _ => s
  | .wake t again =>
    match s.stage t with
    | .resting => s.move t (if again then .taking .connect else .idle)
    | _ => s
  | .abandon t =>
    match s.stage t with
    | .waiting _ | .resting => s.move t .idle
    | .dialing _ => { s.move t .idle with turn := none }
    | _ => s
  | .work board => if Board.Spares s.client s.board board then { s with board } else s

/-- The scene after a run of acts. -/
def run (s : Scene) (acts : List Act) : Scene := acts.foldl after s

/-- The scene of a new client on a board after a run of acts. -/
def ofActs (b : Board) (address : Address) (settings : ClientSettings) (channels : Nat)
    (acts : List Act) : Scene :=
  run { board := (b.addClient { address, settings, channels }).2, client := b.clients.size } acts

/-- Whether no thread is about anything. -/
def AtRest (s : Scene) : Prop := ∀ t, s.stage t = .idle

variable {s : Scene} {t : ThreadId}

private theorem stage_move_of_ne {u : ThreadId} (h : t ≠ u) (stage : Stage) :
    (s.move u stage).stage t = s.stage t := Function.update_of_ne h ..

/-- A step of a thread leaves the others where they are. -/
theorem stage_next_of_ne {u : ThreadId} (h : t ≠ u) : (s.next u).stage t = s.stage t := by
  simp only [next]
  repeat' split
  all_goals first | exact stage_move_of_ne h _ | rfl

/-- An act leaves the threads where they are that it is no step of. -/
theorem stage_after_of_ne {act : Act} (h : act.thread? ≠ some t) :
    (s.after act).stage t = s.stage t := by
  cases act with
  | go u => exact stage_next_of_ne fun hu => h (congrArg some hu.symm)
  | work board =>
    simp only [after]
    split <;> rfl
  | begin u errand | answer u x | wake u again | abandon u =>
    have hu : t ≠ u := fun hu => h (congrArg some hu.symm)
    simp only [after]
    repeat' split
    all_goals first | rfl | exact stage_move_of_ne hu _

/-- All is at rest once the threads that acted are. -/
theorem atRest_run {acts : List Act} {n : ThreadId} (hrest : s.AtRest)
    (hacts : ∀ act ∈ acts, ∀ u ∈ act.thread?, u < n)
    (h : ∀ u < n, (s.run acts).stage u = .idle) : (s.run acts).AtRest := by
  intro t
  by_cases ht : t < n
  · exact h t ht
  · have hstay : ∀ s : Scene, (s.run acts).stage t = s.stage t := by
      clear h hrest
      induction acts with
      | nil => exact fun _ => rfl
      | cons act rest ih =>
        intro s
        have hact : act.thread? ≠ some t := fun hu => ht (hacts act List.mem_cons_self t hu)
        exact (ih (fun a ha => hacts a (List.mem_cons_of_mem _ ha)) _).trans
          (stage_after_of_ne hact)
    rw [hstay, hrest]

/-! ### Threads that nobody interrupts

Done without a pause, the steps of a thread are the routines of the board. -/

/-- A disconnect that nobody interrupts is that of the board. -/
theorem board_run_disconnect (hidle : s.stage t = .idle) :
    (s.run (.begin t .disconnect :: List.replicate 4 (.go t))).board =
      (Machine.run Duty.body t (Op.disconnect s.client) { state := s.board }).2.state := by
  rw [Op.run_disconnect]
  cases hconnection : (s.board.client s.client).connection <;>
    simp [run, after, next, move, hidle, Errand.stage, Next.stage, Board.disconnected,
      Board.replaceConnection, Board.release_eq, hconnection]

/-- A close that nobody interrupts is that of the board. -/
theorem board_run_close (hidle : s.stage t = .idle) :
    (s.run (.begin t .close :: List.replicate 6 (.go t))).board =
      (Machine.run Duty.body t (Op.closeClient s.client) { state := s.board }).2.state := by
  rw [Op.run_closeClient]
  cases hclosed : (s.board.client s.client).isClosed with
  | true => simp [run, after, next, move, hidle, Errand.stage, isClosed, hclosed]
  | false =>
    generalize hmarked :
      s.board.onClient s.client (fun client => { client with isClosed := true }) = marked
    cases hconnection : (marked.client s.client).connection <;>
      simp [run, after, next, move, hidle, Errand.stage, Next.stage, isClosed, hclosed,
        Board.disconnected, Board.replaceConnection, Board.release_eq, hconnection, hmarked]

/-- A thread that is handed a connection ends its connect. -/
theorem board_run_placeConnection (hdialing : s.stage t = .dialing .rest) {x : ConnectionRef}
    (hwired : s.board.isWired x = true) :
    (s.run (.answer t (some x) :: List.replicate 6 (.go t))).board =
      (Machine.run Duty.body t
        (Op.placeConnection s.client (s.board.client s.client) (some (.ok x)))
        { state := s.board }).2.state := by
  simp only [Op.placeConnection, Op.close, Machine.run_look_bind]
  cases hopen : s.board.isOpen x with
  | false => simp [run, after, next, move, hdialing, hwired, Next.stage, hopen, Machine.run_pure]
  | true =>
    cases hclosed : (s.board.client s.client).isClosed with
    | true =>
      simp only [Bool.not_true, Bool.false_eq_true, if_false, if_true, Machine.run_look_bind,
        Machine.run_modify_bind, Machine.run_pure, hclosed]
      simp [run, after, next, move, hdialing, hwired, Next.stage, hopen, hclosed, isClosed]
    | false =>
      simp only [Bool.not_true, Bool.false_eq_true, if_false, Machine.run_look_bind,
        Machine.run_step_bind, hclosed]
      cases hconnection : (s.board.client s.client).connection <;>
        simp only [Board.replaceConnection, hconnection, Machine.run_modify_bind, Machine.run_pure]
          <;> simp [run, after, next, move, hdialing, hwired, Next.stage, hopen, hclosed, isClosed,
            Board.replaceConnection, Board.release_eq, hconnection]

/-- Work that spares the client is done. -/
theorem after_work {board : Board} (h : Board.Spares s.client s.board board) :
    s.after (.work board) = { s with board } := if_pos h

/-- What a request does besides connecting its client is such work: it takes a number, finds its
channel, notes that it is being sent, writes its frame, and may fail. So is the opening of the link
that the transport hands over. -/
theorem after_work_of_request (id : UInt64) (failure : Failure) (x : ConnectionRef) (frame : Bytes)
    (target : Address) (handler : Handler) :
    ∀ board ∈ [(s.board.changeExchange s.client Exchange.take).2, (s.board.channelOf s.client).2,
      (s.board.noteSent s.client id x).2, (s.board.write x frame).2,
      (s.board.failRequest s.client id failure).2, (s.board.openLink target handler).2],
      s.after (.work board) = { s with board } := by
  intro board hboard
  refine after_work ?_
  simp only [List.mem_cons, List.not_mem_nil, or_false] at hboard
  obtain rfl | rfl | rfl | rfl | rfl | rfl := hboard
  · exact .changeExchange ..
  · exact .channelOf ..
  · exact .changeExchange ..
  · exact .write ..
  · exact .changeExchange ..
  · exact .openLink ..

end Scene

end Custody

end Switchboard
