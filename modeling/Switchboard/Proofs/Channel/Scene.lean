import Mathlib.Logic.Function.Basic
import Switchboard.Proofs.Client.Losses

/-!
# Channels of connections that close meanwhile

A table of channels has a lock, and a connection closes without it. Whoever asks for the channel of
a connection looks under the lock whether that is open, and finds, adds or takes out its channel
then; the connection may close between the two. Whoever lets go of a connection closes it first,
and takes its channel out under the lock after that. A scene is a table of channels among threads;
an act is one atomic step of one thread, and a run is a list of acts, the steps of all threads in
any order.
-/

namespace Switchboard

namespace Board

/-- Closing a connection leaves the channels. -/
theorem channelTables_close (b : Board) (x : ConnectionRef) :
    (b.close x).channelTables = b.channelTables := by
  refine close_of_steps (R := fun b b' => b'.channelTables = b.channelTables) (fun _ => rfl)
    (fun h h' => h'.trans h) (fun b told => ?_) (fun _ _ => rfl) (fun _ _ => rfl) b x
  unfold noteClosed
  split <;> rfl

private theorem channelTable_close (b : Board) (x : ConnectionRef) (i : Nat) :
    (b.close x).channelTable i = b.channelTable i := by
  rw [channelTable, channelTables_close, channelTable]

/-- A client keeps its table of channels while its requests change. -/
theorem channels_changeExchange {α : Type} (b : Board) (c d : ClientRef)
    (f : Exchange → Promises → α × Exchange × Promises) :
    ((b.changeExchange d f).2.client c).channels = (b.client c).channels := by
  simp only [changeExchange, client, onClient, Array.getD_eq_getD_getElem?, Array.getElem?_modify]
  split
  · cases b.clients[c]? <;> rfl
  · rfl

/-- Every client keeps its table of channels when a connection is closed. -/
theorem channels_close (b : Board) (x : ConnectionRef) (c : ClientRef) :
    ((b.close x).client c).channels = (b.client c).channels := by
  refine close_of_steps (R := fun b b' => (b'.client c).channels = (b.client c).channels)
    (fun _ => rfl) (fun h h' => h'.trans h) (fun b told => ?_) (fun _ _ => rfl) (fun _ _ => rfl) b x
  unfold noteClosed
  split
  · exact channels_changeExchange ..
  all_goals rfl

/-- A table that was put into its place is there. -/
theorem channelTable_setIfInBounds {b : Board} {i : Nat} (h : i < b.channelTables.size)
    (table : ChannelTable) :
    Board.channelTable { b with channelTables := b.channelTables.setIfInBounds i table } i =
      table := by
  simp [channelTable, h]

end Board

end Switchboard

namespace Switchboard.Channels

/-- Names a thread. -/
abbrev ThreadId := Nat

/-- How far a thread has come. -/
inductive Stage where
  /-- The thread has nothing to do with channels. -/
  | idle
  /-- It is to find the channel of a client's connection, and has yet to see whether that is
  open. -/
  | asking (x : ConnectionRef) (span : Duration)
  /-- It is to find or to add the channel of a connection, and waits for the lock. -/
  | seeking (x : ConnectionRef) (span : Duration)
  /-- It has the lock, and has seen whether the connection is open. -/
  | looking (x : ConnectionRef) (span : Duration) (isOpen : Bool)
  /-- It closes a channel, and has yet to close the connection. -/
  | closing (x : ConnectionRef)
  /-- It has closed the connection of the channel. -/
  | closed (x : ConnectionRef)
  /-- It has seen that the connection is closed, and waits for the lock to take its channel out. -/
  | evicting (x : ConnectionRef)
  /-- It lets go of a connection, and has yet to close it. -/
  | shutting (x : ConnectionRef)
  /-- The connection is closed, and it waits for the lock to take its channel out. -/
  | forgetting (x : ConnectionRef)
  /-- The channel is taken out, and the requests of the connection have yet to fail. -/
  | failing (x : ConnectionRef)

/-- The connection that a thread has to do with. -/
def Stage.connection? : Stage → Option ConnectionRef
  | idle => none
  | asking x _ | seeking x _ | looking x _ _ | closing x | closed x | evicting x | shutting x
  | forgetting x | failing x => some x

/-- What a thread may be asked to do. -/
inductive Errand where
  /-- To return the channel of the connection that a client has, if that is open. -/
  | getChannel (x : ConnectionRef) (span : Duration)
  /-- To return the channel of a connection, and to keep it if that is open. -/
  | getOrAdd (x : ConnectionRef) (span : Duration)
  /-- To close a channel. -/
  | close (channel : Channel)
  /-- To let go of a connection that a client had. -/
  | release (x : ConnectionRef)

/-- The connection that an errand is about. -/
def Errand.connection : Errand → ConnectionRef
  | getChannel x _ | getOrAdd x _ | release x => x
  | close channel => channel.connection

/-- Where a thread begins. -/
def Errand.stage : Errand → Stage
  | getChannel x span => .asking x span
  | getOrAdd x span => .seeking x span
  | close channel => .closing channel.connection
  | release x => .shutting x

/-- One step of one thread. -/
inductive Act where
  /-- A thread begins. -/
  | begin (thread : ThreadId) (errand : Errand)
  /-- A thread takes its next step. -/
  | go (thread : ThreadId)
  /-- A connection is closed by anybody, at either end. -/
  | shut (x : ConnectionRef)
  /-- Nobody holds the table any more, and channels do not find it. -/
  | part

/-- The connection that an act begins an errand about. -/
def Act.asked? : Act → Option ConnectionRef
  | begin _ errand => some errand.connection
  | go _ | shut _ | part => none

/-- The connections that the errands of a run are about. -/
def asked (acts : List Act) : List ConnectionRef := acts.filterMap Act.asked?

/-- The steps of an errand in their order. -/
def Act.whole (t : ThreadId) (errand : Errand) : List Act :=
  .begin t errand :: List.replicate 3 (.go t)

/-- A table of channels among threads. -/
structure Scene where
  /-- The table. -/
  table : ChannelTable := {}
  /-- Which connections are open. -/
  isOpen : ConnectionRef → Bool
  /-- Who has the lock of the table beyond one step. -/
  turn : Option ThreadId := none
  /-- How far every thread has come. -/
  stage : ThreadId → Stage := fun _ => .idle
  /-- The channels that were returned, each with the connection asked for, latest first. -/
  given : List (ConnectionRef × Channel) := []
  /-- The connections that were let go of to the end, latest first. -/
  released : List ConnectionRef := []

namespace Scene

/-- A thread comes to another stage. -/
def move (s : Scene) (t : ThreadId) (stage : Stage) : Scene :=
  { s with stage := Function.update s.stage t stage }

/-- A connection is closed for good. -/
def shut (s : Scene) (x : ConnectionRef) : Scene :=
  { s with isOpen := Function.update s.isOpen x false }

/-- The channel kept for an id is taken out. -/
def forget (s : Scene) (id : ConnectionId) : Scene := { s with table := (s.table.remove id).2 }

variable (idOf : ConnectionRef → ConnectionId)

/-- The scene after the next step of a thread. Whoever waits for the lock stays while another has
it. -/
def next (s : Scene) (t : ThreadId) : Scene :=
  match s.stage t with
  | .asking x span => s.move t (if s.isOpen x then .seeking x span else .idle)
  | .seeking x span =>
    if s.turn = none then { s.move t (.looking x span (s.isOpen x)) with turn := some t } else s
  | .looking x span isOpen =>
    let (channel, table) := s.table.getOrAdd (idOf x) x isOpen span
    { s.move t .idle with table, turn := none, given := (x, channel) :: s.given }
  | .closing x => (s.shut x).move t (.closed x)
  | .closed x => s.move t (if s.table.isAlive && !s.isOpen x then .evicting x else .idle)
  | .evicting x => if s.turn = none then (s.forget (idOf x)).move t .idle else s
  | .shutting x => (s.shut x).move t (.forgetting x)
  | .forgetting x => if s.turn = none then (s.forget (idOf x)).move t (.failing x) else s
  | .failing x => { s.move t .idle with released := x :: s.released }
  | .idle => s

/-- The scene after one act. A thread that is not done leaves all as it is when asked for more. -/
def after (s : Scene) : Act → Scene
  | .begin t errand =>
    match s.stage t with
    | .idle => s.move t errand.stage
    | _ => s
  | .go t => s.next idOf t
  | .shut x => s.shut x
  | .part => { s with table := { s.table with isAlive := false } }

/-- The scene after a run of acts. -/
def run (s : Scene) (acts : List Act) : Scene := acts.foldl (after idOf) s

/-- The scene of a new table after a run of acts. -/
def ofActs (isOpen : ConnectionRef → Bool) (acts : List Act) : Scene := run idOf { isOpen } acts

/-! ### Errands that nobody interrupts

Done without a pause, the steps of an errand are what the tables of channels and the board have for
it.
-/

section Alone

variable {idOf} {s : Scene} {t : ThreadId} (hidle : s.stage t = .idle) (hturn : s.turn = none)

include hidle hturn

/-- A use of a connection that nobody interrupts is that of the table. -/
theorem run_whole_getOrAdd (x : ConnectionRef) (span : Duration) :
    s.run idOf (Act.whole t (.getOrAdd x span)) =
      let (channel, table) := s.table.getOrAdd (idOf x) x (s.isOpen x) span
      { s with table, given := (x, channel) :: s.given } := by
  simp [run, Act.whole, after, next, move, hidle, hturn, Errand.stage]

private theorem run_whole_getChannel (x : ConnectionRef) (span : Duration) :
    s.run idOf (Act.whole t (.getChannel x span)) =
      if s.isOpen x then
        let (channel, table) := s.table.getOrAdd (idOf x) x true span
        { s with table, given := (x, channel) :: s.given }
      else s := by
  have hstay : Function.update s.stage t .idle = s.stage := by
    rw [← hidle, Function.update_eq_self]
  cases hopen : s.isOpen x with
  | false => simp [run, Act.whole, after, next, move, hidle, Errand.stage, hopen, hstay]
  | true => simp [run, Act.whole, after, next, move, hidle, hturn, Errand.stage, hopen, hstay]

private theorem run_whole_close (channel : Channel) :
    s.run idOf (Act.whole t (.close channel)) =
      { s.shut channel.connection with
        table :=
          if s.table.isAlive then s.table.removeIfClosed (idOf channel.connection) false
          else s.table } := by
  cases halive : s.table.isAlive <;>
    simp [run, Act.whole, after, next, move, shut, forget, hidle, hturn, Errand.stage, halive,
      ChannelTable.removeIfClosed]

private theorem run_whole_release (x : ConnectionRef) :
    s.run idOf (Act.whole t (.release x)) =
      { (s.shut x).forget (idOf x) with released := x :: s.released } := by
  simp [run, Act.whole, after, next, move, shut, forget, hidle, hturn, Errand.stage]

end Alone

/-- A table of a board and the connections of that board, with no thread about anything. -/
def ofBoard (b : Board) (i : Nat) : Scene := { table := b.channelTable i, isOpen := b.isOpen }

section OfBoard

variable {b : Board} {c : ClientRef} (t : ThreadId)

/-- A client finds the channel of its connection so. -/
theorem channelOf_eq_run (htable : (b.client c).channels < b.channelTables.size)
    {x : ConnectionRef} (hx : (b.client c).connection = some x) :
    let s := (ofBoard b (b.client c).channels).run b.idOf
      (Act.whole t (.getChannel x (b.client c).settings.ackTimeout))
    (b.channelOf c).1 = (s.given.map (·.2)).head? ∧
      (b.channelOf c).2.channelTable (b.client c).channels = s.table := by
  rw [run_whole_getChannel rfl rfl]
  cases hopen : b.isOpen x with
  | false => simp [Board.channelOf, hx, hopen, ofBoard]
  | true =>
    simp only [Board.channelOf, hx, hopen, ofBoard, if_true]
    exact ⟨rfl, Board.channelTable_setIfInBounds htable _⟩

/-- A client lets go of a connection so. -/
theorem release_eq_run (htable : (b.client c).channels < b.channelTables.size)
    {x : ConnectionRef} (hwired : b.isWired x = true) :
    let s := (ofBoard b (b.client c).channels).run b.idOf (Act.whole t (.release x))
    (b.release c x).channelTable (b.client c).channels = s.table ∧
      (b.release c x).isOpen x = s.isOpen x := by
  rw [run_whole_release rfl rfl]
  have hclosed : (b.release c x).isOpen x = false := Board.isOpen_close hwired
  have hsize : (b.client c).channels < (b.close x).channelTables.size :=
    Board.channelTables_close b x ▸ htable
  refine ⟨?_, by simp [hclosed, shut, forget]⟩
  change ((b.close x).forgetChannel c x).channelTable (b.client c).channels = _
  rw [Board.forgetChannel, Board.channels_close, Board.channelTable_setIfInBounds hsize,
    Board.channelTable_close, Board.idOf_close]
  rfl

/-- A channel is closed so. -/
theorem closeChannel_eq_run {i : Nat} (htable : i < b.channelTables.size) {channel : Channel}
    (hwired : b.isWired channel.connection = true) :
    let s := (ofBoard b i).run b.idOf (Act.whole t (.close channel))
    let b' := (Machine.run Duty.body t (Op.closeChannel i channel) { state := b }).2.state
    b'.channelTable i = s.table ∧ b'.isOpen channel.connection = s.isOpen channel.connection := by
  rw [run_whole_close rfl rfl]
  have hclosed := Board.isOpen_close hwired
  have hsize : i < (b.close channel.connection).channelTables.size :=
    Board.channelTables_close b _ ▸ htable
  have hshut : false = Function.update b.isOpen channel.connection false channel.connection := by
    rw [Function.update_self]
  simp only [Op.closeChannel, Op.close, Machine.run_modify_bind, Machine.run_modify,
    Board.channelTable_close, Board.idOf_close, hclosed]
  by_cases halive : (b.channelTable i).isAlive = true
  · simp only [if_pos halive]
    exact ⟨(Board.channelTable_setIfInBounds hsize _).trans (if_pos halive).symm,
      hclosed.trans hshut⟩
  · simp only [if_neg halive]
    exact ⟨(Board.channelTable_close ..).trans (if_neg halive).symm, hclosed.trans hshut⟩

end OfBoard

end Scene

end Switchboard.Channels
