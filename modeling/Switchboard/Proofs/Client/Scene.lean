import Mathlib.Logic.Function.Basic
import Switchboard.Proofs.Exchange.Parts

/-!
# A client among its threads

Requests, the tasks that send them, responses, lost connections and the calls that close a client
all work on the exchange of that client, each in a thread of its own. A scene is the exchange in
the middle of this: it knows how far the call of every request has come, which entries were taken
out of the table and still have to be failed, and how far the closing of the client has come. An
act is one move of one thread, either an atomic operation or all that is done under the lock of the
table; a run is a list of acts, the moves of all threads in any order.
-/

namespace Switchboard.Client

open Exchange (number promisesOf)

/-- How far the call of a request has come. -/
inductive Stage where
  /-- It was not made yet. -/
  | absent
  /-- It has drawn its number. -/
  | numbered
  /-- It has filed its promise. -/
  | filed
  /-- It has found the client open. -/
  | admitted
  /-- It has to fail its request. -/
  | refused (failure : Failure)
  /-- It has returned, and a task sends its request. -/
  | sending
  /-- It has failed its request and returned. -/
  | failed
deriving DecidableEq

namespace Stage

/-- Whether a call has returned. -/
def isReturned : Stage → Bool
  | sending | failed => true
  | _ => false

/-- Whether a call has filed its promise and, if the client is closed, goes on to fail its
request. -/
def isTurnedBack : Stage → Bool
  | filed | refused _ => true
  | _ => false

end Stage

/-- How far the closing of a client has come. -/
inductive Closing where
  /-- Nobody has closed it. -/
  | idle
  /-- It is marked as closed. -/
  | marked
  /-- Its connection was let go of. -/
  | released
  /-- Its table was emptied. -/
  | drained
  /-- The call that closed it has returned. -/
  | returned
deriving DecidableEq

namespace Closing

/-- Whether the closing call may have entries that it took out and still has to fail. -/
def isSettling : Closing → Bool
  | released | drained => true
  | _ => false

/-- Whether the table was emptied for good. -/
def isDrained : Closing → Bool
  | drained | returned => true
  | _ => false

end Closing

/-- One move of one thread. The calls of requests are named by their promises. -/
inductive Act where
  /-- A request is made: its call draws a number. -/
  | draw
  /-- A call files its promise. -/
  | file (promise : PromiseId)
  /-- A call looks whether the client is closed. -/
  | look (promise : PromiseId)
  /-- A call hands its request to a task and returns. -/
  | spawn (promise : PromiseId)
  /-- A call cannot write its request down, or no task takes it. -/
  | refuse (promise : PromiseId) (failure : Failure)
  /-- A call fails its request and returns. -/
  | giveUp (promise : PromiseId)
  /-- A task notes the connection that it writes its request on. -/
  | sentOn (promise : PromiseId) (connection : ConnectionId)
  /-- A task cannot send its request. -/
  | fail (promise : PromiseId) (failure : Failure)
  /-- A frame arrives. -/
  | received (frame : Bytes)
  /-- A connection is lost, or let go of to connect again: its entries are taken out. -/
  | lose (connection : ConnectionId)
  /-- An entry that was taken out for its connection is failed. -/
  | settle (entry : UInt64 × Exchange.Entry)
  /-- A call closes the client; only the first one goes on. -/
  | close
  /-- The closing call lets go of the connection: its entries are taken out. -/
  | release (connection : ConnectionId)
  /-- The closing call takes out all entries that are left. -/
  | drain
  /-- The closing call fails the next entry that it took out. -/
  | settleOwn
  /-- The closing call returns. -/
  | leave
  /-- A caller completes a promise that it holds. -/
  | complete (promise : PromiseId) (outcome : Outcome Response)
  /-- A caller copies its handle on a promise. -/
  | share (promise : PromiseId)
  /-- A caller gives up a handle on a promise. -/
  | drop (promise : PromiseId)

/-- Whether an act makes a request. -/
def Act.isDraw : Act → Bool
  | .draw => true
  | _ => false

/-- A client among its threads. -/
structure Scene where
  /-- The exchange. -/
  exchange : Exchange := {}
  /-- The promises. -/
  store : Promises := {}
  /-- How far the call of every promise has come. -/
  stage : PromiseId → Stage := fun _ => .absent
  /-- The number that every call has drawn. -/
  drawn : PromiseId → UInt64 := fun _ => 0
  /-- The handles of the callers, each by the promise that it holds. -/
  held : List PromiseId := []
  /-- The entries taken out for their connections that are not failed yet. -/
  lost : List (UInt64 × Exchange.Entry) := []
  /-- How far the closing has come. -/
  closing : Closing := .idle
  /-- The entries taken out by the closing call that are not failed yet. -/
  left : List (UInt64 × Exchange.Entry) := []

namespace Scene

/-- The call of a promise comes to another stage. -/
def move (s : Scene) (p : PromiseId) (stage : Stage) : Scene :=
  { s with stage := Function.update s.stage p stage }

/-- What an operation of the exchange leaves behind. -/
def update (s : Scene) (result : Exchange × Promises) : Scene :=
  { s with exchange := result.1, store := result.2 }

/-- The scene after one act. A thread that has not come to its act yet leaves all as it is. -/
def after (s : Scene) : Act → Scene
  | .draw =>
    let (id, exchange) := s.exchange.draw
    let (p, store) := s.store.add .pending
    { s with
      exchange, store
      stage := Function.update s.stage p .numbered
      drawn := Function.update s.drawn p id
      held := p :: s.held }
  | .file p =>
    if s.stage p = .numbered then
      (s.update (s.exchange.file s.store (s.drawn p) p)).move p .filed
    else s
  | .look p =>
    if s.stage p = .filed then
      s.move p (if s.closing = .idle then .admitted else .refused .connectionClosed)
    else s
  | .spawn p => if s.stage p = .admitted then s.move p .sending else s
  | .refuse p failure => if s.stage p = .admitted then s.move p (.refused failure) else s
  | .giveUp p =>
    match s.stage p with
    | .refused failure =>
      (s.update (s.exchange.finish s.store (s.drawn p) (.error failure)).2).move p .failed
    | _ => s
  | .sentOn p connection =>
    if s.stage p = .sending then { s with exchange := (s.exchange.sentOn (s.drawn p) connection).2 }
    else s
  | .fail p failure =>
    if s.stage p = .sending then s.update (s.exchange.finish s.store (s.drawn p) (.error failure)).2
    else s
  | .received frame => s.update (s.exchange.received s.store frame)
  | .lose connection =>
    let (entries, exchange) := s.exchange.takeOut fun entry => entry.connection == some connection
    { s with exchange, lost := entries ++ s.lost }
  | .settle entry =>
    if entry ∈ s.lost then
      { s with
        store := Exchange.failEntry .connectionClosed s.store entry
        lost := s.lost.erase entry }
    else s
  | .close => if s.closing = .idle then { s with closing := .marked } else s
  | .release connection =>
    if s.closing = .marked then
      let (left, exchange) := s.exchange.takeOut fun entry => entry.connection == some connection
      { s with exchange, closing := .released, left }
    else s
  | .drain =>
    if (s.closing = .marked ∨ s.closing = .released) ∧ s.left = [] then
      let (left, exchange) := s.exchange.takeOut fun _ => true
      { s with exchange, closing := .drained, left }
    else s
  | .settleOwn =>
    match s.left with
    | entry :: left =>
      { s with store := Exchange.failEntry .connectionClosed s.store entry, left }
    | [] => s
  | .leave =>
    if s.closing = .drained ∧ s.left = [] then { s with closing := .returned } else s
  | .complete p outcome =>
    if (s.stage p).isReturned ∧ p ∈ s.held then
      { s with store := (s.store.complete p outcome).2 }
    else s
  | .share p =>
    if (s.stage p).isReturned ∧ p ∈ s.held then
      { s with store := s.store.hold p, held := p :: s.held }
    else s
  | .drop p =>
    if (s.stage p).isReturned ∧ p ∈ s.held then
      { s with store := s.store.release p, held := s.held.erase p }
    else s

/-- The scene after a run of acts. -/
def run (s : Scene) (acts : List Act) : Scene := acts.foldl after s

/-- The scene of a new client after a run of acts. -/
def ofActs (acts : List Act) : Scene := run {} acts

/-- Whether a promise has no outcome yet. -/
def IsPending (s : Scene) (p : PromiseId) : Prop := (s.store.get p).outcome = none

/-- Whether a promise has an outcome. -/
def IsDone (s : Scene) (p : PromiseId) : Prop := (s.store.get p).isDone = true

/-- A promise is done unless it is pending. -/
theorem isDone_iff {s : Scene} {p : PromiseId} : s.IsDone p ↔ ¬ s.IsPending p := by
  simp [IsDone, IsPending, Promise.isDone, Option.isSome_iff_ne_none]

/-- The entries that were taken out of the table and are not failed yet. -/
def taken (s : Scene) : List (UInt64 × Exchange.Entry) := s.lost ++ s.left

/-- How many handles on a promise the table and the entries taken out of it have. -/
def copies (s : Scene) (p : PromiseId) : Nat :=
  (s.exchange.isFiled p).toNat + (promisesOf s.taken).count p

/-! ### Threads that nobody interrupts

Done without a pause, the acts of a thread are the operations of the exchange. -/

/-- A call that draws its number and files its promise takes a request up. -/
theorem run_draw_file {s : Scene} (hs : s.exchange.Numbered s.store.size) :
    s.run [.draw, .file s.store.size] =
      { s.update (s.exchange.take s.store).2 with
        stage := Function.update s.stage s.store.size .filed
        drawn := Function.update s.drawn s.store.size s.exchange.nextId
        held := s.store.size :: s.held } := by
  have hstage : (s.after .draw).stage s.store.size = .numbered := Function.update_self ..
  have hdrawn : (s.after .draw).drawn s.store.size = s.exchange.nextId := Function.update_self ..
  have hfile : (s.after .draw).after (.file s.store.size) =
      ((s.after .draw).update ((s.after .draw).exchange.file (s.after .draw).store
        ((s.after .draw).drawn s.store.size) s.store.size)).move s.store.size .filed :=
    if_pos hstage
  change (s.after .draw).after (.file s.store.size) = _
  rw [hfile, hdrawn, Exchange.take_eq_file hs]
  have hadd : (s.store.add .pending).1 = s.store.size := rfl
  simp only [after, update, move, hadd, Function.update_idem]
  rfl

/-- Entries that were taken out are failed one after the other. -/
theorem run_settle (s : Scene) :
    s.run (s.lost.map .settle) =
      { s with
        store := s.lost.foldl (Exchange.failEntry .connectionClosed) s.store
        lost := [] } := by
  generalize hlost : s.lost = lost
  induction lost generalizing s with
  | nil =>
    cases s
    cases hlost
    rfl
  | cons entry rest ih =>
    change (s.after (.settle entry)).run (rest.map .settle) = _
    have hafter : s.after (.settle entry) =
        { s with store := Exchange.failEntry .connectionClosed s.store entry, lost := rest } := by
      simp [after, hlost]
    rw [hafter, ih _ rfl]
    rfl

/-- A connection whose entries are all failed at once is closed. -/
theorem run_lose {s : Scene} (hlost : s.lost = []) (c : ConnectionId) :
    s.run (.lose c :: (s.after (.lose c)).lost.map .settle) =
      s.update (s.exchange.closed s.store c) := by
  change (s.after (.lose c)).run ((s.after (.lose c)).lost.map .settle) = _
  rw [run_settle]
  simp only [Exchange.closed, Exchange.failConnection, Exchange.failWhere_eq_takeOut, after, hlost,
    List.append_nil, update]

/-- The closing call fails the entries that it took out one after the other. -/
theorem run_settleOwn (s : Scene) :
    s.run (List.replicate s.left.length .settleOwn) =
      { s with
        store := s.left.foldl (Exchange.failEntry .connectionClosed) s.store
        left := [] } := by
  generalize hleft : s.left = left
  induction left generalizing s with
  | nil =>
    cases s
    cases hleft
    rfl
  | cons entry rest ih =>
    change (s.after .settleOwn).run (List.replicate rest.length .settleOwn) = _
    have hafter : s.after .settleOwn =
        { s with store := Exchange.failEntry .connectionClosed s.store entry, left := rest } := by
      simp only [after, hleft]
    rw [hafter, ih _ rfl]
    rfl

/-- A closing call that lets go of the connection fails its requests. -/
theorem run_release {s : Scene} (hmarked : s.closing = .marked) (hleft : s.left = [])
    (c : ConnectionId) :
    s.run (.release c :: List.replicate (s.after (.release c)).left.length .settleOwn) =
      { s.update (s.exchange.failConnection s.store c .connectionClosed).2 with
        closing := .released } := by
  change (s.after (.release c)).run _ = _
  rw [run_settleOwn]
  simp only [Exchange.failConnection, Exchange.failWhere_eq_takeOut, after, hmarked, if_true,
    update, hleft]

/-- A closing call that empties the table fails all requests. -/
theorem run_drain {s : Scene} (hclosing : s.closing = .marked ∨ s.closing = .released)
    (hleft : s.left = []) :
    s.run (.drain :: List.replicate (s.after .drain).left.length .settleOwn) =
      { s.update (s.exchange.failAll s.store .connectionClosed).2 with closing := .drained } := by
  change (s.after .drain).run _ = _
  rw [run_settleOwn]
  simp only [Exchange.failAll, Exchange.failWhere_eq_takeOut, after, hclosing, hleft, and_self,
    if_true, update]

end Scene

end Switchboard.Client
