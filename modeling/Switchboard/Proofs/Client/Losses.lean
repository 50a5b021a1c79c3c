import Switchboard.Proofs.Client.Custody
import Switchboard.Proofs.Exchange.Parts

/-!
# Requests that are lost with a connection

Whoever lets go of a client's connection fails the requests that were recorded on it, and no others:
a request that was not written yet stays in the table with its promise pending, and so does one that
was recorded on another connection. The closing of a link tells both its ends, and the client's end
fails the same requests once more; there are none left then.
-/

namespace Switchboard

namespace Exchange

/-- Whether a request was last recorded on a connection. -/
def Entry.isOn (id : ConnectionId) (e : Entry) : Bool := e.connection == some id

variable {x : Exchange} {lost lost' : Entry → Bool}

/-- What is taken out is gone, and the rest is where it was. -/
theorem getElem?_takeOut (x : Exchange) (lost : Entry → Bool) (id : UInt64) :
    (x.takeOut lost).2.entries[id]? = x.entries[id]?.filter fun e => !lost e :=
  Std.ExtTreeMap.getElem?_filter'

/-- Entries may be taken out one kind after the other. -/
theorem takeOut_takeOut (x : Exchange) (lost lost' : Entry → Bool) :
    ((x.takeOut lost).2.takeOut lost').2 = (x.takeOut fun e => lost e || lost' e).2 := by
  refine congrArg (Exchange.mk x.nextId) (Std.ExtTreeMap.ext_getElem? fun id => ?_)
  rw [Std.ExtTreeMap.getElem?_filter', getElem?_takeOut, Std.ExtTreeMap.getElem?_filter']
  cases x.entries[id]? with
  | none => rfl
  | some e => cases lost e <;> simp

/-- Only what the entries are like matters. -/
theorem takeOut_congr
    (h : ∀ (id : UInt64) (e : Entry), x.entries[id]? = some e → lost e = lost' e) :
    x.takeOut lost = x.takeOut lost' := by
  refine Prod.ext (List.filter_congr fun entry hentry => ?_)
    (congrArg (Exchange.mk x.nextId) (Std.ExtTreeMap.ext_getElem? fun id => ?_))
  · exact h entry.1 entry.2 (Std.ExtTreeMap.mem_toList_iff_getElem?_eq_some.mp hentry)
  · rw [Std.ExtTreeMap.getElem?_filter', Std.ExtTreeMap.getElem?_filter']
    cases he : x.entries[id]? with
    | none => rfl
    | some e => simp only [Option.filter_some, h id e he]

private theorem takeOut_none (x : Exchange) : x.takeOut (fun _ => false) = ([], x) := by
  refine Prod.ext (List.filter_eq_nil_iff.mpr fun _ _ => Bool.false_ne_true)
    (congrArg (Exchange.mk x.nextId) (Std.ExtTreeMap.ext_getElem? fun id => ?_))
  rw [Std.ExtTreeMap.getElem?_filter']
  cases x.entries[id]? <;> rfl

/-- The promises that are taken out in two turns are those that are taken out at once. -/
theorem mem_promisesOf_takeOut_or {p : PromiseId} :
    p ∈ promisesOf (x.takeOut fun e => lost e || lost' e).1 ↔
      p ∈ promisesOf (x.takeOut lost).1 ∨ p ∈ promisesOf ((x.takeOut lost).2.takeOut lost').1 := by
  simp only [mem_promisesOf_takeOut, getElem?_takeOut, Option.filter_eq_some_iff]
  constructor
  · rintro ⟨id, e, he, hlost, rfl⟩
    cases hfirst : lost e with
    | true => exact .inl ⟨id, e, he, hfirst, rfl⟩
    | false => exact .inr ⟨id, e, ⟨he, by simp [hfirst]⟩, by simpa [hfirst] using hlost, rfl⟩
  · rintro (⟨id, e, he, hlost, rfl⟩ | ⟨id, e, ⟨he, -⟩, hlost, rfl⟩)
    · exact ⟨id, e, he, by simp [hlost], rfl⟩
    · exact ⟨id, e, he, by simp [hlost], rfl⟩

end Exchange

namespace Board

open Exchange (promisesOf)

variable {b b' b'' : Board} {c : ClientRef} {x : ConnectionRef} {lost lost' : Exchange.Entry → Bool}
  {held held' : Option ConnectionRef}

/-- Who is told when a connection is closed, and of which end. -/
def told (b : Board) (x : ConnectionRef) : List (ConnectionRef × Handler) :=
  match (b.connection x).medium with
  | .loopback i _ => (b.link i).close.1
  | .standIn _ => []

/-- Whether no client but this one is told when a connection is closed, and of no other one. -/
def TellsOnly (b : Board) (c : ClientRef) (x : ConnectionRef) : Prop :=
  ∀ t ∈ b.told x, ∀ d, t.2 = .exchange d → d = c ∧ b.idOf t.1 = b.idOf x

/-- Whether a request was last recorded on the connection that a client has. -/
def isOnHeld (b : Board) (c : ClientRef) (e : Exchange.Entry) : Bool :=
  (b.client c).connection.any fun x => e.isOn (b.idOf x)

private theorem idOf_noteClosed (b : Board) (told : ConnectionRef × Handler) (y : ConnectionRef) :
    (b.noteClosed told).idOf y = b.idOf y := by
  obtain ⟨x, handler⟩ := told
  cases handler <;> rfl

/-- Connections keep their ids when one of them is closed. -/
theorem idOf_close (b : Board) (x y : ConnectionRef) : (b.close x).idOf y = b.idOf y := by
  refine close_of_steps (R := fun b b' => b'.idOf y = b.idOf y) (fun _ => rfl)
    (fun h h' => h'.trans h) (idOf_noteClosed · · y) (fun _ _ => rfl) (fun b x => ?_) b x
  simp only [idOf, connection, onWire, Array.getD_eq_getD_getElem?, Array.getElem?_modify]
  split
  · cases b.connections[y]? with
    | none => rfl
    | some connection =>
      simp only [Option.map_some, Option.getD_some]
      split <;> rfl
  · rfl

/-- A client loses the requests of a kind and no others, and has a certain connection then. What is
lost leaves the table, and its promises fail unless they are complete; all other promises stay as
they are, and so does everything else about the client. -/
structure Loses (c : ClientRef) (lost : Exchange.Entry → Bool) (held : Option ConnectionRef)
    (b b' : Board) : Prop where
  size_eq : b'.clients.size = b.clients.size
  client_eq : b'.client c =
    { b.client c with connection := held, exchange := ((b.client c).exchange.takeOut lost).2 }
  promises_size : b'.promises.size = b.promises.size
  outcome_eq : ∀ p < b.promises.size, (b'.promises.get p).outcome =
    if p ∈ promisesOf ((b.client c).exchange.takeOut lost).1 then
      some ((b.promises.get p).outcome.getD (.error .connectionClosed))
    else (b.promises.get p).outcome

namespace Loses

/-- What is lost is taken out of the exchange. -/
theorem exchange_eq (h : Loses c lost held b b') :
    (b'.client c).exchange = ((b.client c).exchange.takeOut lost).2 :=
  congrArg Client.exchange h.client_eq

/-- The client has the connection that it was said to have then. -/
theorem connection_eq (h : Loses c lost held b b') : (b'.client c).connection = held :=
  congrArg Client.connection h.client_eq

/-- Losing requests leaves the mark of a client alone. -/
theorem isClosed_eq (h : Loses c lost held b b') :
    (b'.client c).isClosed = (b.client c).isClosed := by
  rw [h.client_eq]

/-- A client that only takes another connection loses nothing. -/
theorem of_client_eq (hsize : b'.clients.size = b.clients.size)
    (hclient : b'.client c = { b.client c with connection := held })
    (hpromises : b'.promises = b.promises) : Loses c (fun _ => false) held b b' where
  size_eq := hsize
  client_eq := by rw [hclient, Exchange.takeOut_none]
  promises_size := by rw [hpromises]
  outcome_eq := by simp [hpromises, Exchange.takeOut_none, promisesOf]

/-- Where nothing happens, nothing is lost. -/
theorem refl (c : ClientRef) (b : Board) :
    Loses c (fun _ => false) (b.client c).connection b b :=
  of_client_eq rfl rfl rfl

/-- Over two steps both of their losses are lost. -/
theorem trans (h : Loses c lost held b b') (h' : Loses c lost' held' b' b'') :
    Loses c (fun e => lost e || lost' e) held' b b'' where
  size_eq := h'.size_eq.trans h.size_eq
  client_eq := by rw [h'.client_eq, h.client_eq, ← Exchange.takeOut_takeOut]
  promises_size := h'.promises_size.trans h.promises_size
  outcome_eq := by
    intro p hp
    rw [h'.outcome_eq p (h.promises_size ▸ hp), h.outcome_eq p hp, h.exchange_eq]
    simp only [Exchange.mem_promisesOf_takeOut_or]
    by_cases hfirst : p ∈ promisesOf ((b.client c).exchange.takeOut lost).1 <;> simp [hfirst]

/-- What is lost may be told in another way. -/
theorem congr (h : Loses c lost held b b')
    (hlost : ∀ (id : UInt64) (e : Exchange.Entry),
      (b.client c).exchange.entries[id]? = some e → lost e = lost' e) :
    Loses c lost' held b b' := by
  have hsame := Exchange.takeOut_congr hlost
  obtain ⟨hsize, hclient, hpromises, houtcome⟩ := h
  rw [hsame] at hclient houtcome
  exact ⟨hsize, hclient, hpromises, houtcome⟩

/-- A connection that is lost takes the requests along that were recorded on it. -/
theorem closed (hc : c < b.clients.size) (id : ConnectionId) :
    Loses c (Exchange.Entry.isOn id) (b.client c).connection b
      (b.changeExchange c fun x store => ((), x.closed store id)).2 where
  size_eq := Array.size_modify ..
  client_eq := client_onClient hc _
  promises_size := Exchange.size_failEntries ..
  outcome_eq _ hp := Exchange.outcome_failEntries _ _ _ hp

/-- Whoever sits at an end of a link that closes loses requests of its connection at most. -/
theorem noteClosed (hc : c < b.clients.size) {id : ConnectionId} {told : ConnectionRef × Handler}
    (htold : ∀ d, told.2 = .exchange d → d = c ∧ b.idOf told.1 = id) :
    ∃ lost, (∀ e, lost e = true → Exchange.Entry.isOn id e = true) ∧
      Loses c lost (b.client c).connection b (b.noteClosed told) := by
  obtain ⟨x, handler⟩ := told
  cases handler with
  | exchange d =>
    obtain ⟨rfl, rfl⟩ := htold d rfl
    exact ⟨_, fun _ he => he, closed hc _⟩
  | commands => exact ⟨_, by simp, refl c b⟩
  | farEnd => exact ⟨_, by simp, of_client_eq rfl rfl rfl⟩
  | observer => exact ⟨_, by simp, of_client_eq rfl rfl rfl⟩

private theorem foldl_noteClosed (hc : c < b.clients.size) {id : ConnectionId}
    {told : List (ConnectionRef × Handler)}
    (htold : ∀ t ∈ told, ∀ d, t.2 = .exchange d → d = c ∧ b.idOf t.1 = id) :
    ∃ lost, (∀ e, lost e = true → Exchange.Entry.isOn id e = true) ∧
      Loses c lost (b.client c).connection b (told.foldl Board.noteClosed b) := by
  induction told generalizing b with
  | nil => exact ⟨_, by simp, refl c b⟩
  | cons first rest ih =>
    obtain ⟨lost, hlost, hfirst⟩ := noteClosed hc (htold first List.mem_cons_self)
    have hrest : ∀ t ∈ rest, ∀ d, t.2 = .exchange d →
        d = c ∧ (b.noteClosed first).idOf t.1 = id := by
      intro t ht
      rw [idOf_noteClosed]
      exact htold t (List.mem_cons_of_mem first ht)
    obtain ⟨lost', hlost', hrest⟩ := ih (hfirst.size_eq ▸ hc) hrest
    rw [hfirst.connection_eq] at hrest
    exact ⟨_, fun e he => (Bool.or_eq_true_iff.mp he).elim (hlost e) (hlost' e),
      hfirst.trans hrest⟩

/-- Closing a connection loses requests of it at most. -/
theorem close (hc : c < b.clients.size) (hx : b.TellsOnly c x) :
    ∃ lost, (∀ e, lost e = true → Exchange.Entry.isOn (b.idOf x) e = true) ∧
      Loses c lost (b.client c).connection b (b.close x) := by
  unfold TellsOnly told at hx
  unfold Board.close
  split
  · next i side hmedium =>
    rw [hmedium] at hx
    have hset : Loses c (fun _ => false) (b.client c).connection b
        { b with links := b.links.setIfInBounds i (b.link i).close.2 } :=
      of_client_eq rfl rfl rfl
    obtain ⟨lost, hlost, hclosed⟩ := foldl_noteClosed
      (b := { b with links := b.links.setIfInBounds i (b.link i).close.2 }) hc hx
    exact ⟨_, hlost, hset.trans hclosed⟩
  · exact ⟨_, by simp, of_client_eq rfl rfl rfl⟩

/-- Whoever lets go of a connection loses just the requests of it. -/
theorem release (hc : c < b.clients.size) (hx : b.TellsOnly c x) :
    Loses c (Exchange.Entry.isOn (b.idOf x)) (b.client c).connection b (b.release c x) := by
  obtain ⟨lost, hlost, hclose⟩ := close hc hx
  have hforget : Loses c (fun _ => false) (b.client c).connection (b.close x)
      ((b.close x).forgetChannel c x) :=
    of_client_eq rfl (by rw [← hclose.connection_eq]; rfl) rfl
  have hforgotten := hclose.trans hforget
  have hfail := closed (hforgotten.size_eq ▸ hc) (((b.close x).forgetChannel c x).idOf x)
  rw [hforgotten.connection_eq] at hfail
  rw [release_eq]
  refine (hforgotten.trans hfail).congr fun id e _ => ?_
  have hid : ((b.close x).forgetChannel c x).idOf x = b.idOf x := idOf_close b x x
  rw [hid]
  cases hon : e.isOn (b.idOf x) with
  | true => simp
  | false =>
    have hlost : lost e = false := Bool.eq_false_iff.mpr fun he => by simp [hlost e he] at hon
    simp [hlost]

/-- Another connection in place costs no request. -/
theorem replaceConnection (hc : c < b.clients.size) (held : Option ConnectionRef) :
    Loses c (fun _ => false) held b (b.replaceConnection c held).2 :=
  of_client_eq (Array.size_modify ..) (client_onClient hc _) rfl

/-- A client that lets go of its connection loses the requests of it, and has none then. -/
theorem disconnected (hc : c < b.clients.size)
    (hheld : ∀ x ∈ (b.client c).connection, b.TellsOnly c x) :
    Loses c (b.isOnHeld c) none b (b.disconnected c) := by
  have htaken := replaceConnection hc (b := b) none
  cases hconnection : (b.client c).connection with
  | none =>
    have hsame : b.disconnected c = (b.replaceConnection c none).2 := by
      simp only [Board.disconnected, Board.replaceConnection, hconnection]
    rw [hsame]
    exact htaken.congr fun id e _ => by simp [isOnHeld, hconnection]
  | some x =>
    have hsame : b.disconnected c = (b.replaceConnection c none).2.release c x := by
      simp only [Board.disconnected, Board.replaceConnection, hconnection]
    have hrelease := release (b := (b.replaceConnection c none).2) (htaken.size_eq ▸ hc)
      (hheld x hconnection)
    rw [htaken.connection_eq] at hrelease
    rw [hsame]
    exact (htaken.trans hrelease).congr fun id e _ => by simp [isOnHeld, hconnection]; rfl

end Loses

end Board

end Switchboard
