import Switchboard.Board.Clients

/-!
# Connections that stay closed

A connection that was closed stays closed, whatever the work on the board, and most of that work
leaves a client's connection and its mark alone. Work that does both spares the client.
-/

namespace Switchboard

/-- A link that was closed is not open. -/
theorem Link.isOpen_close (l : Link) : l.close.2.isOpen = false := by
  unfold Link.close
  split
  · rfl
  · next h => simpa using h

/-- Writing a frame leaves a link open or closed. -/
theorem Link.isOpen_write (l : Link) (side : Side) (frame : Bytes) (ack : AckRef) :
    (l.write side frame ack).2.isOpen = l.isOpen := by
  unfold Link.write Link.setLane
  split
  · cases side <;> rfl
  · rfl

namespace Board

variable {b b' b'' : Board} {c : ClientRef} {x : ConnectionRef}

/-- Whether closing a connection closes it: it runs over a link of the board, or over a stand-in
that does not stay open. -/
def isWired (b : Board) (x : ConnectionRef) : Bool :=
  decide (x < b.connections.size) &&
    match (b.connection x).medium with
    | .loopback link _ => decide (link < b.links.size)
    | .standIn wire => !wire.isStubborn

/-- Whether no wired connection was torn off or opened again. -/
def KeepsClosed (b b' : Board) : Prop :=
  ∀ x < b.connections.size, b.isWired x = true →
    b'.isWired x = true ∧ (b'.isOpen x = true → b.isOpen x = true)

/-- Whether a connection was torn off or opened again can be seen on two boards. -/
instance (b b' : Board) : Decidable (b.KeepsClosed b') :=
  inferInstanceAs (Decidable (∀ x < _, _))

/-- Whether work is none of a client's: its connection and its mark are left alone, and no wired
connection was torn off or opened again. -/
def Spares (c : ClientRef) (b b' : Board) : Prop :=
  b.clients.size ≤ b'.clients.size ∧ (b'.client c).connection = (b.client c).connection ∧
    (b'.client c).isClosed = (b.client c).isClosed ∧ b.KeepsClosed b'

/-- Whether a client was spared can be seen on two boards. -/
instance (c : ClientRef) (b b' : Board) : Decidable (Spares c b b') :=
  inferInstanceAs (Decidable (_ ≤ _ ∧ _ = _ ∧ _ = _ ∧ b.KeepsClosed b'))

private theorem lt_size_of_isWired (h : b.isWired x = true) : x < b.connections.size := by
  simp only [isWired, Bool.and_eq_true, decide_eq_true_eq] at h
  exact h.1

/-! ### Work that closes connections at most -/

namespace KeepsClosed

/-- A wired connection stays wired. -/
theorem isWired (h : b.KeepsClosed b') (hx : b.isWired x = true) : b'.isWired x = true :=
  (h x (lt_size_of_isWired hx) hx).1

/-- A wired connection that is open was open before. -/
theorem isOpen (h : b.KeepsClosed b') (hx : b.isWired x = true) (hopen : b'.isOpen x = true) :
    b.isOpen x = true :=
  (h x (lt_size_of_isWired hx) hx).2 hopen

private theorem trans (h : b.KeepsClosed b') (h' : b'.KeepsClosed b'') : b.KeepsClosed b'' :=
  fun _ _ hx => ⟨h'.isWired (h.isWired hx),
    fun hopen => h.isOpen hx (h'.isOpen (h.isWired hx) hopen)⟩

/-- Work on other things than connections and links. -/
theorem of_eq (hconnections : b'.connections = b.connections) (hlinks : b'.links = b.links) :
    b.KeepsClosed b' := by
  intro x _ hx
  simp only [Board.isWired, Board.isOpen, connection, link, hconnections, hlinks] at hx ⊢
  exact ⟨hx, id⟩

private theorem link_setIfInBounds (b : Board) (i j : Nat) (l : Link) :
    Board.link { b with links := b.links.setIfInBounds i l } j =
      if i = j ∧ i < b.links.size then l else b.link j := by
  simp only [link, Array.getD_eq_getD_getElem?, Array.getElem?_setIfInBounds]
  by_cases hij : i = j
  · subst hij
    by_cases hi : i < b.links.size <;> simp [hi]
  · simp [hij]

/-- A stand-in changes under its own connection only. -/
theorem medium_onWire (b : Board) (x : ConnectionRef) (f : Wire → Wire) {y : ConnectionRef}
    (hy : y < b.connections.size) :
    ((b.onWire x f).connection y).medium =
      match (b.connection y).medium with
      | .standIn wire => .standIn (if x = y then f wire else wire)
      | .loopback link side => .loopback link side := by
  simp only [connection, Board.onWire, Array.getD_eq_getD_getElem?, Array.getElem?_modify]
  by_cases hxy : x = y
  · subst hxy
    simp only [if_true, Array.getElem?_eq_getElem hy, Option.map_some, Option.getD_some]
    split <;> simp_all
  · simp only [if_neg hxy]
    split <;> simp_all

/-- A link may be closed. -/
theorem setLink (i : Nat) (l : Link) (hl : l.isOpen = true → (b.link i).isOpen = true) :
    b.KeepsClosed { b with links := b.links.setIfInBounds i l } := by
  intro x _ hx
  refine ⟨?_, ?_⟩
  · simpa [Board.isWired, connection] using hx
  · have hmedium : Board.connection { b with links := b.links.setIfInBounds i l } x =
        b.connection x := rfl
    simp only [Board.isOpen, hmedium, link_setIfInBounds]
    cases (b.connection x).medium with
    | standIn wire => exact id
    | loopback j side =>
      change (if i = j ∧ i < b.links.size then l else b.link j).isOpen = true →
        (b.link j).isOpen = true
      split
      · next hij => exact hij.1 ▸ hl
      · exact id

/-- A stand-in may be closed, unless it is stubborn. -/
theorem onWire (x : ConnectionRef) (f : Wire → Wire)
    (hstubborn : ∀ wire, (f wire).isStubborn = wire.isStubborn)
    (hopen : ∀ wire, (f wire).isOpen = true → wire.isOpen = true) :
    b.KeepsClosed (b.onWire x f) := by
  intro y hy hwired
  have hsize : (b.onWire x f).connections.size = b.connections.size := Array.size_modify ..
  simp only [Board.isWired, Board.isOpen, hsize, medium_onWire b x f hy] at hwired ⊢
  cases hmedium : (b.connection y).medium with
  | loopback link side =>
    rw [hmedium] at hwired
    exact ⟨hwired, id⟩
  | standIn wire =>
    rw [hmedium] at hwired
    by_cases hxy : x = y
    · simp only [hxy, if_true, hstubborn]
      exact ⟨hwired, hopen wire⟩
    · simp only [hxy, if_false]
      exact ⟨hwired, id⟩

/-- New connections leave the old ones. -/
theorem push (connection : Connection) :
    b.KeepsClosed { b with connections := b.connections.push connection } := by
  intro x hx hwired
  have hsame : Board.connection { b with connections := b.connections.push connection } x =
      b.connection x := by
    simp only [Board.connection, Array.getD_eq_getD_getElem?, Array.getElem?_push,
      if_neg (Nat.ne_of_lt hx)]
  simp only [Board.isWired, Board.isOpen, hsame, Array.size_push, Bool.and_eq_true,
    decide_eq_true_eq] at hwired ⊢
  exact ⟨⟨Nat.lt_succ_of_lt hx, hwired.2⟩, id⟩

/-- New links leave the old ones. -/
theorem pushLink (l : Link) : b.KeepsClosed { b with links := b.links.push l } := by
  intro x _ hwired
  have hsame : Board.connection { b with links := b.links.push l } x = b.connection x := rfl
  simp only [Board.isWired, Board.isOpen, hsame, Array.size_push, Bool.and_eq_true,
    decide_eq_true_eq] at hwired ⊢
  cases hmedium : (b.connection x).medium with
  | standIn wire =>
    rw [hmedium] at hwired
    exact ⟨hwired, id⟩
  | loopback i side =>
    rw [hmedium] at hwired
    have hi : i < b.links.size := by simpa using hwired.2
    have hlink : Board.link { b with links := b.links.push l } i = b.link i := by
      simp only [Board.link, Array.getD_eq_getD_getElem?, Array.getElem?_push,
        if_neg (Nat.ne_of_lt hi)]
    simp only [hlink]
    exact ⟨⟨hwired.1, by simpa using Nat.lt_succ_of_lt hi⟩, id⟩

end KeepsClosed

/-! ### What closing a connection comes to -/

section Close

variable {R : Board → Board → Prop} (hrefl : ∀ b, R b b)
  (htrans : ∀ {b b' b''}, R b b' → R b' b'' → R b b'')
  (hnote : ∀ (b : Board) (told : ConnectionRef × Handler), R b (b.noteClosed told))

include hrefl htrans hnote

/-- What lasts when one is told of the closing of a connection lasts when several are. -/
theorem foldl_noteClosed_of_steps (b : Board) (told : List (ConnectionRef × Handler)) :
    R b (told.foldl noteClosed b) := by
  induction told generalizing b with
  | nil => exact hrefl b
  | cons first rest ih => exact htrans (hnote b first) (ih _)

/-- What lasts when a link or a stand-in closes and those at its ends are told lasts when a
connection is closed. -/
theorem close_of_steps
    (hlink : ∀ (b : Board) (i : Nat),
      R b { b with links := b.links.setIfInBounds i (b.link i).close.2 })
    (hwire : ∀ (b : Board) (x : ConnectionRef),
      R b (b.onWire x fun wire => { wire with isOpen := wire.isOpen && wire.isStubborn }))
    (b : Board) (x : ConnectionRef) : R b (b.close x) := by
  unfold close
  split
  · exact htrans (hlink b _) (foldl_noteClosed_of_steps hrefl htrans hnote _ _)
  · exact hwire b x

end Close

/-! ### Work that spares a client -/

namespace Spares

/-- Where nothing happens, every client is spared. -/
theorem refl (c : ClientRef) (b : Board) : Spares c b b :=
  ⟨Nat.le_refl _, rfl, rfl, .of_eq rfl rfl⟩

private theorem trans (h : Spares c b b') (h' : Spares c b' b'') : Spares c b b'' := by
  obtain ⟨hsize, hconnection, hclosed, hkeeps⟩ := h
  obtain ⟨hsize', hconnection', hclosed', hkeeps'⟩ := h'
  exact ⟨Nat.le_trans hsize hsize', hconnection'.trans hconnection, hclosed'.trans hclosed,
    hkeeps.trans hkeeps'⟩

/-- Work on other things than clients spares them if it keeps connections closed. -/
theorem of_clients_eq (hclients : b'.clients = b.clients) (h : b.KeepsClosed b') :
    Spares c b b' := by
  unfold Spares
  simp only [client, hclients, Nat.le_refl, true_and]
  exact h

/-- The requests of a client change, and the promises of all. -/
theorem changeExchange {α : Type} (b : Board) (c d : ClientRef)
    (f : Exchange → Promises → α × Exchange × Promises) :
    Spares c b (b.changeExchange d f).2 := by
  have hclient : ∀ g : Client → Client, (∀ client, (g client).connection = client.connection) →
      (∀ client, (g client).isClosed = client.isClosed) →
      ((b.onClient d g).client c).connection = (b.client c).connection ∧
        ((b.onClient d g).client c).isClosed = (b.client c).isClosed := by
    intro g hconnection hclosed
    simp only [client, onClient, Array.getD_eq_getD_getElem?, Array.getElem?_modify]
    split
    · cases b.clients[c]? with
      | none => exact ⟨rfl, rfl⟩
      | some client => exact ⟨hconnection client, hclosed client⟩
    · exact ⟨rfl, rfl⟩
  obtain ⟨hconnection, hclosed⟩ := hclient
    (fun client => { client with exchange := (f (b.client d).exchange b.promises).2.1 })
    (fun _ => rfl) (fun _ => rfl)
  exact ⟨Nat.le_of_eq (Array.size_modify ..).symm, hconnection, hclosed, .of_eq rfl rfl⟩

/-- Whoever sits at an end is told that its connection is closed. -/
theorem noteClosed (b : Board) (c : ClientRef) (told : ConnectionRef × Handler) :
    Spares c b (b.noteClosed told) := by
  unfold Board.noteClosed
  split
  · exact changeExchange ..
  · exact .refl ..
  · exact .of_clients_eq rfl (.of_eq rfl rfl)
  · exact .of_clients_eq rfl (.of_eq rfl rfl)

private theorem foldl_noteClosed (b : Board) (c : ClientRef)
    (told : List (ConnectionRef × Handler)) :
    Spares c b (told.foldl Board.noteClosed b) :=
  foldl_noteClosed_of_steps (refl c) trans (noteClosed · c ·) b told

/-- A connection is closed. -/
theorem close (b : Board) (c : ClientRef) (x : ConnectionRef) : Spares c b (b.close x) := by
  refine close_of_steps (refl c) trans (noteClosed · c ·) (fun b i => ?_) (fun b x => ?_) b x
  · refine .of_clients_eq rfl (.setLink i _ ?_)
    rw [(b.link i).isOpen_close]
    rintro ⟨⟩
  · refine .of_clients_eq rfl (.onWire x _ (fun _ => rfl) fun wire hopen => ?_)
    simp only [Bool.and_eq_true] at hopen
    exact hopen.1

/-- A frame is written on a connection. -/
theorem write (b : Board) (c : ClientRef) (x : ConnectionRef) (frame : Bytes) :
    Spares c b (b.write x frame).2 := by
  unfold Board.write
  split
  · next i side hmedium =>
    have hset : Spares c b
        { b with
          links := b.links.setIfInBounds i ((b.link i).write side frame b.acks.size).2 } := by
      refine .of_clients_eq rfl (.setLink i _ ?_)
      rw [Link.isOpen_write]
      exact id
    exact hset.trans (.of_clients_eq rfl (.of_eq rfl rfl))
  · next wire hmedium =>
    have hack : Spares c b (b.addAck (wireAck wire.rule)).2 := .of_clients_eq rfl (.of_eq rfl rfl)
    have hwire : ∀ (b : Board) (f : Wire → Wire), (∀ wire, (f wire).isStubborn = wire.isStubborn) →
        (∀ wire, (f wire).isOpen = wire.isOpen) → Spares c b (b.onWire x f) :=
      fun b f hstubborn hopen =>
        .of_clients_eq rfl (.onWire x f hstubborn fun wire h => hopen wire ▸ h)
    have hwritten := hack.trans
      (hwire _ (fun wire => { wire with written := wire.written ++ [frame] }) (fun _ => rfl)
        fun _ => rfl)
    simp only
    split
    · exact hwritten
    · exact hwritten.trans (hwire _ _ (fun _ => rfl) fun _ => rfl)
    · exact hwritten

/-- A channel is made for the connection of a client. -/
theorem channelOf (b : Board) (c d : ClientRef) : Spares c b (b.channelOf d).2 := by
  simp only [Board.channelOf]
  split
  · exact .refl ..
  · split
    · exact .of_clients_eq rfl (.of_eq rfl rfl)
    · exact .refl ..

/-- Two connections are joined by a link. -/
theorem openLink (b : Board) (c : ClientRef) (target : Address) (handler : Handler) :
    Spares c b (b.openLink target handler).2 :=
  .of_clients_eq rfl (((KeepsClosed.push _).trans (.push _)).trans (.pushLink _))

end Spares

/-! ### Changes of a client -/

/-- A change of a client reaches it. -/
theorem client_onClient (h : c < b.clients.size) (f : Client → Client) :
    (b.onClient c f).client c = f (b.client c) := by
  simp [client, onClient, h, Array.getElem_modify]

/-- Whoever changes a client's connection leaves its mark alone. -/
theorem isClosed_replaceConnection (b : Board) (c : ClientRef) (new : Option ConnectionRef) :
    ((b.replaceConnection c new).2.client c).isClosed = (b.client c).isClosed := by
  by_cases h : c < b.clients.size
  · simp [replaceConnection, client_onClient h]
  · simp [replaceConnection, client, onClient, h]

/-- A wired connection that was closed is not open. -/
theorem isOpen_close (h : b.isWired x = true) : (b.close x).isOpen x = false := by
  simp only [isWired, Bool.and_eq_true, decide_eq_true_eq] at h
  obtain ⟨hx, hwired⟩ := h
  unfold Board.close
  split
  · next i side hmedium =>
    rw [hmedium] at hwired
    have hi : i < b.links.size := by simpa using hwired
    let closed : Board := { b with links := b.links.setIfInBounds i (b.link i).close.2 }
    have hkeeps : closed.KeepsClosed ((b.link i).close.1.foldl noteClosed closed) :=
      (Spares.foldl_noteClosed closed 0 _).2.2.2
    have hclosed : closed.isOpen x = false := by
      have hlink : closed.link i = (b.link i).close.2 := by
        rw [KeepsClosed.link_setIfInBounds, if_pos ⟨rfl, hi⟩]
      simp only [isOpen, show closed.connection x = b.connection x from rfl, hmedium, hlink,
        Link.isOpen_close]
    have hwired' : closed.isWired x = true := by
      simp [isWired, show closed.connection x = b.connection x from rfl, hmedium, closed, hx, hi]
    apply Bool.eq_false_iff.mpr
    intro hopen
    cases hclosed.symm.trans (hkeeps.isOpen hwired' hopen)
  · next wire hmedium =>
    rw [hmedium] at hwired
    have hstubborn : wire.isStubborn = false := by simpa using hwired
    simp only [isOpen, KeepsClosed.medium_onWire b x _ hx, hmedium, if_true, hstubborn,
      Bool.and_false]

end Board

end Switchboard
