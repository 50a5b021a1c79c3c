import Switchboard.Proofs.Client.Dials

/-!
# Dialling over loopback links

The transport of a board connects by loopback links, as its mode says. A transport that is set to
another mode before every dial replies with an open connection, a dead one, a refusal or nothing, in
any order that the modes may have.
-/

namespace Switchboard

namespace Board

/-- Whether as many connections are there as before, and connects behave as before. -/
structure KeepsTransport (b b' : Board) : Prop where
  connections_size : b'.connections.size = b.connections.size
  connectDelay_eq : b'.connectDelay = b.connectDelay
  mode_eq : b'.mode = b.mode
  server_eq : b'.server = b.server
  journal_eq : b'.journal = b.journal

namespace KeepsTransport

variable {b b' b'' : Board}

private theorem refl (b : Board) : KeepsTransport b b := ⟨rfl, rfl, rfl, rfl, rfl⟩

private theorem trans (h : KeepsTransport b b') (h' : KeepsTransport b' b'') :
    KeepsTransport b b'' :=
  ⟨h'.1.trans h.1, h'.2.trans h.2, h'.3.trans h.3, h'.4.trans h.4, h'.5.trans h.5⟩

private theorem noteClosed (b : Board) (told : ConnectionRef × Handler) :
    KeepsTransport b (b.noteClosed told) := by
  obtain ⟨x, handler⟩ := told
  cases handler <;> exact ⟨rfl, rfl, rfl, rfl, rfl⟩

private theorem close (b : Board) (x : ConnectionRef) : KeepsTransport b (b.close x) :=
  close_of_steps refl trans noteClosed (fun _ _ => ⟨rfl, rfl, rfl, rfl, rfl⟩)
    (fun _ _ => ⟨Array.size_modify .., rfl, rfl, rfl, rfl⟩) b x

private theorem release (b : Board) (c : ClientRef) (x : ConnectionRef) :
    KeepsTransport b (b.release c x) :=
  (close b x).trans ⟨rfl, rfl, rfl, rfl, rfl⟩

private theorem disconnected (b : Board) (c : ClientRef) : KeepsTransport b (b.disconnected c) := by
  have htaken : KeepsTransport b (b.replaceConnection c none).2 := ⟨rfl, rfl, rfl, rfl, rfl⟩
  unfold Board.disconnected
  cases hconnection : (b.client c).connection with
  | none =>
    simp only [Board.replaceConnection, hconnection]
    exact htaken
  | some x =>
    simp only [Board.replaceConnection, hconnection]
    exact htaken.trans (release _ c x)

end KeepsTransport

/-! ### Links that are opened -/

variable {b : Board} {c : ClientRef} {target : Address}

/-- The connection of a link that is opened comes behind all others. -/
theorem connection_openLink (b : Board) (target : Address) (handler : Handler) :
    (b.openLink target handler).2.connection b.connections.size =
      ⟨numberAt b.connections.size, target, .loopback b.links.size .client⟩ := by
  have hne : b.connections.size ≠ b.connections.size + 1 := Nat.ne_of_lt (Nat.lt_succ_self _)
  simp only [connection, openLink, addConnection, Array.getD_eq_getD_getElem?, Array.getElem?_push,
    Array.size_push, if_neg hne, if_true, Option.getD_some]

private theorem link_openLink (b : Board) (target : Address) (handler : Handler) :
    (b.openLink target handler).2.link b.links.size =
      { client := (b.connections.size, handler)
        server := (b.connections.size + 1, b.server) } := by
  simp [link, openLink, addConnection]

private theorem connections_size_openLink (b : Board) (target : Address) (handler : Handler) :
    (b.openLink target handler).2.connections.size = b.connections.size + 2 := by
  simp [openLink, addConnection]

/-- A link that is opened is open. -/
theorem isOpen_openLink (b : Board) (target : Address) (handler : Handler) :
    (b.openLink target handler).2.isOpen b.connections.size = true := by
  simp only [isOpen, connection_openLink, link_openLink]

private theorem isWired_openLink (b : Board) (target : Address) (handler : Handler) :
    (b.openLink target handler).2.isWired b.connections.size = true := by
  have hconnections := connections_size_openLink b target handler
  have hlinks : (b.openLink target handler).2.links.size = b.links.size + 1 := by
    simp [openLink, addConnection]
  simp only [isWired, connection_openLink, hconnections, hlinks]
  simp

/-- The connection that a client dials tells only that client when it is closed, unless another
client sits at the server's end. -/
theorem tellsOnly_openLink (hserver : ∀ d, b.server ≠ .exchange d) :
    (b.openLink target (.exchange c)).2.TellsOnly c b.connections.size := by
  intro t ht d hd
  simp only [told, connection_openLink, link_openLink, Link.close, if_true, List.mem_cons,
    List.not_mem_nil, or_false] at ht
  rcases ht with rfl | rfl
  · cases hd
    exact ⟨rfl, rfl⟩
  · exact absurd hd (hserver d)

/-- A link is opened in a mode: it is accepted, or closed as soon as it is there. -/
def linked (b : Board) (target : Address) (handler : Handler) (mode : ConnectMode) : Board :=
  let opened := (b.openLink target handler).2
  if mode = .dead then opened.close b.connections.size
  else { opened with accepted := opened.accepted ++ [(opened.link b.links.size).server.1] }

private theorem keepsTransport_linked (b : Board) (target : Address) (handler : Handler)
    (mode : ConnectMode) : KeepsTransport (b.openLink target handler).2
      (b.linked target handler mode) := by
  unfold linked
  split
  · exact .close ..
  · exact ⟨rfl, rfl, rfl, rfl, rfl⟩

private theorem isOpen_linked (b : Board) (target : Address) (handler : Handler)
    (mode : ConnectMode) :
    (b.linked target handler mode).isOpen b.connections.size = decide (mode ≠ .dead) := by
  unfold linked
  by_cases hmode : mode = .dead
  · simpa [hmode] using isOpen_close (isWired_openLink b target handler)
  · rw [if_neg hmode, decide_eq_true hmode]
    exact isOpen_openLink b target handler

/-- No request is lost with a link that is opened, not even if it is closed at once, unless the
numbers of the connections come round. -/
theorem loses_linked (hfits : b.connections.size < 2 ^ 64) (hc : c < b.clients.size)
    (hserver : ∀ d, b.server ≠ .exchange d)
    (hrecorded : ∀ (id : UInt64) (e : Exchange.Entry) (x : ConnectionId),
      (b.client c).exchange.entries[id]? = some e → e.connection = some x → x < b.connections.size)
    (mode : ConnectMode) :
    b.Loses c (fun _ => false) (b.client c).connection
      (b.linked target (.exchange c) mode) := by
  have hopened : b.Loses c (fun _ => false) (b.client c).connection
      (b.openLink target (.exchange c)).2 := .of_client_eq rfl rfl rfl
  unfold linked
  split
  · obtain ⟨lost, hlost, hclosed⟩ := Loses.close (hopened.size_eq ▸ hc)
      (tellsOnly_openLink hserver)
    rw [hopened.connection_eq] at hclosed
    refine (hopened.trans hclosed).congr fun id e he => Bool.eq_false_iff.mpr fun he' => ?_
    -- Nothing was recorded on a connection that is only just there.
    have hon := hlost e (by simpa using he')
    have hid : (b.openLink target (.exchange c)).2.idOf b.connections.size =
        b.connections.size := by
      rw [idOf, connection_openLink]
      exact UInt64.toNat_ofNat_of_lt' hfits
    rw [hid] at hon
    exact Nat.lt_irrefl _ (hrecorded id e _ he (eq_of_beq hon))
  · exact .of_client_eq rfl rfl rfl

end Board

namespace Op

open Routine

private theorem alone_openLink (target : Address) (handler : Handler) (mode : ConnectMode)
    (s : Solitude Board) :
    (openLink target handler mode).alone s =
      some (s.state.connections.size,
        { s with state := s.state.linked target handler mode, begun := s.begun + 2 }) := by
  unfold openLink Board.linked
  by_cases hmode : mode = .dead
  · simp only [hmode, if_true]
    rfl
  · simp only [hmode, if_false]
    rfl

/-- A dial that takes no time of its own ends at once, unless it never does: then it ends without an
answer at its deadline. -/
theorem alone_dialBy {s : Solitude Board} (hdelay : s.state.connectDelay = 0) (span : Nat)
    (target : Address) (handler : Handler) :
    (dialBy (some (s.now + span)) target handler).alone s =
      match s.state.mode with
      | .refuse => some (some (.error (refusal target)), s)
      | .hang => some (none, { s with now := s.now + span })
      | mode => ((openLink target handler mode).alone s).map fun e => (some (.ok e.1), e.2) := by
  simp only [dialBy, alone_bind, alone_now, alone_look, alone_sleepUntil, Option.bind_some, hdelay,
    Nat.add_zero]
  rw [Nat.min_eq_right (Nat.le_add_right ..), Nat.max_self, if_neg (Nat.lt_irrefl _)]
  cases hmode : s.state.mode with
  | refuse => simp only [alone_bind, alone_look, Option.bind_some, hmode, alone_pure]
  | hang =>
    have hwait :
        (Routine.pause (some (s.now + span)) (fun _ => false) (pure ()) : Op Unit).alone s =
          some ((), { s with now := s.now + span }) := alone_sleep span s
    simp only [alone_bind, alone_look, Option.bind_some, hmode, hwait, alone_pure]
  | accept | dead =>
    simp only [alone_bind, alone_look, Option.bind_some, hmode, alone_openLink, Option.map_some,
      alone_pure]

/-- Dials over loopback links, in another mode every time, and notes the dial. -/
def dialIn (modes : Nat → ConnectMode) : Dial := fun deadline target handler => do
  let time ← now
  modify fun b =>
    { b.onJournal fun j => { j with ran := j.ran.push ("dial", time) } with
      mode := modes b.journal.ran.size }
  dialBy deadline target handler

end Op

namespace Loopback

/-- How many connections a dial makes. -/
def made : ConnectMode → Nat
  | .accept | .dead => 2
  | .refuse | .hang => 0

/-- How a dial in a mode ends, if there is a certain number of connections. -/
def reply (target : Address) (connections : Nat) : ConnectMode → Dialled
  | .accept => .opened connections
  | .dead => .dead connections
  | .refuse => .failed (refusal target)
  | .hang => .unanswered

/-- How many connections there are after a number of dials. -/
def count (modes : Nat → ConnectMode) (first : Nat) : Nat → Nat
  | 0 => first
  | k + 1 => count modes first k + made (modes k)

/-- How the dials end. -/
def replies (modes : Nat → ConnectMode) (first : Nat) (target : Address) (k : Nat) : Dialled :=
  reply target (count modes first k) (modes k)

/-- A board whose transport a client can dial: every dial takes no time of its own, no other client
is at the server's end, and no request of the client was recorded on a connection to come. -/
structure Dialable (target : Address) (c : ClientRef) (b : Board) : Prop where
  lt : c < b.clients.size
  address_eq : (b.client c).address = target
  delay_eq : b.connectDelay = 0
  server_ne : ∀ d, b.server ≠ .exchange d
  recorded_lt : ∀ (id : UInt64) (e : Exchange.Entry) (x : ConnectionId),
    (b.client c).exchange.entries[id]? = some e → e.connection = some x → x < b.connections.size

variable {modes : Nat → ConnectMode} {first : Nat} {target : Address} {c : ClientRef}
  {b b' : Board} {lost : Exchange.Entry → Bool} {held : Option ConnectionRef}

/-- A client may lose requests and connections may be made. -/
theorem Dialable.loses (h : Dialable target c b) (hloses : b.Loses c lost held b')
    (hdelay : b'.connectDelay = b.connectDelay) (hserver : b'.server = b.server)
    (hle : b.connections.size ≤ b'.connections.size) : Dialable target c b' where
  lt := hloses.size_eq ▸ h.lt
  address_eq := by rw [hloses.client_eq, h.address_eq]
  delay_eq := hdelay.trans h.delay_eq
  server_ne := hserver ▸ h.server_ne
  recorded_lt := by
    intro id e x he hx
    rw [hloses.exchange_eq, Exchange.getElem?_takeOut, Option.filter_eq_some_iff] at he
    exact Nat.lt_of_lt_of_le (h.recorded_lt id e x he.1 hx) hle

private theorem Dialable.keepsTransport (h : Dialable target c b) (hloses : b.Loses c lost held b')
    (hkeeps : b.KeepsTransport b') : Dialable target c b' :=
  h.loses hloses hkeeps.connectDelay_eq hkeeps.server_eq (Nat.le_of_eq hkeeps.connections_size.symm)

/-- A link that is opened loses no request, unless the numbers of the connections come round. -/
theorem Dialable.linked (h : Dialable target c b) (hfits : b.connections.size < 2 ^ 64)
    (hnone : (b.client c).connection = none) (mode : ConnectMode) :
    let b' := b.linked target (.exchange c) mode
    Dialable target c b' ∧ b'.connections.size = b.connections.size + 2 ∧ b'.mode = b.mode ∧
      b'.journal = b.journal ∧ b.Loses c (fun _ => false) none b' := by
  intro b'
  have hkeeps := Board.keepsTransport_linked b target (.exchange c) mode
  have hsize : b'.connections.size = b.connections.size + 2 :=
    hkeeps.connections_size.trans (Board.connections_size_openLink ..)
  have hloses : b.Loses c (fun _ => false) (b.client c).connection b' :=
    Board.loses_linked hfits h.lt h.server_ne h.recorded_lt mode
  rw [hnone] at hloses
  exact ⟨h.loses hloses hkeeps.connectDelay_eq hkeeps.server_eq (hsize ▸ Nat.le_add_right ..),
    hsize, hkeeps.mode_eq, hkeeps.journal_eq, hloses⟩

/-- A dial for a client that has no connection ends as the mode says, and loses no request, unless
the numbers of the connections come round. -/
theorem Dialable.dialBy_alone {s : Solitude Board} (h : Dialable target c s.state)
    (hfits : s.state.connections.size < 2 ^ 64)
    (hnone : (s.state.client c).connection = none) (span : Nat) :
    ∃ s', (Op.dialBy (some (s.now + span)) target (.exchange c)).alone s =
        some ((reply target s.state.connections.size s.state.mode).answer, s') ∧
      Dialable target c s'.state ∧
      s'.state.connections.size = s.state.connections.size + made s.state.mode ∧
      s'.state.mode = s.state.mode ∧ s'.state.journal = s.state.journal ∧
      (reply target s.state.connections.size s.state.mode).Shows s'.state ∧
      s.state.Loses c (fun _ => false) none s'.state := by
  have hdial := Op.alone_dialBy h.delay_eq span target (.exchange c)
  have hsame := Board.Loses.refl c s.state
  rw [hnone] at hsame
  have hopen := Board.isOpen_linked s.state target (.exchange c)
  cases hmode : s.state.mode with
  | refuse =>
    rw [hmode] at hdial
    exact ⟨s, hdial, h, rfl, hmode, rfl, trivial, hsame⟩
  | hang =>
    rw [hmode] at hdial
    exact ⟨_, hdial, h, rfl, hmode, rfl, trivial, hsame⟩
  | accept =>
    simp only [hmode, Op.alone_openLink, Option.map_some] at hdial
    obtain ⟨hdialable, hsize, hmode', hjournal, hloses⟩ := h.linked hfits hnone .accept
    exact ⟨_, hdial, hdialable, hsize, hmode'.trans hmode, hjournal, hopen .accept, hloses⟩
  | dead =>
    simp only [hmode, Op.alone_openLink, Option.map_some] at hdial
    obtain ⟨hdialable, hsize, hmode', hjournal, hloses⟩ := h.linked hfits hnone .dead
    exact ⟨_, hdial, hdialable, hsize, hmode'.trans hmode, hjournal, hopen .dead, hloses⟩

/-- A transport that goes by what stays as it is when a client lets go of a connection or takes
one. -/
def transport {dial : Dial} {script : Nat → Dialled} {dials : Nat} (Stands : Nat → Board → Prop)
    (hkeeps : ∀ {k b b'}, b.KeepsTransport b' → Stands k b → Stands k b')
    (hdial : ∀ {k} {s : Solitude Board}, k < dials → Dialable target c s.state →
      Stands k s.state → (s.state.client c).connection = none → ∀ span,
        ∃ s', (dial (some (s.now + span)) target (.exchange c)).alone s =
            some ((script k).answer, s') ∧
          Dialable target c s'.state ∧ Stands (k + 1) s'.state ∧ (script k).Shows s'.state ∧
          s.state.Loses c (fun _ => false) none s'.state) :
    Transport dial c script dials where
  Stands k b := Dialable target c b ∧ Stands k b
  dial_alone := by
    rintro k s hk ⟨hdialable, hstands⟩ hnone
    obtain ⟨s', halone, hdialable', hstands', hends⟩ := hdial hk hdialable hstands hnone
      (s.state.client c).settings.connectTimeout.toMillisUp
    rw [hdialable.address_eq]
    exact ⟨s', halone, ⟨hdialable', hstands'⟩, hends⟩
  disconnected := by
    rintro k b ⟨hdialable, hstands⟩ hheld
    have hsame := Board.KeepsTransport.disconnected b c
    exact ⟨hdialable.keepsTransport (.disconnected hdialable.lt hheld) hsame,
      hkeeps hsame hstands⟩
  replaced := by
    rintro k b x ⟨hdialable, hstands⟩
    have hsame : b.KeepsTransport (b.replaceConnection c x).2 := ⟨rfl, rfl, rfl, rfl, rfl⟩
    exact ⟨hdialable.keepsTransport (.replaceConnection hdialable.lt x) hsame, hkeeps hsame hstands⟩

private theorem count_le (modes : Nat → ConnectMode) (first k : Nat) :
    count modes first k ≤ first + 2 * k := by
  induction k with
  | zero => exact Nat.le_refl _
  | succ k ih =>
    have hmade : made (modes k) ≤ 2 := by cases modes k <;> decide
    simp only [count]
    omega

/-- The transport of a board that stays in one mode, for as many dials as leave the numbers of the
connections apart. -/
def steady (mode : ConnectMode) (first : Nat) (target : Address) (c : ClientRef) (dials : Nat)
    (hfits : first + 2 * dials ≤ 2 ^ 64) :
    Transport Op.dialBy c (replies (fun _ => mode) first target) dials :=
  transport (fun k b => b.connections.size = count (fun _ => mode) first k ∧ b.mode = mode)
    (fun hkeeps ⟨hsize, hmode⟩ =>
      ⟨hkeeps.connections_size.trans hsize, hkeeps.mode_eq.trans hmode⟩)
    (by
      rintro k s hk hdialable ⟨hsize, hmode⟩ hnone span
      have hlt : s.state.connections.size < 2 ^ 64 := by
        have := count_le (fun _ => mode) first k
        omega
      obtain ⟨s', hdial, hdialable', hsize', hmode', -, hends⟩ :=
        hdialable.dialBy_alone hlt hnone span
      rw [hsize, hmode] at hdial hends hsize'
      exact ⟨s', hdial, hdialable', ⟨hsize', hmode'.trans hmode⟩, hends⟩)

/-- The transport of a board that is set to another mode before every dial, and counts the dials,
for as many as leave the numbers of the connections apart. -/
def switching (modes : Nat → ConnectMode) (first : Nat) (target : Address) (c : ClientRef)
    (dials : Nat) (hfits : first + 2 * dials ≤ 2 ^ 64) :
    Transport (Op.dialIn modes) c (replies modes first target) dials :=
  transport (fun k b => b.connections.size = count modes first k ∧ b.journal.ran.size = k)
    (fun hkeeps ⟨hsize, hran⟩ =>
      ⟨hkeeps.connections_size.trans hsize, (congrArg (·.ran.size) hkeeps.journal_eq).trans hran⟩)
    (by
      rintro _ s hk hdialable ⟨hsize, rfl⟩ hnone span
      have hlt : s.state.connections.size < 2 ^ 64 := by
        have := count_le modes first s.state.journal.ran.size
        omega
      let noted : Board :=
        { s.state.onJournal fun j => { j with ran := j.ran.push ("dial", s.now) } with
          mode := modes s.state.journal.ran.size }
      have hran : noted.journal.ran.size = s.state.journal.ran.size + 1 := Array.size_push _
      have hnoted : Dialable target c noted :=
        ⟨hdialable.lt, hdialable.address_eq, hdialable.delay_eq, hdialable.server_ne,
          hdialable.recorded_lt⟩
      obtain ⟨s', hdial, hdialable', hsize', -, hjournal, hshows, hloses⟩ :=
        Dialable.dialBy_alone (s := { s with state := noted }) hnoted hlt hnone span
      have hcount : noted.connections.size = count modes first s.state.journal.ran.size := hsize
      rw [hcount] at hdial hshows hsize'
      exact ⟨s', hdial, hdialable', ⟨hsize', (congrArg (·.ran.size) hjournal).trans hran⟩, hshows,
        ⟨hloses.1, hloses.2, hloses.3, hloses.4⟩⟩)

end Loopback

end Switchboard
