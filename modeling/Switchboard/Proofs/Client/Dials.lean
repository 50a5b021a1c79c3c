import Switchboard.Proofs.Calls.Attempts
import Switchboard.Proofs.Client.Losses

/-!
# Dialling

How a transport dials is left open here: it is any work that, alone, comes to an answer before its
deadline or to none. A transport for a client is told by its replies, dial by dial; what matters
beside them is that dialling loses no request. A client that has no connection connects as its
transport replies.
-/

namespace Switchboard

/-- How a transport connects to an address: with a connection, a failure, or nothing before its
deadline. -/
abbrev Dial := Option Nat → Address → Handler → Op (Option (Outcome ConnectionRef))

/-- What comes of a dial. -/
inductive Dialled where
  /-- A connection that is open. -/
  | opened (x : ConnectionRef)
  /-- A connection that is closed already. -/
  | dead (x : ConnectionRef)
  /-- A failure. -/
  | failed (f : Failure)
  /-- Nothing, before the deadline. -/
  | unanswered

namespace Dialled

/-- What a dial answers. -/
def answer : Dialled → Option (Outcome ConnectionRef)
  | opened x | dead x => some (.ok x)
  | failed f => some (.error f)
  | unanswered => none

/-- Whether a connection is open just if the reply says so. -/
def Shows (b : Board) : Dialled → Prop
  | opened x => b.isOpen x = true
  | dead x => b.isOpen x = false
  | failed _ | unanswered => True

/-- The connection that a client has after it connected. -/
def held : Dialled → Option ConnectionRef
  | opened x => some x
  | dead _ | failed _ | unanswered => none

/-- How a connect of a client ends. -/
def verdict (client : Client) : Dialled → Outcome Unit
  | opened _ => .ok ()
  | dead _ => .error (Client.deadFailure client.address)
  | failed f => .error (Client.connectFailure client.address f)
  | unanswered => .error (Client.connectTimeout client.address client.settings.connectTimeout)

/-- A connect may be tried again if it gave no open connection. -/
theorem isCurable_iff (client : Client) (reply : Dialled) :
    Retry.IsCurable (reply.verdict client, true) ↔ ∀ x, reply ≠ .opened x := by
  cases reply <;> simp [Retry.IsCurable, verdict]

/-- A dial that opened nothing leaves no connection held. -/
theorem held_eq_none {reply : Dialled} (h : ∀ x, reply ≠ .opened x) : reply.held = none := by
  cases reply with
  | opened x => exact absurd rfl (h x)
  | dead x | failed f | unanswered => rfl

end Dialled

/-- Losing requests does not change how a connect ends. -/
theorem Board.Loses.verdict_eq {b b' : Board} {c : ClientRef} {lost : Exchange.Entry → Bool}
    {held : Option ConnectionRef} (h : Board.Loses c lost held b b') (reply : Dialled) :
    reply.verdict (b'.client c) = reply.verdict (b.client c) := by
  rw [h.client_eq]
  cases reply <;> rfl

namespace Op

open Routine

/-- Connects a client over a transport unless it is connected. -/
def connectInTurnOver (dial : Dial) (c : ClientRef) : Op (Outcome Unit) := do
  let client ← look (·.client c)
  if client.isClosed then pure (.error (Client.closedFailure client.address))
  else if ← look (·.isConnected c) then pure (.ok ())
  else
    let deadline := (← now) + client.settings.connectTimeout.toMillisUp
    placeConnection c client (← dial (some deadline) client.address (.exchange c))

end Op

/-- A transport that dials for a client so many times, and how it replies, dial by dial. -/
structure Transport (dial : Dial) (c : ClientRef) (script : Nat → Dialled) (dials : Nat) where
  /-- The boards at which the transport stands after a number of dials. -/
  Stands : Nat → Board → Prop
  /-- Dialling for a client that has no connection comes to the next reply and loses no request. -/
  dial_alone : ∀ {k} {s : Solitude Board}, k < dials → Stands k s.state →
    (s.state.client c).connection = none →
    ∃ s', (dial (some (s.now + (s.state.client c).settings.connectTimeout.toMillisUp))
        (s.state.client c).address (.exchange c)).alone s = some ((script k).answer, s') ∧
      Stands (k + 1) s'.state ∧ (script k).Shows s'.state ∧
      s.state.Loses c (fun _ => false) none s'.state
  /-- The client may let go of its connection. -/
  disconnected : ∀ {k b}, Stands k b → (∀ x ∈ (b.client c).connection, b.TellsOnly c x) →
    Stands k (b.disconnected c)
  /-- The client may take a connection. -/
  replaced : ∀ {k b} x, Stands k b → Stands k (b.replaceConnection c x).2

namespace Transport

open Routine

variable {dial : Dial} {c : ClientRef} {script : Nat → Dialled} {dials : Nat}
  {s : Solitude Board} {k : Nat}

/-- A client that is not closed and has no connection connects as its transport replies. -/
theorem connect_alone (transport : Transport dial c script dials) (hk : k < dials)
    (hstands : transport.Stands k s.state) (hc : c < s.state.clients.size)
    (hclosed : (s.state.client c).isClosed = false)
    (hnone : (s.state.client c).connection = none) :
    ∃ s', (Op.connectInTurnOver dial c).alone s =
        some ((script k).verdict (s.state.client c), s') ∧
      transport.Stands (k + 1) s'.state ∧ (script k).Shows s'.state ∧
      s.state.Loses c (fun _ => false) (script k).held s'.state := by
  obtain ⟨s', hdial, hstands', hshows, hloses⟩ := transport.dial_alone hk hstands hnone
  have hunconnected : s.state.isConnected c = false := by simp [Board.isConnected, hnone]
  have hplace : (Op.connectInTurnOver dial c).alone s =
      (Op.placeConnection c (s.state.client c) (script k).answer).alone s' := by
    simp only [Op.connectInTurnOver, alone_bind, alone_look, alone_now, Option.bind_some, hclosed,
      hunconnected, Bool.false_eq_true, if_false, hdial]
  rw [hplace]
  cases hreply : script k with
  | unanswered => exact ⟨s', rfl, hstands', trivial, hloses⟩
  | failed f => exact ⟨s', rfl, hstands', trivial, hloses⟩
  | dead x =>
    rw [hreply] at hshows
    have hdead : s'.state.isOpen x = false := hshows
    refine ⟨s', ?_, hstands', hdead, hloses⟩
    simp [Op.placeConnection, Dialled.answer, Dialled.verdict, hdead]
  | opened x =>
    rw [hreply] at hshows
    have hopen : s'.state.isOpen x = true := hshows
    have hclosed' : (s'.state.client c).isClosed = false := hloses.isClosed_eq.trans hclosed
    refine ⟨{ s' with state := (s'.state.replaceConnection c (some x)).2 }, ?_,
      transport.replaced (some x) hstands', hopen, ?_⟩
    · simp [Op.placeConnection, Dialled.answer, Dialled.verdict, hopen, hclosed',
        Board.replaceConnection, hloses.connection_eq]
    · exact hloses.trans (.replaceConnection (hloses.size_eq ▸ hc) (some x))

end Transport

end Switchboard
