import Switchboard.Proofs.Calls.Attempts
import Switchboard.Proofs.Client.Loopback

/-!
# Connecting again

A client that connects again lets go of its connection and dials until a dial gives an open
connection or the policy permits no further attempt. The dials are as many as there are replies up
to the first open connection, unless the policy permits fewer, and the outcome is that of the last
of them; the requests that are lost are those of the connection that the client began with.
-/

namespace Switchboard

namespace Op

open Routine

/-- Lets go of a client's connection and connects again over a transport. -/
def attemptOver (dial : Dial) (c : ClientRef) : Op (Outcome Unit × Bool) := do
  disconnect c
  let outcome ← through (.connecting c) (connectInTurnOver dial c)
  pure (outcome, !(← look fun b => (b.client c).isClosed))

/-- Connects a client again over a transport, as often as the policy permits. -/
def reconnectOver (dial : Dial) (c : ClientRef) (policy : Retry) : Op (Option (Outcome Unit)) := do
  let started ← now
  policy.attempts (elapsedSince started) (fun span => sleep span.toMillisUp) (attemptOver dial c)

/-- Clients connect again over the transport of the board. -/
theorem reconnect_eq (c : ClientRef) (policy : Retry) :
    reconnect c policy = reconnectOver dialBy c policy := rfl

private theorem alone_elapsedSince (started : Nat) (s : Solitude Board) :
    ∃ d, (elapsedSince started).alone s = some (d, s) := ⟨_, rfl⟩

private theorem alone_disconnect (c : ClientRef) (s : Solitude Board) :
    (disconnect c).alone s = some ((), { s with state := s.state.disconnected c }) := by
  unfold disconnect
  rw [alone_bind, alone_step, Option.bind_some]
  cases hconnection : (s.state.client c).connection <;>
    simp only [Board.replaceConnection, Board.disconnected, hconnection, alone_pure, alone_modify]

variable {dial : Dial} {c : ClientRef} {script : Nat → Dialled} {dials : Nat}
  {s : Solitude Board} {k : Nat}

/-- One attempt lets go of what the client has and connects as the transport replies. -/
theorem alone_attemptOver (transport : Transport dial c script dials) (hk : k < dials)
    (hstands : transport.Stands k s.state)
    (hheld : ∀ x ∈ (s.state.client c).connection, s.state.TellsOnly c x)
    (hc : c < (s.state.disconnected c).clients.size)
    (hclosed : ((s.state.disconnected c).client c).isClosed = false)
    (hnone : ((s.state.disconnected c).client c).connection = none) :
    ∃ s', (attemptOver dial c).alone s =
        some (((script k).verdict ((s.state.disconnected c).client c), true), s') ∧
      transport.Stands (k + 1) s'.state ∧ (script k).Shows s'.state ∧
      (s.state.disconnected c).Loses c (fun _ => false) (script k).held s'.state := by
  obtain ⟨s', hconnect, hends⟩ :=
    transport.connect_alone (s := { s with state := s.state.disconnected c })
      hk (transport.disconnected hstands hheld) hc hclosed hnone
  refine ⟨s', ?_, hends⟩
  have hclosed' : (s'.state.client c).isClosed = false := hends.2.2.isClosed_eq.trans hclosed
  simp only [attemptOver, alone_bind, alone_disconnect, Option.bind_some, alone_through, hconnect,
    alone_look, alone_pure, hclosed', Bool.not_false]

/-- Connecting again is to attempt it from the present moment on. -/
theorem alone_reconnectOver (dial : Dial) (c : ClientRef) (policy : Retry) (s : Solitude Board) :
    (reconnectOver dial c policy).alone s =
      (policy.attempts (elapsedSince s.now) (fun span => sleep span.toMillisUp)
        (attemptOver dial c)).alone s := by
  rw [reconnectOver, alone_bind, alone_now, Option.bind_some]

/-- A client that is not closed and connects again, with nobody else at work, lets go of its
connection and dials until a dial gives an open connection or the policy permits no further attempt:
if the first open connection comes with the dial of number `m`, counted from one, there are as many
dials as the smaller of `m` and one more than the policy permits retries. The last dial tells the
outcome, and the connection that the client has then. Just the requests that were recorded on the
connection that it began with are lost; all others wait on. -/
theorem reconnect_alone (transport : Transport dial c script dials)
    (hstands : transport.Stands 0 s.state) (count : UInt32) (hcount : count.toNat < dials)
    (interval : Duration) (hc : c < s.state.clients.size)
    (hclosed : (s.state.client c).isClosed = false)
    (hheld : ∀ x ∈ (s.state.client c).connection, s.state.TellsOnly c x) :
    (∀ policy, reconnect c policy = reconnectOver dialBy c policy) ∧ ∃ j ≤ count.toNat, ∃ s',
      (reconnectOver dial c (.times count interval)).alone s =
          some (some ((script j).verdict (s.state.client c)), s') ∧
        (∀ i < j, ∀ x, script i ≠ .opened x) ∧
        (j = count.toNat ∨ ∃ x, script j = .opened x) ∧
        transport.Stands (j + 1) s'.state ∧ (script j).Shows s'.state ∧
        s.state.Loses c (s.state.isOnHeld c) (script j).held s'.state := by
  refine ⟨reconnect_eq c, ?_⟩
  let Before : Nat → Solitude Board → Prop := fun j t =>
    transport.Stands j t.state ∧ (∀ x ∈ (t.state.client c).connection, t.state.TellsOnly c x) ∧
      s.state.Loses c (s.state.isOnHeld c) none (t.state.disconnected c)
  let After : Nat → Solitude Board → Prop := fun j t =>
    transport.Stands (j + 1) t.state ∧ (script j).Shows t.state ∧
      s.state.Loses c (s.state.isOnHeld c) (script j).held t.state
  have hattempt : ∀ j ≤ count.toNat, ∀ t, Before j t →
      ∃ t', (attemptOver dial c).alone t =
        some (((script j).verdict (s.state.client c), true), t') ∧ After j t' := by
    rintro j hj t ⟨hstands, hheld, hlost⟩
    obtain ⟨t', hattempt, hstands', hshows, hlost'⟩ :=
      alone_attemptOver transport (Nat.lt_of_le_of_lt hj hcount) hstands hheld
        (hlost.size_eq ▸ hc) (hlost.isClosed_eq.trans hclosed) hlost.connection_eq
    rw [hlost.verdict_eq] at hattempt
    exact ⟨t', hattempt, hstands', hshows, (hlost.trans hlost').congr fun _ _ _ => Bool.or_false _⟩
  have hpause : ∀ j < count.toNat,
      Retry.IsCurable ((script j).verdict (s.state.client c), true) → ∀ t, After j t →
        ∃ t', (sleep interval.toMillisUp : Op Unit).alone t = some ((), t') ∧
          Before (j + 1) t' := by
    rintro j - hcurable t ⟨hstands, -, hlost⟩
    rw [Dialled.held_eq_none ((Dialled.isCurable_iff _ _).mp hcurable)] at hlost
    -- There is no connection to let go of before the next attempt.
    have hnone : ∀ x ∈ (t.state.client c).connection, t.state.TellsOnly c x := by
      simp [hlost.connection_eq]
    have hagain := Board.Loses.disconnected (hlost.size_eq ▸ hc) hnone
    refine ⟨_, alone_sleep .., hstands, hnone, (hlost.trans hagain).congr fun _ e _ => ?_⟩
    simp [Board.isOnHeld, hlost.connection_eq]
  have hstart : Before 0 s := ⟨hstands, hheld, .disconnected hc hheld⟩
  obtain ⟨j, hj, hearlier, hlast, s', halone, hends⟩ :=
    Retry.attempts_alone (fun t => alone_elapsedSince s.now t)
      (fun span => sleep span.toMillisUp) hattempt hpause hstart
  rw [← alone_reconnectOver] at halone
  refine ⟨j, hj, s', halone, fun i hi => (Dialled.isCurable_iff _ _).mp (hearlier i hi), ?_, hends⟩
  refine hlast.imp_right fun hopened => ?_
  rw [Dialled.isCurable_iff] at hopened
  exact Classical.not_forall_not.mp hopened

end Op

namespace Loopback

/-- A table with three requests: the first was recorded on one connection, the second was not
written yet, and the third was recorded on another connection. -/
def threeRequests : Std.ExtTreeMap UInt64 Exchange.Entry :=
  ((∅ : Std.ExtTreeMap UInt64 Exchange.Entry).insert 1 { promise := 0, connection := some 0 }
    |>.insert 2 { promise := 1 }).insert 3 { promise := 2, connection := some 2 }

/-- A client that waits for these, with a link. -/
def threeWaiting : Board where
  promises := ⟨#[{ handles := 2 }, { handles := 2 }, { handles := 2 }]⟩
  connections := #[⟨0, {}, .loopback 0 .client⟩, ⟨1, {}, .loopback 0 .server⟩, ⟨2, {}, .standIn {}⟩]
  links := #[{ client := (0, .exchange 0), server := (1, .farEnd) }]
  clients := #[{ exchange := { nextId := 4, entries := threeRequests }, connection := some 0 }]

/-- A dial that is refused, one that gives a dead connection, one that is not answered, and dials
that succeed. -/
def failsThrice (k : Nat) : ConnectMode := [.refuse, .dead, .hang].getD k .accept

private theorem opened_failsThrice_iff {k : Nat} :
    (∃ x, replies failsThrice 3 {} k = .opened x) ↔ 3 ≤ k := by
  match k with
  | 0 | 1 | 2 => simp [replies, reply, failsThrice]
  | k + 3 => exact ⟨fun _ => Nat.le_add_left .., fun _ => ⟨_, rfl⟩⟩

private theorem mem_threeRequests {id : UInt64} {e : Exchange.Entry}
    (h : threeRequests[id]? = some e) :
    (id, e) ∈ [((1 : UInt64), ({ promise := 0, connection := some 0 } : Exchange.Entry)),
      (2, { promise := 1 }), (3, { promise := 2, connection := some 2 })] := by
  unfold threeRequests at h
  simp only [Std.ExtTreeMap.getElem?_insert, Std.LawfulEqCmp.compare_eq_iff_eq] at h
  grind

private theorem dialable_threeWaiting : Dialable {} 0 threeWaiting where
  lt := by decide
  address_eq := rfl
  delay_eq := rfl
  server_ne := by rintro d ⟨⟩
  recorded_lt := by
    intro id e x he hx
    have hmem := mem_threeRequests he
    change x < 3
    grind

private theorem tellsOnly_threeWaiting : threeWaiting.TellsOnly 0 0 := by
  have htold : threeWaiting.told 0 = [(0, .exchange 0), (1, .farEnd)] := rfl
  intro t ht d hd
  rw [htold] at ht
  simp only [List.mem_cons, List.not_mem_nil, or_false] at ht
  rcases ht with rfl | rfl
  · cases hd
    exact ⟨rfl, rfl⟩
  · cases hd

/-- Just the first promise is one of a request that was recorded on the link. -/
theorem mem_promisesOf_threeWaiting_iff {p : PromiseId} :
    p ∈ Exchange.promisesOf
      ((threeWaiting.client 0).exchange.takeOut (threeWaiting.isOnHeld 0)).1 ↔ p = 0 := by
  have hheld : ∀ e, threeWaiting.isOnHeld 0 e = (e.connection == some 0) := fun _ => rfl
  simp only [Exchange.mem_promisesOf_takeOut, hheld]
  constructor
  · rintro ⟨id, e, he, hlost, rfl⟩
    have hmem := mem_threeRequests he
    grind
  · rintro rfl
    refine ⟨1, { promise := 0, connection := some 0 }, ?_, rfl, rfl⟩
    change threeRequests[(1 : UInt64)]? = _
    simp only [threeRequests, Std.ExtTreeMap.getElem?_insert, Std.LawfulEqCmp.compare_eq_iff_eq]
    rfl

/-- After three dials that fail within five tries, the client is connected and three requests are
lost. -/
theorem reconnect_alone_of_failsThrice : ∃ s',
    (Op.reconnectOver (Op.dialIn failsThrice) 0 (.times 5 .zero)).alone { state := threeWaiting } =
        some (some (.ok ()), s') ∧
      s'.state.journal.ran.size = 4 ∧ (s'.state.client 0).connection = some 5 ∧
      (s'.state.promises.get 0).outcome = some (.error .connectionClosed) ∧
      (s'.state.promises.get 1).outcome = none ∧ (s'.state.promises.get 2).outcome = none := by
  obtain ⟨-, j, hj, s', hruns, hearlier, hlast, hstands, -, hloses⟩ :=
    Op.reconnect_alone (s := { state := threeWaiting }) (switching failsThrice 3 {} 0 6 (by decide))
      ⟨dialable_threeWaiting, rfl, rfl⟩ 5 (by decide) .zero (by decide) rfl
      (by rintro x ⟨⟩; exact tellsOnly_threeWaiting)
  rw [opened_failsThrice_iff] at hlast
  have hnot : ¬ 3 < j := fun hlt => hearlier 3 hlt _ rfl
  have hcount : (5 : UInt32).toNat = 5 := rfl
  obtain rfl : j = 3 := by omega
  have houtcome := hloses.outcome_eq
  simp only [mem_promisesOf_threeWaiting_iff] at houtcome
  exact ⟨s', hruns, hstands.2.2, hloses.connection_eq, houtcome 0 (by decide),
    houtcome 1 (by decide), houtcome 2 (by decide)⟩

end Loopback

end Switchboard
