import Switchboard.Proofs.Registry.Sessions
import Switchboard.Registry.Membership

/-!
# Enrolments

A member among everybody else who uses its coordinator. Between two turns of the member anything
may happen, so it may fall behind and events may be lost to it. An enrolment remembers what the
member itself does not: the events that it lost, and the paths that it should have published.
-/

namespace Switchboard

/-- What a member does next about the log. -/
inductive Phase where
  /-- It reads on. -/
  | following
  /-- It read that its session ended, and opens another one. -/
  | expired
  /-- It opened another session, and registers everything again. -/
  | renewed
deriving DecidableEq

/-- A member of a coordinator, and what happened to it. -/
structure Enrolment where
  /-- The member. -/
  member : Membership
  /-- The coordinator. -/
  coordinator : Coordinator
  /-- The cache of the member. -/
  cache : Cache
  /-- What the member does next. -/
  phase : Phase := .following
  /-- The events that were lost to the member. -/
  dropped : List TreeEvent := []
  /-- The paths registered before the session was opened and not published since. -/
  unpublished : List String := []
  /-- Whether the session was not connected when everything was to be registered again. -/
  cutOff : Bool := false

namespace Enrolment

/-- A member that has just joined. -/
def join (c : Coordinator) (cache : Cache) : Enrolment :=
  let (member, coordinator) := Membership.join c
  { member, coordinator, cache }

/-- Whether the session is connected. -/
def isConnected (e : Enrolment) : Bool :=
  e.coordinator.sessionState? e.member.session == some .connected

/-- The member registers an address. -/
def register (e : Enrolment) (a : Address) : Enrolment :=
  match e.member.register e.coordinator e.cache a with
  | (.ok (), member, coordinator, cache) =>
    { e with
      member, coordinator, cache
      unpublished := e.unpublished.filter fun path => some path != a.nodePath.toOption }
  | (.error _, member, coordinator, cache) => { e with member, coordinator, cache }

/-- The member takes an address back. -/
def unregister (e : Enrolment) (a : Address) : Enrolment :=
  let (_, member, coordinator, cache) := e.member.unregister e.coordinator e.cache a
  { e with member, coordinator, cache }

/-- The member takes everything back. -/
def close (e : Enrolment) : Enrolment :=
  let (member, coordinator) := e.member.withdrawAll e.coordinator
  { e with member, coordinator }

/-- The member reads what comes next in the log. -/
def follow (e : Enrolment) : Enrolment :=
  match e.coordinator.read e.member.position with
  | .nothing => e
  | .lagged position =>
    { e with
      cache := (Membership.resyncAll e.coordinator e.cache e.member.watched.toList).1
      member := { e.member with position }
      dropped := e.dropped ++ (e.coordinator.log.extract e.member.position position).toList }
  | .event event position =>
    { e with
      cache := (e.member.follow e.coordinator e.cache event).1
      member := { e.member with position }
      phase := if e.member.isExpiry event then .expired else .following }

/-- The member opens another session. -/
def renew (e : Enrolment) : Enrolment :=
  let (member, coordinator) := e.member.renew e.coordinator
  { e with
    member, coordinator
    phase := .renewed
    unpublished := e.member.registered.filterMap fun a => a.nodePath.toOption
    cutOff := false }

/-- The member registers everything again. -/
def restore (e : Enrolment) : Enrolment :=
  let (coordinator, cache, _) := e.member.restore e.coordinator e.cache
  { e with
    coordinator, cache
    phase := .following
    unpublished := if e.isConnected then [] else e.unpublished
    cutOff := !e.isConnected }

/-- One turn of the member. -/
def turn (e : Enrolment) : Enrolment :=
  match e.phase with
  | .following => e.follow
  | .expired => e.renew
  | .renewed => e.restore

/-- One step of an enrolment. Nobody but the member puts or deletes the nodes of what it has
registered, and the member deletes none along with another. -/
inductive Step : Enrolment → Enrolment → Prop where
  /-- The member registers an address. -/
  | register (e : Enrolment) (a : Address) : Step e (e.register a)
  /-- The member takes an address back. -/
  | unregister (e : Enrolment) (a : Address)
      (hapart : ∀ b, b ∈ e.member.registered → (b == a) = true ∨ ∀ path key,
        a.nodePath = .ok path → b.nodePath = .ok key → Tree.isWithin path key = false) :
      Step e (e.unregister a)
  /-- The member takes everything back. -/
  | close (e : Enrolment) : Step e e.close
  /-- The member watches other keys, or its cache changes. -/
  | look (e : Enrolment) (watched : Std.ExtTreeSet String) (cache : Cache) :
      Step e { e with member := { e.member with watched }, cache }
  /-- Somebody uses the coordinator. -/
  | move (e : Enrolment) (move : Coordinator.Move)
      (hspares : ∀ a, a ∈ e.member.registered → ∀ key, a.nodePath = .ok key → move.Spares key) :
      Step e { e with coordinator := e.coordinator.after move }
  /-- The member has a turn. -/
  | turn (e : Enrolment) : Step e e.turn

/-- What an enrolment can come to. -/
inductive Reachable : Enrolment → Prop where
  /-- The member joins a coordinator that was used before. -/
  | start (moves : List Coordinator.Move) (cache : Cache) :
      Reachable (join (moves.foldl Coordinator.after {}) cache)
  /-- One step more. -/
  | step {e e' : Enrolment} (h : Reachable e) (hs : Step e e') : Reachable e'

/-- Whether the member has read everything and has nothing left to do. -/
def IsQuiet (e : Enrolment) : Prop :=
  e.phase = .following ∧ e.coordinator.read e.member.position = .nothing

/-- Whether the session of the member is alive and owns the node of every registered address. -/
def IsEnrolled (e : Enrolment) : Prop :=
  (∃ state, e.coordinator.sessionState? e.member.session = some state ∧ state ≠ .expired) ∧
    ∀ a, a ∈ e.member.registered → ∃ path, a.nodePath = .ok path ∧
      e.coordinator.Owns e.member.session path

/-- Whether the end of the session of the member was lost to it. -/
def MissedExpiry (e : Enrolment) : Prop :=
  TreeEvent.session e.member.session .expired ∈ e.dropped

/-- Whether the member has published a registered address since its session was opened. -/
def HasPublished (e : Enrolment) (a : Address) : Prop :=
  ∀ path, a.nodePath = .ok path → path ∉ e.unpublished

/-! ### What holds all along -/

/-- A reader of the log hears of the end of a session, unless the event is lost. -/
structure Attentive (c : Coordinator) (session : SessionId) (position : Nat)
    (dropped : List TreeEvent) (phase : Phase) : Prop where
  orderly : c.Orderly
  known : c.sessions[session]?.isSome
  position_le : position ≤ c.log.size
  mem_log : ∀ event, event ∈ dropped → event ∈ c.log
  heard : c.sessions[session]? = some .expired → phase = .expired ∨
    TreeEvent.session session .expired ∈ dropped ∨
      c.IsUnread position (.session session .expired)

/-- A registered address has a path, which the session owns unless it has ended or did not publish
it. -/
def Filed (c : Coordinator) (session : SessionId) (unpublished : List String) (a : Address) :
    Prop :=
  ∃ path, a.nodePath = .ok path ∧ (path ∈ unpublished → ¬ c.Owns session path) ∧
    (path ∉ unpublished → c.sessions[session]? ≠ some .expired → c.Owns session path)

/-- What holds of an enrolment all along. -/
structure Sound (e : Enrolment) : Prop where
  attentive : Attentive e.coordinator e.member.session e.member.position e.dropped e.phase
  filed : ∀ a, a ∈ e.member.registered → Filed e.coordinator e.member.session e.unpublished a
  /-- Everything is published, unless the session was cut off or everything is about to be. -/
  published : e.phase ≠ .renewed → e.cutOff = false →
    ∀ a, a ∈ e.member.registered → e.HasPublished a

section Attentive

variable {c c' : Coordinator} {session : SessionId} {position : Nat} {dropped : List TreeEvent}
  {phase : Phase}

/-- A reader stays attentive while others use the coordinator. -/
theorem Attentive.tells (h : Attentive c session position dropped phase) (ho : c'.Orderly)
    (ht : c.Tells c') (hk : c'.sessions[session]?.isSome) :
    Attentive c' session position dropped phase where
  orderly := ho
  known := hk
  position_le := Nat.le_trans h.position_le ht.size_le
  mem_log := by
    intro event hm
    obtain ⟨events, hlog⟩ := ht
    rw [hlog]
    exact Array.mem_append_left _ (h.mem_log event hm)
  heard := by
    intro he
    by_cases hbefore : c.sessions[session]? = some .expired
    · rcases h.heard hbefore with hp | hd | hu
      · exact .inl hp
      · exact .inr (.inl hd)
      · exact .inr (.inr (hu.tells ht))
    · have hnew : TreeEvent.session session .expired ∉ c.log := fun hm =>
        hbefore ((h.orderly.told session).mp hm)
      have hm : TreeEvent.session session .expired ∈ c'.log := (ho.told session).mpr he
      exact .inr (.inr (Coordinator.isUnread_of_tells ht h.position_le hnew hm))

/-- Nodes that are put escape no registry that attends. -/
theorem Attentive.put (h : Attentive c session position dropped phase) (id : SessionId)
    (path : String) (data : Option String) (ephemeral : Bool) :
    Attentive (c.put id path data ephemeral).2 session position dropped phase := by
  apply h.tells (h.orderly.put _ _ _ _) (c.tells_put _ _ _ _)
  rw [Coordinator.sessions_put]
  exact h.known

/-- Nodes that are deleted escape no registry that attends. -/
theorem Attentive.delete (h : Attentive c session position dropped phase) (id : SessionId)
    (path : String) : Attentive (c.delete id path).2 session position dropped phase := by
  apply h.tells (h.orderly.delete _ _) (c.tells_delete _ _)
  rw [Coordinator.sessions_delete]
  exact h.known

/-- A reader that has a session to look after stays attentive when it reads on. -/
theorem Attentive.follow (h : Attentive c session position dropped .renewed) :
    Attentive c session position dropped .following where
  orderly := h.orderly
  known := h.known
  position_le := h.position_le
  mem_log := h.mem_log
  heard := by
    intro he
    rcases h.heard he with hp | hd
    · cases hp
    · exact .inr hd

/-- A reader that skips events has lost them. -/
theorem Attentive.lose (h : Attentive c session position dropped .following) {position' : Nat}
    (hsize : position' ≤ c.log.size) :
    Attentive c session position' (dropped ++ (c.log.extract position position').toList)
      .following where
  orderly := h.orderly
  known := h.known
  position_le := hsize
  mem_log := by
    intro event hm
    rcases List.mem_append.mp hm with hd | hl
    · exact h.mem_log event hd
    · obtain ⟨i, hi, hget⟩ := Array.mem_extract_iff_getElem.mp (Array.mem_toList_iff.mp hl)
      rw [← hget]
      exact Array.getElem_mem _
  heard := by
    intro he
    rcases h.heard he with hp | hd | ⟨i, hi, hget⟩
    · exact .inl hp
    · exact .inr (.inl (List.mem_append_left _ hd))
    · by_cases hlost : i < position'
      · obtain ⟨hlt, hevent⟩ := Array.getElem?_eq_some_iff.mp hget
        refine .inr (.inl (List.mem_append_right _ (Array.mem_toList_iff.mpr ?_)))
        refine Array.mem_extract_iff_getElem.mpr ⟨i - position, by omega, ?_⟩
        simp only [Nat.add_sub_cancel' hi]
        exact hevent
      · exact .inr (.inr ⟨i, Nat.le_of_not_lt hlost, hget⟩)

/-- A reader that sees an event has heard of it. -/
theorem Attentive.read (h : Attentive c session position dropped .following) {event : TreeEvent}
    (hevent : c.log[position]? = some event) :
    Attentive c session (position + 1) dropped
      (if (event == .session session .expired) = true then .expired else .following) where
  orderly := h.orderly
  known := h.known
  position_le := by
    obtain ⟨hlt, -⟩ := Array.getElem?_eq_some_iff.mp hevent
    exact hlt
  mem_log := h.mem_log
  heard := by
    intro he
    rcases h.heard he with hp | hd | ⟨i, hi, hget⟩
    · cases hp
    · exact .inr (.inl hd)
    · rcases Nat.eq_or_lt_of_le hi with heq | hlt
      · rw [← heq, hevent] at hget
        rw [Option.some.inj hget]
        simp
      · exact .inr (.inr ⟨i, hlt, hget⟩)

/-- A reader that has read everything has heard of the end of its session, or has lost it. -/
theorem Attentive.mem_dropped (h : Attentive c session position dropped .following)
    (hsize : c.log.size ≤ position) (he : c.sessions[session]? = some .expired) :
    TreeEvent.session session .expired ∈ dropped := by
  rcases h.heard he with hp | hd | ⟨i, hi, hget⟩
  · cases hp
  · exact hd
  · obtain ⟨hlt, -⟩ := Array.getElem?_eq_some_iff.mp hget
    omega

/-- A reader with a new session has heard of all that there is to hear. -/
theorem attentive_openSession (ho : c.Orderly) (hp : position ≤ c.log.size)
    (hd : ∀ event, event ∈ dropped → event ∈ c.log)
    (hfits : c.openSession.2.sessions.size + 1 < 2 ^ 64) :
    Attentive c.openSession.2 c.upcoming position dropped phase where
  orderly := ho.openSession hfits
  known := by
    rw [Coordinator.sessions_openSession_self]
    rfl
  position_le := hp
  mem_log := hd
  heard := by
    intro he
    rw [Coordinator.sessions_openSession_self] at he
    cases he

end Attentive

end Enrolment

end Switchboard
