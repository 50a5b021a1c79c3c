import Mathlib.Algebra.Group.Nat.Defs
import Switchboard.Proofs.Registry.Tree

/-!
# Sessions of a coordinator

Every node belongs to nobody or to a session that has not ended, and the log tells of the end of a
session just when it has ended. The log only grows, so what a reader has not read yet stays to be
read.
-/

namespace Switchboard.Coordinator

/-- What anybody may do to a coordinator. -/
inductive Move where
  /-- A session is opened. -/
  | openSession
  /-- A session puts a node. -/
  | put (session : SessionId) (path : String) (data : Option String) (ephemeral : Bool)
  /-- A session deletes a node and all below it. -/
  | delete (session : SessionId) (path : String)
  /-- A session loses its connection. -/
  | disconnect (id : SessionId)
  /-- A session has its connection again. -/
  | reconnect (id : SessionId)
  /-- A session ends. -/
  | expire (id : SessionId)
deriving DecidableEq

/-- The coordinator after a move. -/
def after (c : Coordinator) : Move → Coordinator
  | .openSession => c.openSession.2
  | .put session path data ephemeral => (c.put session path data ephemeral).2
  | .delete session path => (c.delete session path).2
  | .disconnect id => c.disconnect id
  | .reconnect id => c.reconnect id
  | .expire id => c.expire id

/-- Whether a session owns the node at a path. -/
def Owns (c : Coordinator) (id : SessionId) (path : String) : Prop :=
  ∃ node, c.tree[path]? = some node ∧ node.owner = some id

/-- Whether the log tells an event at a position or behind it. -/
def IsUnread (c : Coordinator) (position : Nat) (event : TreeEvent) : Prop :=
  ∃ i, position ≤ i ∧ c.log[i]? = some event

/-- Sessions are numbered in turn, nodes belong to sessions that have not ended, and the end of a
session is told just when it has ended. -/
structure Orderly (c : Coordinator) : Prop where
  upcoming_eq : c.upcoming = c.sessions.size + 1
  known_lt : ∀ (id : SessionId) (state : SessionState),
    c.sessions[id]? = some state → id < c.upcoming
  owner_alive : ∀ path id, c.Owns id path →
    ∃ state, c.sessions[id]? = some state ∧ state ≠ .expired
  told : ∀ id : SessionId, .session id .expired ∈ c.log ↔ c.sessions[id]? = some .expired

/-- A coordinator without sessions is orderly. -/
theorem orderly_empty : Orderly {} := by
  constructor
  · rfl
  all_goals simp [Owns]

/-- One coordinator came from another by telling more. -/
def Tells (c c' : Coordinator) : Prop := ∃ events : List TreeEvent, c'.log = c.log ++ events.toArray

private theorem Tells.refl (c : Coordinator) : c.Tells c := ⟨[], by simp⟩

private theorem Tells.trans {c c' c'' : Coordinator} (h : c.Tells c') (h' : c'.Tells c'') :
    c.Tells c'' := by
  obtain ⟨events, he⟩ := h
  obtain ⟨events', he'⟩ := h'
  exact ⟨events ++ events', by simp [he', he]⟩

/-- What is not read yet stays to be read. -/
theorem IsUnread.tells {c c' : Coordinator} {position : Nat} {event : TreeEvent}
    (h : c.IsUnread position event) (ht : c.Tells c') : c'.IsUnread position event := by
  obtain ⟨i, hi, hget⟩ := h
  obtain ⟨events, he⟩ := ht
  refine ⟨i, hi, ?_⟩
  obtain ⟨hlt, -⟩ := Array.getElem?_eq_some_iff.mp hget
  rw [he, Array.getElem?_append_left hlt]
  exact hget

/-- A log that tells more is no shorter. -/
theorem Tells.size_le {c c' : Coordinator} (h : c.Tells c') : c.log.size ≤ c'.log.size := by
  obtain ⟨events, he⟩ := h
  rw [he, Array.size_append]
  exact Nat.le_add_right _ _

/-- What is told anew is not read yet. -/
theorem isUnread_of_tells {c c' : Coordinator} (ht : c.Tells c') {position : Nat}
    (hp : position ≤ c.log.size) {event : TreeEvent} (hnew : event ∉ c.log)
    (hm : event ∈ c'.log) : c'.IsUnread position event := by
  obtain ⟨events, he⟩ := ht
  obtain ⟨i, hlt, hget⟩ := Array.mem_iff_getElem.mp hm
  refine ⟨i, ?_, Array.getElem?_eq_some_iff.mpr ⟨hlt, hget⟩⟩
  apply Nat.le_trans hp
  apply Nat.le_of_not_lt
  intro hold
  apply hnew
  rw [← hget]
  simp only [he, Array.getElem_append_left hold]
  exact Array.getElem_mem hold

/-- The state of a session is found at its number and nowhere else. -/
theorem sessions_insert (c : Coordinator) (id : SessionId) (state : SessionState)
    (id' : SessionId) :
    (c.sessions.insert id state)[id']? = if id = id' then some state else c.sessions[id']? := by
  rw [Std.ExtTreeMap.getElem?_insert]
  simp only [Std.LawfulEqCmp.compare_eq_iff_eq]

private theorem sessions_openSession (c : Coordinator) (id : SessionId) :
    c.openSession.2.sessions[id]? =
      if c.upcoming = id then some .connected else c.sessions[id]? :=
  c.sessions_insert c.upcoming .connected id

/-- A session that is opened is connected. -/
theorem sessions_openSession_self (c : Coordinator) :
    c.openSession.2.sessions[c.upcoming]? = some .connected := by
  rw [sessions_openSession, if_pos rfl]

namespace Orderly

variable {c : Coordinator}

/-- The session that is opened next is not known. -/
theorem sessions_upcoming (h : Orderly c) : c.sessions[c.upcoming]? = none := by
  cases hs : c.sessions[c.upcoming]? with
  | none => rfl
  | some state => exact absurd (h.known_lt _ state hs) (Nat.lt_irrefl _)

/-- There is one more session once another one is opened. -/
theorem size_openSession (h : Orderly c) :
    c.openSession.2.sessions.size = c.sessions.size + 1 := by
  have hnew : c.sessions.contains c.upcoming = false := by
    rw [Std.ExtTreeMap.contains_eq_isSome_getElem?, h.sessions_upcoming]
    rfl
  change (c.sessions.insert c.upcoming .connected).size = _
  rw [Std.ExtTreeMap.size_insert, hnew]
  rfl

/-- The numbers of sessions do not come round while there are fewer than `2 ^ 64`. -/
theorem upcoming_openSession (h : Orderly c)
    (hfits : c.openSession.2.sessions.size + 1 < 2 ^ 64) :
    c.openSession.2.upcoming = c.upcoming + 1 := by
  rw [h.size_openSession, ← h.upcoming_eq] at hfits
  change (c.nextSession + 1).toNat = c.nextSession.toNat + 1
  rw [UInt64.toNat_add, UInt64.toNat_one]
  exact Nat.mod_eq_of_lt hfits

/-- No node belongs to a session that is not opened yet. -/
theorem not_owns_upcoming (h : Orderly c) (path : String) : ¬ c.Owns c.upcoming path := by
  intro ho
  obtain ⟨state, hs, -⟩ := h.owner_alive path _ ho
  exact Nat.lt_irrefl _ (h.known_lt _ _ hs)

/-- A coordinator stays orderly when its tree changes and nothing is told about sessions, as long
as nodes are given to sessions that have not ended. -/
theorem publish (h : Orderly c) {tree : Tree} {events : List TreeEvent}
    (hevents : ∀ event, event ∈ events → event.isSession = false)
    (howner : ∀ (path : String) (node : TreeNode) (id : SessionId), tree[path]? = some node →
      node.owner = some id → c.Owns id path ∨ c.sessions[id]? = some .connected) :
    Orderly (Coordinator.publish { c with tree } events) where
  upcoming_eq := h.upcoming_eq
  known_lt := h.known_lt
  owner_alive := by
    rintro path id ⟨node, hnode, hid⟩
    rcases howner path node id hnode hid with ho | hc
    · exact h.owner_alive path id ho
    · exact ⟨.connected, hc, by simp⟩
  told := by
    intro id
    have hnot : TreeEvent.session id .expired ∉ events := fun hm => by
      have := hevents _ hm
      cases this
    change _ ∈ c.log ++ events.toArray ↔ c.sessions[id]? = _
    rw [Array.mem_append, ← h.told id]
    simp [hnot]

/-- Opening a session keeps a coordinator orderly, unless the numbers come round. -/
theorem openSession (h : Orderly c) (hfits : c.openSession.2.sessions.size + 1 < 2 ^ 64) :
    Orderly c.openSession.2 where
  upcoming_eq := by
    rw [h.upcoming_openSession hfits, h.size_openSession, h.upcoming_eq]
  known_lt := by
    intro id state hs
    rw [h.upcoming_openSession hfits]
    rw [sessions_openSession] at hs
    split at hs
    · next heq =>
      rw [← heq]
      exact Nat.lt_succ_self _
    · exact Nat.lt_succ_of_lt (h.known_lt id state hs)
  owner_alive := by
    intro path id ho
    obtain ⟨state, hs, hne⟩ := h.owner_alive path id ho
    refine ⟨state, ?_, hne⟩
    rw [sessions_openSession, if_neg]
    · exact hs
    · exact Ne.symm (Nat.ne_of_lt (h.known_lt id state hs))
  told := by
    intro id
    change _ ∈ c.log ↔ _
    rw [h.told id, sessions_openSession]
    split
    · next heq =>
      rw [← heq]
      constructor
      · intro hs
        exact absurd (h.known_lt _ _ hs) (Nat.lt_irrefl _)
      · intro hs
        cases hs
    · rfl

end Orderly

/-! ### Puts and deletions -/

variable {c : Coordinator}

/-- A session passes the check if it is connected. -/
theorem checkSession_eq_ok_iff (id : SessionId) :
    c.checkSession id = .ok () ↔ c.sessions[id]? = some .connected := by
  unfold checkSession sessionState?
  cases c.sessions[id]? with
  | none => simp
  | some state => cases state <;> simp

/-- A put happens just if the session is connected. -/
theorem put_cases (c : Coordinator) (session : SessionId) (path : String) (data : Option String)
    (ephemeral : Bool) :
    (c.sessions[session]? = some .connected ∧ c.put session path data ephemeral =
      (.ok (), publish { c with
          tree := (c.tree.put path data (if ephemeral then some session else none)).1 }
        (c.tree.put path data (if ephemeral then some session else none)).2)) ∨
    c.sessions[session]? ≠ some .connected ∧
      ∃ f, c.put session path data ephemeral = (.error f, c) := by
  unfold put
  cases hs : c.checkSession session with
  | ok u => exact .inl ⟨(checkSession_eq_ok_iff session).mp hs, rfl⟩
  | error f =>
    refine .inr ⟨fun hc => ?_, f, rfl⟩
    rw [(checkSession_eq_ok_iff session).mpr hc] at hs
    cases hs

/-- A put keeps a coordinator orderly. -/
theorem Orderly.put (h : Orderly c) (session : SessionId) (path : String) (data : Option String)
    (ephemeral : Bool) : Orderly (c.put session path data ephemeral).2 := by
  rcases c.put_cases session path data ephemeral with ⟨hs, hput⟩ | ⟨-, f, hput⟩
  · rw [hput]
    apply h.publish (Tree.isSession_put _ _ _ _)
    intro key node id hnode hid
    by_cases hkey : key = path
    · rw [hkey, Tree.getElem?_put_self] at hnode
      cases hnode
      simp only at hid
      split at hid
      · cases hid
        exact .inr hs
      · cases hid
    · rcases c.tree.getElem?_put_of_ne hkey data (if ephemeral then some session else none) with
        hsame | ⟨-, hnew, -⟩
      · rw [hsame] at hnode
        exact .inl ⟨node, hnode, hid⟩
      · rw [hnew] at hnode
        cases hnode
        cases hid
  · rw [hput]
    exact h

/-- A put at another path takes no node away from a session and gives it none. -/
theorem owns_put_of_ne {path key : String} (hkey : key ≠ path) (session : SessionId)
    (data : Option String) (ephemeral : Bool) (id : SessionId) :
    (c.put session path data ephemeral).2.Owns id key ↔ c.Owns id key := by
  rcases c.put_cases session path data ephemeral with ⟨-, hput⟩ | ⟨-, f, hput⟩
  · rw [hput]
    change (∃ node, (c.tree.put path data _).1[key]? = some node ∧ _) ↔ _
    rcases c.tree.getElem?_put_of_ne hkey data (if ephemeral then some session else none) with
      hsame | ⟨hnone, hnew, -⟩
    · rw [hsame]
      rfl
    · unfold Owns
      rw [hnew, hnone]
      simp
  · rw [hput]

/-- A put that happens gives an ephemeral node to its session. -/
theorem owns_put_self {session : SessionId} {path : String} {data : Option String}
    (h : (c.put session path data true).1 = .ok ()) :
    (c.put session path data true).2.Owns session path := by
  rcases c.put_cases session path data true with ⟨-, hput⟩ | ⟨-, f, hput⟩
  · rw [hput]
    exact ⟨_, Tree.getElem?_put_self _ _ _ _, rfl⟩
  · rw [hput] at h
    cases h

/-- A session that is connected puts what it likes. -/
theorem put_eq_ok {session : SessionId} {path : String} {data : Option String} {ephemeral : Bool}
    (hs : c.sessions[session]? = some .connected) :
    (c.put session path data ephemeral).1 = .ok () := by
  rcases c.put_cases session path data ephemeral with ⟨-, hput⟩ | ⟨hne, -⟩
  · rw [hput]
  · exact absurd hs hne

/-- A session that puts an ephemeral node keeps those that it owns. -/
theorem owns_put_of_owns {session : SessionId} {path key : String} {data : Option String}
    (h : c.Owns session key) : (c.put session path data true).2.Owns session key := by
  by_cases hkey : key = path
  · subst hkey
    rcases c.put_cases session key data true with ⟨hs, -⟩ | ⟨-, f, hput⟩
    · exact owns_put_self (put_eq_ok hs)
    · rw [hput]
      exact h
  · exact (owns_put_of_ne hkey session data true session).mpr h

/-- Whoever puts a node tells more. -/
theorem tells_put (c : Coordinator) (session : SessionId) (path : String) (data : Option String)
    (ephemeral : Bool) : c.Tells (c.put session path data ephemeral).2 := by
  rcases c.put_cases session path data ephemeral with ⟨-, hput⟩ | ⟨-, f, hput⟩
  · rw [hput]
    exact ⟨_, rfl⟩
  · rw [hput]
    exact Tells.refl c

/-- Whoever puts a node changes no session. -/
theorem sessions_put (c : Coordinator) (session : SessionId) (path : String)
    (data : Option String) (ephemeral : Bool) :
    (c.put session path data ephemeral).2.sessions = c.sessions := by
  rcases c.put_cases session path data ephemeral with ⟨-, hput⟩ | ⟨-, f, hput⟩
  · rw [hput]
    rfl
  · rw [hput]

/-- Removing nodes keeps a coordinator orderly. -/
theorem Orderly.removeWhere (h : Orderly c) (doomed : String → TreeNode → Bool) :
    Orderly (c.removeWhere doomed).2 := by
  apply h.publish (Tree.isSession_removeWhere _ _)
  intro path node id hnode hid
  change (c.tree.removeWhere doomed).1[path]? = some node at hnode
  rw [Tree.getElem?_removeWhere, Option.filter_eq_some_iff] at hnode
  exact .inl ⟨node, hnode.1, hid⟩

/-- After nodes were removed, a session owns those of its nodes that were not doomed. -/
theorem owns_removeWhere (doomed : String → TreeNode → Bool) (id : SessionId) (path : String) :
    (c.removeWhere doomed).2.Owns id path ↔
      ∃ node, c.tree[path]? = some node ∧ node.owner = some id ∧ doomed path node = false := by
  change (∃ node, (c.tree.removeWhere doomed).1[path]? = some node ∧ _) ↔ _
  simp only [Tree.getElem?_removeWhere, Option.filter_eq_some_iff, Bool.not_eq_true']
  constructor
  · rintro ⟨node, ⟨hnode, hd⟩, hid⟩
    exact ⟨node, hnode, hid, hd⟩
  · rintro ⟨node, hnode, hid, hd⟩
    exact ⟨node, ⟨hnode, hd⟩, hid⟩

/-- A deletion happens just if the session is connected. -/
theorem delete_cases (c : Coordinator) (session : SessionId) (path : String) :
    (c.sessions[session]? = some .connected ∧ ∃ removed, c.delete session path =
      (.ok removed, (c.removeWhere fun key _ => Tree.isWithin path key).2)) ∨
    c.sessions[session]? ≠ some .connected ∧
      ∃ f, c.delete session path = (.error f, c) := by
  unfold delete
  cases hs : c.checkSession session with
  | ok u => exact .inl ⟨(checkSession_eq_ok_iff session).mp hs, _, rfl⟩
  | error f =>
    refine .inr ⟨fun hc => ?_, f, rfl⟩
    rw [(checkSession_eq_ok_iff session).mpr hc] at hs
    cases hs

/-- A coordinator stays orderly when a node is deleted. -/
theorem Orderly.delete (h : Orderly c) (session : SessionId) (path : String) :
    Orderly (c.delete session path).2 := by
  rcases c.delete_cases session path with ⟨-, removed, hd⟩ | ⟨-, f, hd⟩
  · rw [hd]
    exact h.removeWhere _
  · rw [hd]
    exact h

/-- A deletion elsewhere takes no node away from a session and gives it none. -/
theorem owns_delete_of_not_isWithin {path key : String} (h : Tree.isWithin path key = false)
    (session id : SessionId) : (c.delete session path).2.Owns id key ↔ c.Owns id key := by
  rcases c.delete_cases session path with ⟨-, removed, hd⟩ | ⟨-, f, hd⟩
  · rw [hd, owns_removeWhere]
    simp only [h, and_true]
    rfl
  · rw [hd]

/-- Whoever deletes a node tells more. -/
theorem tells_delete (c : Coordinator) (session : SessionId) (path : String) :
    c.Tells (c.delete session path).2 := by
  rcases c.delete_cases session path with ⟨-, removed, hd⟩ | ⟨-, f, hd⟩
  · rw [hd]
    exact ⟨_, rfl⟩
  · rw [hd]
    exact Tells.refl c

/-- Whoever deletes a node changes no session. -/
theorem sessions_delete (c : Coordinator) (session : SessionId) (path : String) :
    (c.delete session path).2.sessions = c.sessions := by
  rcases c.delete_cases session path with ⟨-, removed, hd⟩ | ⟨-, f, hd⟩
  · rw [hd]
    rfl
  · rw [hd]

/-! ### Sessions that change their state -/

/-- A session changes its state and tells so, unless it has ended or was never opened. -/
theorem transition_cases (c : Coordinator) (id : SessionId) (state : SessionState) :
    (∃ before, c.sessions[id]? = some before ∧ before ≠ .expired ∧ c.transition id state =
      publish { c with sessions := c.sessions.insert id state } [.session id state]) ∨
    (c.sessions[id]? = none ∨ c.sessions[id]? = some .expired) ∧ c.transition id state = c := by
  unfold transition sessionState?
  cases hs : c.sessions[id]? with
  | none => exact .inr ⟨.inl rfl, rfl⟩
  | some before =>
    cases before with
    | expired => exact .inr ⟨.inr rfl, rfl⟩
    | connected => exact .inl ⟨_, rfl, by simp, rfl⟩
    | disconnected => exact .inl ⟨_, rfl, by simp, rfl⟩

/-- A session that changes its state keeps a coordinator orderly, if it owns nothing any more once
it has ended. -/
theorem Orderly.transition (h : Orderly c) {id : SessionId} {state : SessionState}
    (hown : state = .expired → ∀ path, ¬ c.Owns id path) : Orderly (c.transition id state) := by
  rcases c.transition_cases id state with ⟨before, hs, hne, ht⟩ | ⟨-, ht⟩
  · rw [ht]
    have hget := c.sessions_insert id state
    have hsize : (c.sessions.insert id state).size = c.sessions.size := by
      rw [Std.ExtTreeMap.size_insert, Std.ExtTreeMap.contains_eq_isSome_getElem?, hs]
      rfl
    constructor
    · exact h.upcoming_eq.trans (congrArg (· + 1) hsize.symm)
    · intro id' state' hs'
      change (c.sessions.insert id state)[id']? = _ at hs'
      rw [hget] at hs'
      split at hs'
      · next heq =>
        rw [← heq]
        exact h.known_lt id before hs
      · exact h.known_lt id' state' hs'
    · intro path id' ho
      change ∃ state', (c.sessions.insert id state)[id']? = some state' ∧ _
      rw [hget]
      split
      · next heq =>
        refine ⟨state, rfl, fun hstate => ?_⟩
        rw [← heq] at ho
        exact hown hstate path ho
      · exact h.owner_alive path id' ho
    · intro id'
      change _ ∈ c.log ++ [TreeEvent.session id state].toArray ↔
        (c.sessions.insert id state)[id']? = _
      rw [hget, Array.mem_append, h.told id']
      by_cases heq : id = id'
      · subst heq
        simp [hs, hne, eq_comm]
      · simp [heq, Ne.symm heq]
  · rw [ht]
    exact h

/-- The nodes of a session that ended are gone. -/
theorem Orderly.expire (h : Orderly c) (id : SessionId) : Orderly (c.expire id) := by
  apply (h.removeWhere _).transition
  intro _ path ho
  rw [owns_removeWhere] at ho
  obtain ⟨node, -, hid, hd⟩ := ho
  simp [hid] at hd

/-- Every move keeps a coordinator orderly, unless the numbers of the sessions come round. -/
theorem Orderly.after (h : Orderly c) (move : Move)
    (hfits : (c.after move).sessions.size + 1 < 2 ^ 64) : Orderly (c.after move) := by
  cases move with
  | openSession => exact h.openSession hfits
  | put session path data ephemeral => exact h.put session path data ephemeral
  | delete session path => exact h.delete session path
  | disconnect id => exact h.transition (by simp)
  | reconnect id => exact h.transition (by simp)
  | expire id => exact h.expire id

private theorem size_le_transition (c : Coordinator) (id : SessionId) (state : SessionState) :
    c.sessions.size ≤ (c.transition id state).sessions.size := by
  rcases c.transition_cases id state with ⟨before, -, -, ht⟩ | ⟨-, ht⟩
  · rw [ht]
    exact Std.ExtTreeMap.size_le_size_insert
  · exact Nat.le_of_eq (congrArg (·.sessions.size) ht.symm)

/-- No session is ever forgotten. -/
theorem size_le_after (c : Coordinator) (move : Move) :
    c.sessions.size ≤ (c.after move).sessions.size := by
  cases move with
  | openSession => exact Std.ExtTreeMap.size_le_size_insert
  | put session path data ephemeral =>
    simp only [after, sessions_put]
    exact Nat.le_refl _
  | delete session path =>
    simp only [after, sessions_delete]
    exact Nat.le_refl _
  | disconnect id => exact c.size_le_transition id _
  | reconnect id => exact c.size_le_transition id _
  | expire id =>
    exact (c.removeWhere fun _ node => node.owner == some id).2.size_le_transition id .expired

private theorem size_le_run (c : Coordinator) (moves : List Move) :
    c.sessions.size ≤ (moves.foldl after c).sessions.size := by
  induction moves generalizing c with
  | nil => exact Nat.le_refl _
  | cons move rest ih => exact Nat.le_trans (c.size_le_after move) (ih (c.after move))

/-- Every run of moves keeps a coordinator orderly, unless the numbers of the sessions come
round. -/
theorem Orderly.run (h : Orderly c) {moves : List Move}
    (hfits : (moves.foldl Coordinator.after c).sessions.size + 1 < 2 ^ 64) :
    Orderly (moves.foldl Coordinator.after c) := by
  induction moves generalizing c with
  | nil => exact h
  | cons move rest ih =>
    have hsize := (c.after move).size_le_run rest
    exact ih (h.after move (Nat.lt_of_le_of_lt (Nat.succ_le_succ hsize) hfits)) hfits

/-- A session that changes its state tells more. -/
theorem tells_transition (c : Coordinator) (id : SessionId) (state : SessionState) :
    c.Tells (c.transition id state) := by
  rcases c.transition_cases id state with ⟨before, -, -, ht⟩ | ⟨-, ht⟩
  · rw [ht]
    exact ⟨_, rfl⟩
  · rw [ht]
    exact Tells.refl c

/-- Every move only adds to the log. -/
theorem tells_after (c : Coordinator) (move : Move) : c.Tells (c.after move) := by
  cases move with
  | openSession => exact Tells.refl _
  | put session path data ephemeral => exact c.tells_put session path data ephemeral
  | delete session path => exact c.tells_delete session path
  | disconnect id => exact c.tells_transition id _
  | reconnect id => exact c.tells_transition id _
  | expire id => exact Tells.trans ⟨_, rfl⟩ (tells_transition _ id _)

/-- A session that is known stays so when one changes its state. -/
theorem isSome_transition (c : Coordinator) (id : SessionId) (state : SessionState)
    {id' : SessionId} (h : c.sessions[id']?.isSome) :
    (c.transition id state).sessions[id']?.isSome := by
  rcases c.transition_cases id state with ⟨before, -, -, ht⟩ | ⟨-, ht⟩
  · rw [ht]
    change (c.sessions.insert id state)[id']?.isSome
    rw [sessions_insert]
    split
    · rfl
    · exact h
  · rw [ht]
    exact h

/-- A session that was opened stays known. -/
theorem isSome_after (c : Coordinator) (move : Move) {id : SessionId}
    (h : c.sessions[id]?.isSome) : (c.after move).sessions[id]?.isSome := by
  cases move with
  | openSession =>
    change (c.openSession.2.sessions[id]?).isSome
    rw [sessions_openSession]
    split
    · rfl
    · exact h
  | put session path data ephemeral =>
    simp only [after, sessions_put]
    exact h
  | delete session path =>
    simp only [after, sessions_delete]
    exact h
  | disconnect id => exact c.isSome_transition id _ h
  | reconnect id => exact c.isSome_transition id _ h
  | expire id => exact isSome_transition _ id _ h

/-! ### Nodes that a move leaves alone -/

/-- Whether a move neither puts a node nor deletes it, at its path or above. -/
def Move.Spares : Move → String → Prop
  | .put _ path _ _, key => key ≠ path
  | .delete _ path, key => Tree.isWithin path key = false
  | _, _ => True

private theorem owns_transition (c : Coordinator) (id : SessionId) (state : SessionState)
    (id' : SessionId) (path : String) :
    (c.transition id state).Owns id' path ↔ c.Owns id' path := by
  rcases c.transition_cases id state with ⟨before, -, -, ht⟩ | ⟨-, ht⟩
  · rw [ht]
    rfl
  · rw [ht]

/-- Whoever owns a node after its session or another one ended owned it before, and is another
session. -/
theorem owns_expire (id id' : SessionId) (path : String) :
    (c.expire id).Owns id' path ↔ c.Owns id' path ∧ id' ≠ id := by
  simp only [expire, owns_transition, owns_removeWhere, beq_eq_false_iff_ne]
  constructor
  · rintro ⟨node, hnode, hid, hd⟩
    refine ⟨⟨node, hnode, hid⟩, fun heq => hd ?_⟩
    rw [hid, heq]
  · rintro ⟨⟨node, hnode, hid⟩, hne⟩
    refine ⟨node, hnode, hid, fun heq => hne ?_⟩
    rw [hid] at heq
    exact Option.some.inj heq

/-- A session that was opened has ended once it is ended. -/
theorem sessions_expire (id : SessionId) (h : c.sessions[id]?.isSome) :
    (c.expire id).sessions[id]? = some .expired := by
  unfold expire
  rcases (c.removeWhere fun _ node => node.owner == some id).2.transition_cases id .expired with
    ⟨before, -, -, ht⟩ | ⟨hs, ht⟩
  · rw [ht]
    change (c.sessions.insert id .expired)[id]? = _
    exact Std.ExtTreeMap.getElem?_insert_self
  · rw [ht]
    change c.sessions[id]? = _
    rcases hs with hs | hs
    · change c.sessions[id]? = none at hs
      rw [hs] at h
      cases h
    · exact hs

/-- A move gives no session a node that it leaves alone. -/
theorem owns_of_after {move : Move} {path : String} (hs : move.Spares path) {id : SessionId}
    (h : (c.after move).Owns id path) : c.Owns id path := by
  cases move with
  | openSession => exact h
  | put session path data ephemeral => exact (owns_put_of_ne hs session data ephemeral id).mp h
  | delete session path => exact (owns_delete_of_not_isWithin hs session id).mp h
  | disconnect id' => exact (c.owns_transition id' _ id path).mp h
  | reconnect id' => exact (c.owns_transition id' _ id path).mp h
  | expire id' => exact ((owns_expire id' id path).mp h).1

/-- A move takes a node that it leaves alone away from a session only if it ends the session. -/
theorem Orderly.owns_after (ho : Orderly c) {move : Move} {path : String} (hs : move.Spares path)
    {id : SessionId} (h : c.Owns id path) (hne : (c.after move).sessions[id]? ≠ some .expired) :
    (c.after move).Owns id path := by
  cases move with
  | openSession => exact h
  | put session path data ephemeral => exact (owns_put_of_ne hs session data ephemeral id).mpr h
  | delete session path => exact (owns_delete_of_not_isWithin hs session id).mpr h
  | disconnect id' => exact (c.owns_transition id' _ id path).mpr h
  | reconnect id' => exact (c.owns_transition id' _ id path).mpr h
  | expire id' =>
    refine (owns_expire id' id path).mpr ⟨h, fun heq => ?_⟩
    subst heq
    obtain ⟨state, hstate, -⟩ := ho.owner_alive path id h
    exact hne (sessions_expire id (by simp [hstate]))

/-- A session that has ended stays ended while the log grows. -/
theorem Orderly.expired_of_tells {c' : Coordinator} (h : Orderly c) (h' : Orderly c')
    (ht : c.Tells c') {id : SessionId} (he : c.sessions[id]? = some .expired) :
    c'.sessions[id]? = some .expired := by
  obtain ⟨events, hlog⟩ := ht
  rw [← h'.told id, hlog]
  exact Array.mem_append_left _ ((h.told id).mpr he)

/-! ### Reading the log -/

/-- A reader that is more than the kept events behind loses the others; any other reader sees the
next event if there is one. -/
theorem read_cases (c : Coordinator) (position : Nat) :
    (position + kept < c.log.size ∧ c.read position = .lagged (c.log.size - kept)) ∨
    (c.log.size ≤ position + kept ∧ ∃ event, c.log[position]? = some event ∧
      c.read position = .event event (position + 1)) ∨
    (c.log.size ≤ position ∧ c.read position = .nothing) := by
  by_cases hlag : position + kept < c.log.size
  · refine .inl ⟨hlag, ?_⟩
    rw [read, if_pos hlag]
  · rw [read, if_neg hlag]
    refine .inr ?_
    cases hget : c.log[position]? with
    | none => exact .inr ⟨Array.getElem?_eq_none_iff.mp hget, rfl⟩
    | some event => exact .inl ⟨Nat.le_of_not_lt hlag, event, rfl, rfl⟩

/-- A reader has nothing left to read just if it is at the end of the log. -/
theorem read_eq_nothing_iff {position : Nat} :
    c.read position = .nothing ↔ c.log.size ≤ position := by
  rcases c.read_cases position with
    ⟨hlag, hread⟩ | ⟨-, event, hget, hread⟩ | ⟨hsize, hread⟩
  · simp only [hread, reduceCtorEq, false_iff]
    omega
  · obtain ⟨hlt, -⟩ := Array.getElem?_eq_some_iff.mp hget
    simp only [hread, reduceCtorEq, false_iff, Nat.not_le]
    exact hlt
  · simp only [hread, hsize]

end Switchboard.Coordinator
