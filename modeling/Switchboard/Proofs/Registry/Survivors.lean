import Switchboard.Proofs.Registry.Overlap

/-!
# Nodes that outlive their session

A session that ends loses its nodes before it is marked as ended, and whoever puts a node has looked
at the session before. Between the look and the put the session may end: its nodes are removed, and
then comes one more that nobody removes. Calls that do not overlap in this way leave no node to a
session that has ended; and no call leaves one to a session that was never opened.
-/

namespace Switchboard.Overlap

/-- The session whose nodes a call has removed because it ends, until it is marked as ended. -/
def Stage.ended? : Stage → Option SessionId
  | .telling ended => ended
  | .ending id => some id
  | _ => none

private theorem Stage.ended?_told (ended : Option SessionId) :
    (Stage.told ended).ended? = ended := by
  cases ended <;> rfl

namespace Scene

variable {s s' : Scene} {t : CallId}

/-- Whether a session has ended, or its nodes were removed because it ends. -/
def IsEnding (s : Scene) (id : SessionId) : Prop :=
  s.coordinator.sessions[id]? = some .expired ∨ ∃ t, (t, id) ∈ s.sweeps

/-! ### Sessions that change their state -/

/-- A session that changes its state is known if it was known before. -/
theorem isSome_switch (s : Scene) (t : CallId) (id : SessionId) (state : SessionState)
    (id' : SessionId) : (s.switch t id state).coordinator.sessions[id']?.isSome =
      s.coordinator.sessions[id']?.isSome := by
  rcases s.switch_cases t id state with ⟨before, hbefore, -, h⟩ | ⟨-, h⟩
  · rw [h]
    change (s.coordinator.sessions.insert id state)[id']?.isSome = _
    rw [Coordinator.sessions_insert]
    split
    · next heq => simp [← heq, hbefore]
    · rfl
  · rw [h]

/-- A session has ended if it had ended before or is open and ends now. -/
theorem expired_switch_iff (s : Scene) (t : CallId) (id : SessionId) (state : SessionState)
    (id' : SessionId) : (s.switch t id state).coordinator.sessions[id']? = some .expired ↔
      s.coordinator.sessions[id']? = some .expired ∨
        state = .expired ∧ id = id' ∧ s.coordinator.sessions[id']?.isSome = true := by
  rcases s.switch_cases t id state with ⟨before, hbefore, hne, h⟩ | ⟨hs, h⟩
  · rw [h]
    change (s.coordinator.sessions.insert id state)[id']? = _ ↔ _
    rw [Coordinator.sessions_insert]
    split
    · next heq => simp [← heq, hbefore, hne]
    · next hne => simp [hne]
  · rw [h]
    constructor
    · exact .inl
    · rintro (hexpired | ⟨-, rfl, hsome⟩)
      · exact hexpired
      · rcases hs with hs | hs
        · simp [hs] at hsome
        · exact hs

/-- A session that is opened is connected, and the others are as they were. -/
theorem getElem?_sessions_opening (s : Scene) (t : CallId) (id id' : SessionId) :
    (s.step t (.opening id)).coordinator.sessions[id']? =
      if id = id' then some .connected else s.coordinator.sessions[id']? :=
  s.coordinator.sessions_insert id .connected id'

/-! ### Numbers of sessions -/

/-- No more numbers are drawn than sessions are asked for: whoever has asked for one and has not
drawn its number yet is among the pending. -/
def DrawsAtMost (s : Scene) (asked : Nat) : Prop :=
  ∃ pending : List CallId, s.coordinator.nextSession.toNat + pending.length ≤ asked + 1 ∧
    ∀ t, s.stage t = .begun .openSession → t ∈ pending

private theorem drawsAtMost_empty : DrawsAtMost {} 0 := ⟨[], by decide, by simp⟩

/-- Whoever is about to draw a number has asked for it. -/
theorem DrawsAtMost.upcoming_le {asked : Nat} (h : DrawsAtMost s asked)
    (hstage : s.stage t = .begun .openSession) : s.coordinator.upcoming ≤ asked := by
  obtain ⟨pending, hle, hmem⟩ := h
  have hpos := List.length_pos_of_mem (hmem t hstage)
  change s.coordinator.nextSession.toNat ≤ asked
  omega

/-- A step that draws no number, after which nobody is about to draw one who was not before. -/
theorem DrawsAtMost.congr {asked : Nat} (h : DrawsAtMost s asked)
    (hnext : s'.coordinator.nextSession = s.coordinator.nextSession)
    (hstage : ∀ u, s'.stage u = .begun .openSession → s.stage u = .begun .openSession) :
    DrawsAtMost s' asked := by
  obtain ⟨pending, hle, hmem⟩ := h
  rw [← hnext] at hle
  exact ⟨pending, hle, fun u hu => hmem u (hstage u hu)⟩

private theorem nextSession_switch (s : Scene) (t : CallId) (id : SessionId)
    (state : SessionState) :
    (s.switch t id state).coordinator.nextSession = s.coordinator.nextSession := by
  rcases s.switch_cases t id state with ⟨before, -, -, h⟩ | ⟨-, h⟩ <;> rw [h]

private theorem nextSession_tell (s : Scene) (t : CallId) (ended : Option SessionId) :
    (s.tell t ended).coordinator.nextSession = s.coordinator.nextSession := by
  rcases s.tell_cases t ended with ⟨before, entry, rest, -, -, -, htell⟩ | ⟨-, htell⟩ <;>
    simp only [htell] <;> rfl

/-- Only a call that has begun to open a session draws a number. -/
theorem nextSession_next (hstage : s.stage t ≠ .begun .openSession) :
    (s.next t).coordinator.nextSession = s.coordinator.nextSession := by
  rw [Scene.next]
  cases hs : s.stage t with
  | idle => rfl
  | begun move =>
    cases move with
    | openSession => exact absurd hs hstage
    | put session path data ephemeral | delete session path | expire id => rfl
    | disconnect id | reconnect id => exact nextSession_switch ..
  | opening id | putting session path data ephemeral | deleting path => rfl
  | telling ended => exact nextSession_tell ..
  | ending id => exact nextSession_switch ..

/-- No step of a call is the begin of one. -/
theorem stage_next_ne_begun (move : Coordinator.Move) : (s.next t).stage t ≠ .begun move := by
  rw [Scene.next]
  cases hs : s.stage t with
  | idle => simp [step, hs]
  | begun move' =>
    cases move' <;> simp only [step, Scene.move, Function.update_self] <;> try split
    all_goals simp
  | telling ended =>
    rw [step]
    rcases s.tell_cases t ended with ⟨before, entry, rest, -, -, -, htell⟩ | ⟨-, htell⟩
    · simp [htell, hs]
    · rw [htell, stage_move_self]
      cases ended <;> simp [Stage.told]
  | opening id | putting session path data ephemeral | deleting path | ending id =>
    simp [step, Scene.move, Function.update_self]

/-- Whoever takes a step has drawn a number at most, and was among the pending then. -/
theorem DrawsAtMost.next {asked : Nat} (h : DrawsAtMost s asked) (t : CallId) :
    DrawsAtMost (s.next t) asked := by
  have hrest : ∀ u, (s.next t).stage u = .begun .openSession →
      u ≠ t ∧ s.stage u = .begun .openSession := by
    intro u hu
    have hne : u ≠ t := by
      rintro rfl
      exact stage_next_ne_begun _ hu
    exact ⟨hne, by rwa [stage_next_of_ne hne] at hu⟩
  by_cases hstage : s.stage t = .begun .openSession
  · obtain ⟨pending, hle, hmem⟩ := h
    have hlength := List.length_erase_of_mem (hmem t hstage)
    have hpos := List.length_pos_of_mem (hmem t hstage)
    have hdrawn : (s.next t).coordinator.nextSession.toNat ≤
        s.coordinator.nextSession.toNat + 1 := by
      rw [next_eq hstage]
      exact Nat.mod_le ..
    refine ⟨pending.erase t, by omega, fun u hu => ?_⟩
    obtain ⟨hne, hu⟩ := hrest u hu
    exact (List.mem_erase_of_ne hne).mpr (hmem u hu)
  · exact h.congr (nextSession_next hstage) fun u hu => (hrest u hu).2

/-- Whoever begins to open a session is pending then. -/
theorem DrawsAtMost.after {asked : Nat} (h : DrawsAtMost s asked) (act : Act) :
    DrawsAtMost (s.after act) (asked + if act.isOpening then 1 else 0) := by
  cases act with
  | go t => exact h.next t
  | begin t move =>
    obtain ⟨pending, hle, hmem⟩ := h
    rw [Scene.after]
    split
    · by_cases hmove : move = .openSession
      · subst hmove
        refine ⟨t :: pending, Nat.succ_le_succ hle, fun u hu => ?_⟩
        by_cases htag : u = t
        · exact htag ▸ List.mem_cons_self
        · rw [stage_move_of_ne htag] at hu
          exact List.mem_cons_of_mem _ (hmem u hu)
      · refine ⟨pending, Nat.le_trans hle (by omega), fun u hu => hmem u (stage_of_move hu ?_)⟩
        simpa using hmove
    · exact ⟨pending, Nat.le_trans hle (by omega), hmem⟩

/-- Sessions are numbered in turn, and one that is being opened is not known yet. -/
structure Numbered (s : Scene) : Prop where
  known_lt : ∀ id : SessionId, s.coordinator.sessions[id]?.isSome = true →
    id < s.coordinator.upcoming
  opening : ∀ t id, s.stage t = .opening id →
    s.coordinator.sessions[id]? = none ∧ id < s.coordinator.upcoming
  opening_ne : ∀ t u id, s.stage t = .opening id → s.stage u = .opening id → t = u

private theorem numbered_empty : Numbered {} := by
  constructor <;> simp

/-- A step that opens no session keeps them numbered. -/
theorem Numbered.congr (h : Numbered s)
    (hknown : ∀ id : SessionId, s'.coordinator.sessions[id]?.isSome =
      s.coordinator.sessions[id]?.isSome)
    (hnext : s'.coordinator.nextSession = s.coordinator.nextSession)
    (hstage : ∀ u id, s'.stage u = .opening id → s.stage u = .opening id) : Numbered s' where
  known_lt id hid := by
    rw [Coordinator.upcoming, hnext]
    exact h.known_lt id (hknown id ▸ hid)
  opening u id hu := by
    obtain ⟨hnone, hlt⟩ := h.opening u id (hstage u id hu)
    have hsome := hknown id
    rw [hnone, Option.isSome_none, Option.isSome_eq_false_iff, Option.isNone_iff_eq_none] at hsome
    exact ⟨hsome, by rwa [Coordinator.upcoming, hnext]⟩
  opening_ne t u id ht hu := h.opening_ne t u id (hstage t id ht) (hstage u id hu)

private theorem Numbered.move (h : Numbered s) {stage : Stage}
    (hstage : ∀ id, stage ≠ .opening id) :
    Numbered (s.move t stage) :=
  h.congr (fun _ => rfl) rfl fun _ id hu => stage_of_move hu (hstage id)

private theorem Numbered.switch (h : Numbered s) (id : SessionId) (state : SessionState) :
    Numbered (s.switch t id state) :=
  h.congr (fun _ => isSome_switch ..) (nextSession_switch ..) fun _ _ hu => by
    rwa [stage_switch] at hu

/-- Whoever opens a session draws a number that nobody has, unless the numbers come round. -/
theorem Numbered.draw (h : Numbered s) (t : CallId)
    (hfits : s.coordinator.upcoming + 1 < 2 ^ 64) :
    Numbered (s.step t (.begun .openSession)) := by
  have hdrawn : (s.step t (.begun .openSession)).coordinator.upcoming =
      s.coordinator.upcoming + 1 := by
    change (s.coordinator.nextSession + 1).toNat = _
    rw [UInt64.toNat_add, UInt64.toNat_one]
    exact Nat.mod_eq_of_lt hfits
  have hstage : ∀ u id, (s.step t (.begun .openSession)).stage u = .opening id →
      u = t ∧ id = s.coordinator.upcoming ∨ u ≠ t ∧ s.stage u = .opening id := by
    intro u id hu
    change (s.move t (.opening s.coordinator.upcoming)).stage u = _ at hu
    by_cases htag : u = t
    · rw [htag, stage_move_self] at hu
      exact .inl ⟨htag, (Stage.opening.inj hu).symm⟩
    · exact .inr ⟨htag, by rwa [stage_move_of_ne htag] at hu⟩
  constructor
  · intro id hid
    rw [hdrawn]
    exact Nat.lt_succ_of_lt (h.known_lt id hid)
  · intro u id hu
    rw [hdrawn]
    rcases hstage u id hu with ⟨-, rfl⟩ | ⟨-, hu⟩
    · refine ⟨?_, Nat.lt_succ_self _⟩
      by_contra hne
      exact Nat.lt_irrefl _ (h.known_lt _ (Option.isSome_iff_ne_none.mpr hne))
    · exact (h.opening u id hu).imp_right Nat.lt_succ_of_lt
  · intro v u id hv hu
    rcases hstage v id hv with ⟨hv, hid⟩ | ⟨-, hv⟩ <;>
      rcases hstage u id hu with ⟨hu, hid'⟩ | ⟨-, hu⟩
    · rw [hv, hu]
    · exact absurd (h.opening u id hu).2 (by simp [hid])
    · exact absurd (h.opening v id hv).2 (by simp [hid'])
    · exact h.opening_ne v u id hv hu

/-- The session that was opened becomes known. -/
theorem Numbered.open (h : Numbered s) {id : SessionId} (hstage : s.stage t = .opening id) :
    Numbered (s.step t (.opening id)) := by
  have hold : ∀ u id', (s.step t (.opening id)).stage u = .opening id' →
      s.stage u = .opening id' ∧ id ≠ id' := by
    intro u id' hu
    change (s.move t .idle).stage u = _ at hu
    have hu' := stage_of_move hu (by simp)
    refine ⟨hu', ?_⟩
    rintro rfl
    rw [h.opening_ne u t id hu' hstage, stage_move_self] at hu
    cases hu
  constructor
  · intro id' hid
    rw [getElem?_sessions_opening] at hid
    split at hid
    · next heq => exact heq ▸ (h.opening t id hstage).2
    · exact h.known_lt id' hid
  · intro u id' hu
    obtain ⟨hu, hne⟩ := hold u id' hu
    rw [getElem?_sessions_opening, if_neg hne]
    exact h.opening u id' hu
  · exact fun v u id' hv hu => h.opening_ne v u id' (hold v id' hv).1 (hold u id' hu).1

/-- Every step of every call keeps the sessions numbered, unless the numbers come round. -/
theorem Numbered.next (h : Numbered s) (t : CallId)
    (hfits : s.stage t = .begun .openSession → s.coordinator.upcoming + 1 < 2 ^ 64) :
    Numbered (s.next t) := by
  have htelling : ∀ {s : Scene}, Numbered s → ∀ ended, Numbered (s.move t (.telling ended)) :=
    fun h _ => h.move (by simp)
  rw [Scene.next]
  cases hstage : s.stage t with
  | idle => exact h
  | begun move =>
    cases move with
    | openSession => exact h.draw t (hfits hstage)
    | put session path data ephemeral | delete session path =>
      refine h.move fun id => ?_
      split <;> simp
    | disconnect id | reconnect id => exact htelling (h.switch id _) _
    | expire id => exact (htelling h (some id)).congr (fun _ => rfl) rfl fun _ _ hu => hu
  | opening id => exact h.open hstage
  | putting session path data ephemeral | deleting path =>
    exact (htelling h none).congr (fun _ => rfl) rfl fun _ _ hu => hu
  | telling ended =>
    rw [Scene.step]
    rcases s.tell_cases t ended with ⟨before, entry, rest, -, -, -, htell⟩ | ⟨-, htell⟩
    · rw [htell]
      exact h.congr (fun _ => rfl) rfl fun _ _ hu => hu
    · rw [htell]
      exact h.move (by cases ended <;> simp [Stage.told])
  | ending id =>
    have hswept : Numbered { s with sweeps := s.sweeps.filter (·.1 ≠ t) } :=
      h.congr (fun _ => rfl) rfl fun _ _ hu => hu
    exact htelling (hswept.switch id _) _

/-! ### Sessions whose nodes are removed -/

/-- The nodes of a session are removed by those that are about to mark it as ended. -/
def IsSwept (s : Scene) : Prop := ∀ t id, (t, id) ∈ s.sweeps ↔ (s.stage t).ended? = some id

/-- A call that goes on to end the same session, or none. -/
theorem IsSwept.move (h : IsSwept s) {stage : Stage} (hsame : stage.ended? = (s.stage t).ended?) :
    IsSwept (s.move t stage) := by
  intro u id
  change (u, id) ∈ s.sweeps ↔ _
  by_cases hu : u = t
  · rw [hu, stage_move_self, hsame, h t id]
  · rw [stage_move_of_ne hu, h u id]

private theorem sweeps_switch (s : Scene) (t : CallId) (id : SessionId) (state : SessionState) :
    (s.switch t id state).sweeps = s.sweeps := by
  rcases s.switch_cases t id state with ⟨before, -, -, h⟩ | ⟨-, h⟩ <;> rw [h]
  rfl

private theorem IsSwept.switch (h : IsSwept s) (id : SessionId) (state : SessionState) :
    IsSwept (s.switch t id state) := by
  intro u id'
  rw [sweeps_switch, stage_switch]
  exact h u id'

/-- Whoever ends a session removes its nodes first. -/
theorem IsSwept.sweep (h : IsSwept s) {id : SessionId} (hstage : (s.stage t).ended? = none) :
    IsSwept { s.move t (.telling (some id)) with sweeps := (t, id) :: s.sweeps } := by
  intro u id'
  change (u, id') ∈ (t, id) :: s.sweeps ↔ ((s.move t (.telling (some id))).stage u).ended? = _
  rw [List.mem_cons, h u id', Prod.mk.injEq]
  by_cases hu : u = t
  · rw [hu, hstage, stage_move_self, Stage.ended?]
    simp [eq_comm]
  · simp [hu, stage_move_of_ne hu]

/-- A call that has marked a session as ended has nothing to do with it any more. -/
theorem IsSwept.finish (h : IsSwept s) (id : SessionId) : IsSwept (s.step t (.ending id)) := by
  intro u id'
  rw [Scene.step]
  change (u, id') ∈ (Scene.switch { s with sweeps := _ } t id .expired).sweeps ↔ _
  rw [sweeps_switch, List.mem_filter, h u id']
  by_cases hu : u = t
  · simp [hu, stage_move_self, Stage.ended?]
  · simp [hu, stage_move_of_ne hu, stage_switch]

/-- Every step of every call keeps account of the sessions whose nodes are removed. -/
theorem IsSwept.next (h : IsSwept s) (t : CallId) : IsSwept (s.next t) := by
  rw [Scene.next]
  cases hstage : s.stage t with
  | idle => exact h
  | begun move =>
    cases move with
    | openSession => exact h.move (hstage ▸ rfl)
    | put session path data ephemeral | delete session path =>
      refine h.move ?_
      rw [hstage]
      split <;> rfl
    | disconnect id | reconnect id => exact (h.switch id _).move (by rw [stage_switch, hstage]; rfl)
    | expire id => exact h.sweep (hstage ▸ rfl)
  | opening id | putting session path data ephemeral | deleting path => exact h.move (hstage ▸ rfl)
  | telling ended =>
    rw [Scene.step]
    rcases s.tell_cases t ended with ⟨before, entry, rest, -, -, -, htell⟩ | ⟨-, htell⟩
    · rw [htell]
      exact h
    · rw [htell]
      exact h.move (by rw [hstage, Stage.ended?_told]; rfl)
  | ending id => exact h.finish id

/-- No session is about to end once no call is in progress. -/
theorem sweeps_eq_nil_of_atRest (h : IsSwept s) (hrest : s.AtRest) : s.sweeps = [] := by
  refine List.eq_nil_iff_forall_not_mem.mpr fun entry hentry => ?_
  have hended := (h entry.1 entry.2).mp hentry
  rw [hrest entry.1] at hended
  cases hended

/-! ### Owners of nodes -/

/-- Every node of a session that is ending was put late, and every node that was put late belongs to
a session that is ending; nodes belong to known sessions. -/
structure Owned (s : Scene) : Prop where
  putting : ∀ t session path data ephemeral, s.stage t = .putting session path data ephemeral →
    s.coordinator.sessions[session]?.isSome = true
  owner_known : ∀ id path, s.coordinator.Owns id path →
    s.coordinator.sessions[id]?.isSome = true
  late_iff : ∀ id path, s.coordinator.Owns id path → (path ∈ s.late ↔ s.IsEnding id)

private theorem owned_empty : Owned {} := by
  constructor <;> simp [Coordinator.Owns]

/-- A step that gives no node away and marks no session of one as ended. -/
theorem Owned.congr (h : Owned s)
    (howns : ∀ id path, s'.coordinator.Owns id path →
      s.coordinator.Owns id path ∧ (s'.IsEnding id ↔ s.IsEnding id))
    (hknown : ∀ id : SessionId, s.coordinator.sessions[id]?.isSome = true →
      s'.coordinator.sessions[id]?.isSome = true)
    (hlate : s'.late = s.late)
    (hputting : ∀ t session path data ephemeral,
      s'.stage t = .putting session path data ephemeral →
        s.coordinator.sessions[session]?.isSome = true) : Owned s' where
  putting t session path data ephemeral ht :=
    hknown session (hputting t session path data ephemeral ht)
  owner_known id path ho := hknown id (h.owner_known id path (howns id path ho).1)
  late_iff id path ho := by
    obtain ⟨hold, hending⟩ := howns id path ho
    rw [hlate, hending]
    exact h.late_iff id path hold

/-- A call that goes to a put only for a known session. -/
theorem Owned.move (h : Owned s) {stage : Stage}
    (hstage : ∀ session path data ephemeral, stage = .putting session path data ephemeral →
      s.coordinator.sessions[session]?.isSome = true) : Owned (s.move t stage) := by
  refine h.congr (fun _ _ ho => ⟨ho, .rfl⟩) (fun _ hk => hk) rfl
    fun u session path data ephemeral hu => ?_
  by_cases hne : stage = .putting session path data ephemeral
  · exact hstage session path data ephemeral hne
  · exact h.putting u session path data ephemeral (stage_of_move hu hne)

private theorem Owned.telling (h : Owned s) (t : CallId) (ended : Option SessionId) :
    Owned (s.move t (.telling ended)) :=
  h.move (by simp)

private theorem tree_switch (s : Scene) (t : CallId) (id : SessionId) (state : SessionState) :
    (s.switch t id state).coordinator.tree = s.coordinator.tree := by
  rcases s.switch_cases t id state with ⟨before, -, -, h⟩ | ⟨-, h⟩ <;> rw [h]

private theorem late_switch (s : Scene) (t : CallId) (id : SessionId) (state : SessionState) :
    (s.switch t id state).late = s.late := by
  rcases s.switch_cases t id state with ⟨before, -, -, h⟩ | ⟨-, h⟩ <;> rw [h]
  rfl

/-- A session that loses its connection or has it again keeps its nodes. -/
theorem Owned.switch (h : Owned s) (id : SessionId) {state : SessionState}
    (hstate : state ≠ .expired) : Owned (s.switch t id state) := by
  refine h.congr (fun id' path ho => ⟨?_, ?_⟩) (fun _ hk => by rwa [isSome_switch])
    (late_switch ..) fun u session path data ephemeral hu => ?_
  · rwa [Coordinator.Owns, tree_switch] at ho
  · rw [IsEnding, expired_switch_iff, sweeps_switch, IsEnding]
    simp [hstate]
  · rw [stage_switch] at hu
    exact h.putting u session path data ephemeral hu

/-- A session that is opened had no nodes. -/
theorem Owned.open (h : Owned s) {id : SessionId} (hnone : s.coordinator.sessions[id]? = none) :
    Owned (s.step t (.opening id)) := by
  refine h.congr (fun id' path ho => ⟨ho, ?_⟩) (fun id' hk => ?_) rfl
    fun u session path data ephemeral hu => ?_
  · have hne : id ≠ id' := by
      rintro rfl
      have hk := h.owner_known id path ho
      rw [hnone] at hk
      cases hk
    rw [IsEnding, getElem?_sessions_opening, if_neg hne]
    exact .rfl
  · rw [getElem?_sessions_opening]
    split
    · rfl
    · exact hk
  · change (s.move t .idle).stage u = _ at hu
    exact h.putting u session path data ephemeral (stage_of_move hu (by simp))

/-- A node is late just if it was put for a session that was ending. -/
theorem mem_late_put_iff (s : Scene) (t : CallId) (session : SessionId) (path : String)
    (data : Option String) (ephemeral : Bool) (key : String) :
    key ∈ (s.put t session path data ephemeral).late ↔
      key = path ∧ ephemeral = true ∧ s.IsEnding session ∨ key ≠ path ∧ key ∈ s.late := by
  have hending : (s.coordinator.sessions[session]? == some .expired ||
      s.sweeps.any (·.2 == session)) = true ↔ s.IsEnding session := by
    simp [IsEnding]
  simp only [Scene.put]
  split
  · next hlate =>
    rw [Bool.and_eq_true, hending] at hlate
    by_cases hkey : key = path <;> simp [hkey, hlate]
  · next hlate =>
    rw [Bool.and_eq_true, hending] at hlate
    by_cases hkey : key = path
    · simp only [hkey, hlate, true_and, ne_eq, not_true_eq_false, false_and, or_false, iff_false]
      simp
    · simp [hkey]

/-- A node that is put belongs to its session or to nobody, and is late just if its session is
ending. -/
theorem Owned.put (h : Owned s) {session : SessionId} {path : String} {data : Option String}
    {ephemeral : Bool} (hsession : s.coordinator.sessions[session]?.isSome = true) :
    Owned (s.put t session path data ephemeral) := by
  have howns : ∀ id key, (s.put t session path data ephemeral).coordinator.Owns id key →
      key = path ∧ ephemeral = true ∧ id = session ∨
        key ≠ path ∧ s.coordinator.Owns id key := by
    rintro id key ⟨node, hnode, hid⟩
    change (s.coordinator.tree.put path data _).1[key]? = some node at hnode
    by_cases hkey : key = path
    · rw [hkey, Tree.getElem?_put_self] at hnode
      cases hnode
      cases ephemeral
      · cases hid
      · exact .inl ⟨hkey, rfl, (Option.some.inj hid).symm⟩
    · refine .inr ⟨hkey, ?_⟩
      rcases s.coordinator.tree.getElem?_put_of_ne hkey data
        (if ephemeral then some session else none) with hsame | ⟨-, hnew, -⟩
      · exact ⟨node, hsame ▸ hnode, hid⟩
      · rw [hnew] at hnode
        cases hnode
        cases hid
  constructor
  · exact h.putting
  · intro id key ho
    rcases howns id key ho with ⟨-, -, rfl⟩ | ⟨-, hold⟩
    · exact hsession
    · exact h.owner_known id key hold
  · intro id key ho
    rw [mem_late_put_iff]
    rcases howns id key ho with ⟨hkey, hephemeral, rfl⟩ | ⟨hkey, hold⟩
    · simp only [hkey, hephemeral, true_and, ne_eq, not_true_eq_false, false_and, or_false]
      rfl
    · simp only [hkey, false_and, ne_eq, not_false_eq_true, true_and, false_or]
      exact h.late_iff id key hold

/-- Nodes that stay belong to whom they belonged. -/
theorem Owned.removeWhere (h : Owned s) (doomed : String → TreeNode → Bool) :
    Owned (s.removeWhere t doomed) := by
  refine h.congr (fun id path ho => ⟨?_, .rfl⟩) (fun _ hk => hk) rfl h.putting
  obtain ⟨node, hnode, hid, -⟩ := (Coordinator.owns_removeWhere doomed id path).mp ho
  exact ⟨node, hnode, hid⟩

/-- A session whose nodes are removed has none left that could be late. -/
theorem Owned.sweep (h : Owned s) (t : CallId) (id : SessionId) :
    Owned (s.step t (.begun (.expire id))) := by
  refine h.congr (fun id' path ho => ?_) (fun _ hk => hk) rfl (h.telling t (some id)).putting
  obtain ⟨node, hnode, hid, hspared⟩ := (Coordinator.owns_removeWhere _ id' path).mp ho
  have hne : id' ≠ id := by
    rintro rfl
    simp [hid] at hspared
  refine ⟨⟨node, hnode, hid⟩, or_congr .rfl (exists_congr fun u => ?_)⟩
  change (u, id') ∈ (t, id) :: s.sweeps ↔ _
  simp [hne]

/-- A session whose nodes were removed is marked as ended. -/
theorem Owned.finish (h : Owned s) (hswept : IsSwept s) {id : SessionId}
    (hstage : s.stage t = .ending id) : Owned (s.step t (.ending id)) := by
  have hself : ∀ id', (t, id') ∈ s.sweeps ↔ id = id' := by
    intro id'
    rw [hswept t id', hstage]
    exact Option.some_inj
  have hlate := late_switch { s with sweeps := s.sweeps.filter (·.1 ≠ t) } t id .expired
  refine Owned.telling (h.congr (fun id' path ho => ?_) (fun _ hk => by rwa [isSome_switch])
    hlate fun u session path data ephemeral hu => ?_) t none
  · rw [Coordinator.Owns, tree_switch] at ho
    have hknown := h.owner_known id' path ho
    refine ⟨ho, ?_⟩
    rw [IsEnding, expired_switch_iff, sweeps_switch, IsEnding]
    constructor
    · rintro ((hexpired | ⟨-, rfl, -⟩) | ⟨u, hu⟩)
      · exact .inl hexpired
      · exact .inr ⟨t, (hself id).mpr rfl⟩
      · exact .inr ⟨u, (List.mem_filter.mp hu).1⟩
    · rintro (hexpired | ⟨u, hu⟩)
      · exact .inl (.inl hexpired)
      · by_cases htag : u = t
        · subst htag
          exact .inl (.inr ⟨rfl, (hself id').mp hu, hknown⟩)
        · exact .inr ⟨u, List.mem_filter.mpr ⟨hu, by simpa using htag⟩⟩
  · rw [stage_switch] at hu
    exact h.putting u session path data ephemeral hu

/-- Every step of every call leaves late nodes to sessions that are ending, and no others. -/
theorem Owned.next (h : Owned s) (hnumbered : Numbered s) (hswept : IsSwept s) (t : CallId) :
    Owned (s.next t) := by
  rw [Scene.next]
  cases hstage : s.stage t with
  | idle => exact h
  | begun move =>
    cases move with
    | openSession =>
      have hmove : Owned (s.move t (.opening s.coordinator.upcoming)) := h.move (by simp)
      exact ⟨hmove.putting, hmove.owner_known, hmove.late_iff⟩
    | put session path data ephemeral =>
      refine h.move fun session' path' data' ephemeral' heq => ?_
      split at heq
      · next hconnected =>
        cases heq
        rw [hconnected]
        rfl
      · cases heq
    | delete session path =>
      refine h.move fun session' path' data' ephemeral' heq => ?_
      split at heq <;> cases heq
    | disconnect id | reconnect id => exact (h.switch id (by simp)).telling t none
    | expire id => exact h.sweep t id
  | opening id => exact h.open (hnumbered.opening t id hstage).1
  | putting session path data ephemeral =>
    exact (h.put (h.putting t _ _ _ _ hstage)).telling t none
  | deleting path => exact (h.removeWhere _).telling t none
  | telling ended =>
    rw [Scene.step]
    rcases s.tell_cases t ended with ⟨before, entry, rest, -, -, -, htell⟩ | ⟨-, htell⟩
    · rw [htell]
      exact ⟨h.putting, h.owner_known, h.late_iff⟩
    · rw [htell]
      exact h.move (by cases ended <;> simp [Stage.told])
  | ending id => exact h.finish hswept hstage

/-- What holds of a scene all along, after so many sessions were asked for. -/
structure Sound (s : Scene) (asked : Nat) : Prop where
  drawn : DrawsAtMost s asked
  numbered : Numbered s
  swept : IsSwept s
  owned : Owned s

private theorem sound_empty : Sound {} 0 :=
  ⟨drawsAtMost_empty, numbered_empty, by simp [IsSwept, Stage.ended?], owned_empty⟩

/-- Every act keeps a scene sound, unless the numbers of the sessions come round. -/
theorem Sound.after {asked : Nat} (h : Sound s asked) (act : Act) (hfits : asked + 1 < 2 ^ 64) :
    Sound (s.after act) (asked + if act.isOpening then 1 else 0) := by
  have hdrawn := h.drawn.after act
  cases act with
  | go t =>
    refine ⟨hdrawn, h.numbered.next t fun hstage => ?_, h.swept.next t,
      h.owned.next h.numbered h.swept t⟩
    exact Nat.lt_of_le_of_lt (Nat.succ_le_succ (h.drawn.upcoming_le hstage)) hfits
  | begin t move =>
    rw [Scene.after] at hdrawn ⊢
    split at hdrawn
    · next hidle =>
      exact ⟨hdrawn, h.numbered.move (by simp), h.swept.move (hidle ▸ rfl), h.owned.move (by simp)⟩
    · exact ⟨hdrawn, h.numbered, h.swept, h.owned⟩

/-- Every run keeps a scene sound, unless the numbers of the sessions come round. -/
theorem Sound.run {asked : Nat} (h : Sound s asked) (acts : List Act)
    (hfits : asked + acts.countP Act.isOpening + 1 < 2 ^ 64) :
    Sound (s.run acts) (asked + acts.countP Act.isOpening) := by
  induction acts generalizing s asked with
  | nil => exact h
  | cons act rest ih =>
    rw [List.countP_cons, Nat.add_comm (rest.countP _), ← Nat.add_assoc] at hfits ⊢
    exact ih (h.after act (by omega)) hfits

/-- After any run of overlapping calls, once all of them have returned: whoever owns a node is a
session that was opened, and it has ended just if the node was put late, when the session's nodes
were removed already. Fewer than `2 ^ 64 - 1` sessions were opened, so that their numbers did not
come round. -/
theorem owner_of_atRest (acts : List Act) (hfits : acts.countP Act.isOpening + 1 < 2 ^ 64)
    (hrest : (ofActs acts).AtRest) {id : SessionId} {path : String}
    (howns : (ofActs acts).coordinator.Owns id path) :
    ∃ state, (ofActs acts).coordinator.sessions[id]? = some state ∧
      (state = .expired ↔ path ∈ (ofActs acts).late) := by
  have hsound : Sound (ofActs acts) _ := sound_empty.run acts (by rwa [Nat.zero_add])
  obtain ⟨state, hstate⟩ := Option.isSome_iff_exists.mp (hsound.owned.owner_known id path howns)
  refine ⟨state, hstate, ?_⟩
  rw [hsound.owned.late_iff id path howns, IsEnding, sweeps_eq_nil_of_atRest hsound.swept hrest,
    hstate]
  simp

/-- A session puts an ephemeral node while it is ended: it is seen to be connected, its nodes are
removed, it is marked as ended, and then comes the node, and stays. -/
theorem owner_of_late_put :
    let acts : List Act := [.begin 0 .openSession, .go 0, .go 0,
      .begin 0 (.put 1 "/a" (some "x") true), .go 0, .begin 1 (.expire 1), .go 1, .go 1, .go 1,
      .go 1, .go 1, .go 0, .go 0, .go 0, .go 0]
    let s := ofActs acts
    s.AtRest ∧ s.coordinator.Owns 1 "/a" ∧ s.coordinator.sessions[1]? = some .expired ∧
      "/a" ∈ s.late := by
  intro acts s
  have hrest : s.AtRest := atRest_run (n := 2) (fun _ => rfl) (by decide) (by decide +kernel)
  have howns : s.coordinator.Owns 1 "/a" :=
    ⟨{ data := some "x", owner := some 1 }, by decide +kernel, rfl⟩
  have hended : s.coordinator.sessions[1]? = some .expired := by decide +kernel
  obtain ⟨state, hstate, hlate⟩ := owner_of_atRest acts (by decide) hrest howns
  obtain rfl : state = .expired := Option.some.inj (hstate.symm.trans hended)
  exact ⟨hrest, howns, hended, hlate.mp rfl⟩

end Scene

end Switchboard.Overlap
