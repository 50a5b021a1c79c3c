import Switchboard.Proofs.Channel.Scene

/-!
# Whose channels a table holds

A table files every channel under the id of its connection, so that it has one channel for an id and
returns to whoever asks what is of the connection asked for. While the connection is open nobody
takes that channel out. A connection that was let go of is closed, its channel was taken out after
that, and nobody with the lock has seen it open since: no channel of it comes into the table again.
-/

namespace Switchboard

/-- What looking for a channel comes to: it was there, it is new and kept, or it is new and nothing
is kept for its id. -/
theorem ChannelTable.getOrAdd_cases {t t' : ChannelTable} {id : ConnectionId} {x : ConnectionRef}
    {isOpen : Bool} {span : Duration} {channel : Channel}
    (h : t.getOrAdd id x isOpen span = (channel, t')) :
    (isOpen = true ∧ t.channels[id]? = some channel ∧ t'.channels = t.channels) ∨
      (isOpen = true ∧ t.channels[id]? = none ∧ channel.connection = x ∧
        t'.channels = t.channels.insert id channel) ∨
      (isOpen = false ∧ channel.connection = x ∧ t'.channels = t.channels.erase id) := by
  unfold getOrAdd at h
  cases isOpen with
  | false =>
    cases h
    exact .inr (.inr ⟨rfl, rfl, rfl⟩)
  | true =>
    rw [if_pos rfl] at h
    split at h
    · next found hfound =>
      cases h
      exact .inl ⟨rfl, hfound, rfl⟩
    · next hnone =>
      cases h
      exact .inr (.inl ⟨rfl, hnone, rfl, rfl⟩)

end Switchboard

namespace Switchboard.Channels

variable {idOf : ConnectionRef → ConnectionId} {known : ConnectionRef → Prop}

/-- Whether channels of known connections are filed under the ids of these. -/
def Filed (idOf : ConnectionRef → ConnectionId) (known : ConnectionRef → Prop)
    (channels : Std.ExtTreeMap ConnectionId Channel) : Prop :=
  ∀ (id : ConnectionId) (channel : Channel), channels[id]? = some channel →
    known channel.connection ∧ idOf channel.connection = id

namespace Filed

variable {channels : Std.ExtTreeMap ConnectionId Channel} (h : Filed idOf known channels)

include h

private theorem erase (id : ConnectionId) : Filed idOf known (channels.erase id) := by
  intro other channel hchannel
  rw [Std.ExtTreeMap.getElem?_erase] at hchannel
  split at hchannel
  · cases hchannel
  · exact h other channel hchannel

private theorem insert {x : ConnectionRef} (hx : known x) {channel : Channel}
    (hchannel : channel.connection = x) : Filed idOf known (channels.insert (idOf x) channel) := by
  intro other channel' hother
  rw [Std.ExtTreeMap.getElem?_insert] at hother
  split at hother
  · next heq =>
    obtain rfl := Option.some.inj hother
    rw [hchannel]
    exact ⟨hx, Std.LawfulEqCmp.compare_eq_iff_eq.mp heq⟩
  · exact h other channel' hother

end Filed

/-- The connection that a thread at a stage knows to be closed, and whose channel it takes out. -/
def Stage.shut? : Stage → Option ConnectionRef
  | looking x _ false | evicting x | forgetting x => some x
  | _ => none

namespace Scene

/-- Whether a connection was let go of, but perhaps for the requests that have yet to fail. -/
def IsLetGo (s : Scene) (x : ConnectionRef) : Prop :=
  x ∈ s.released ∨ ∃ t, s.stage t = .failing x

/-- A connection is closed, nothing is kept for its id, and nobody who has the lock saw it open. -/
structure Lacks (idOf : ConnectionRef → ConnectionId) (s : Scene) (x : ConnectionRef) : Prop where
  isOpen_eq : s.isOpen x = false
  channels_eq : s.table.channels[idOf x]? = none
  not_looking : ∀ t span, s.stage t ≠ .looking x span true

/-- A channel that was returned is of the connection asked for, and kept while that is open. -/
structure Keeps (idOf : ConnectionRef → ConnectionId) (known : ConnectionRef → Prop) (s : Scene)
    (x : ConnectionRef) (channel : Channel) : Prop where
  known : known x
  connection_eq : channel.connection = x
  kept : s.isOpen x = true → s.table.channels[idOf x]? = some channel

/-- A scene that errands about known connections have led to. -/
structure Sound (idOf : ConnectionRef → ConnectionId) (known : ConnectionRef → Prop) (s : Scene) :
    Prop where
  known_of_stage : ∀ t, ∀ x ∈ (s.stage t).connection?, known x
  filed : Filed idOf known s.table.channels
  /-- Whoever looks into the table has the lock. -/
  turn_eq : ∀ t x span isOpen, s.stage t = .looking x span isOpen → s.turn = some t
  /-- Whoever is to take a channel out has closed the connection, or seen that it is closed. -/
  isOpen_eq : ∀ t, ∀ x ∈ (s.stage t).shut?, s.isOpen x = false
  /-- A connection that was let go of lacks a channel for good. -/
  lacks : ∀ x, s.IsLetGo x → known x ∧ s.Lacks idOf x
  keeps : ∀ x channel, (x, channel) ∈ s.given → s.Keeps idOf known x channel

private theorem sound_empty (isOpen : ConnectionRef → Bool) : Sound idOf known { isOpen } := by
  constructor <;> simp [Stage.connection?, Stage.shut?, Filed, IsLetGo]

namespace Sound

variable {s : Scene}

/-- Connections are closed, and the table changes, but for the channels of connections that are
open; every thread stays where it is. -/
theorem change (h : Sound idOf known s) {table : ChannelTable} {isOpen : ConnectionRef → Bool}
    (hopen : ∀ x, isOpen x = true → s.isOpen x = true)
    (hfiled : Filed idOf known table.channels)
    (hlacks : ∀ x, s.IsLetGo x → table.channels[idOf x]? = none)
    (hkept : ∀ x channel, known x → isOpen x = true → s.table.channels[idOf x]? = some channel →
      table.channels[idOf x]? = some channel) :
    Sound idOf known { s with table, isOpen } := by
  have hclosed : ∀ x, s.isOpen x = false → isOpen x = false := fun x hx =>
    Bool.eq_false_iff.mpr fun hopened => by cases (hopen x hopened).symm.trans hx
  refine ⟨h.known_of_stage, hfiled, h.turn_eq, fun t x ht => hclosed x (h.isOpen_eq t x ht),
    fun x hx => ?_, fun x channel hgiven => ?_⟩
  · obtain ⟨hknown, hlacked⟩ := h.lacks x hx
    exact ⟨hknown, hclosed x hlacked.isOpen_eq, hlacks x hx, hlacked.not_looking⟩
  · obtain ⟨hknown, hconnection, hkeeps⟩ := h.keeps x channel hgiven
    exact ⟨hknown, hconnection, fun hx => hkept x channel hknown hx (hkeeps (hopen x hx))⟩

private theorem shut (h : Sound idOf known s) (x : ConnectionRef) :
    Sound idOf known (s.shut x) := by
  refine h.change (fun y hy => ?_) h.filed (fun y hy => (h.lacks y hy).2.channels_eq)
    fun _ _ _ _ hkept => hkept
  rw [Function.update_apply] at hy
  split at hy
  · cases hy
  · exact hy

/-- A channel is returned. -/
theorem give (h : Sound idOf known s) {x : ConnectionRef} {channel : Channel}
    (hkeeps : s.Keeps idOf known x channel) :
    Sound idOf known { s with given := (x, channel) :: s.given } := by
  refine
    { h with
      lacks := fun y hy => ?_
      keeps := fun y other hy => ?_ }
  · obtain ⟨hknown, hlacked⟩ := h.lacks y hy
    exact ⟨hknown, hlacked.isOpen_eq, hlacked.channels_eq, hlacked.not_looking⟩
  · rcases List.mem_cons.mp hy with heq | hy
    · obtain ⟨rfl, rfl⟩ := Prod.mk.inj heq
      exact ⟨hkeeps.known, hkeeps.connection_eq, hkeeps.kept⟩
    · have hkeeps := h.keeps y other hy
      exact ⟨hkeeps.known, hkeeps.connection_eq, hkeeps.kept⟩

/-- A thread comes to another stage, and the lock changes hands at most between it and nobody. -/
theorem move (h : Sound idOf known s) {t : ThreadId} {stage : Stage} {turn : Option ThreadId}
    {released : List ConnectionRef} (hknown : ∀ x ∈ stage.connection?, known x)
    (hturn : ∀ u, u ≠ t → s.turn = some u → turn = some u)
    (hlooking : ∀ x span isOpen, stage = .looking x span isOpen →
      turn = some t ∧ (isOpen = true → s.isOpen x = true))
    (hshut : ∀ x ∈ stage.shut?, s.isOpen x = false)
    (hfailing : ∀ x, stage = .failing x → s.Lacks idOf x)
    (hreleased : ∀ x ∈ released, s.IsLetGo x) :
    Sound idOf known { s.move t stage with turn, released } := by
  have hstage : ∀ u, (s.move t stage).stage u = if u = t then stage else s.stage u :=
    fun u => Function.update_apply ..
  refine
    { h with
      known_of_stage := fun u x hx => ?_
      turn_eq := fun u x span isOpen hu => ?_
      isOpen_eq := fun u x hu => ?_
      lacks := fun x hx => ?_
      keeps := fun x channel hx => ?_ }
  · have hu : x ∈ ((s.move t stage).stage u).connection? := hx
    rw [hstage] at hu
    split at hu
    · exact hknown x hu
    · exact h.known_of_stage u x hu
  · have hu : (s.move t stage).stage u = .looking x span isOpen := hu
    rw [hstage] at hu
    split at hu
    · next heq => exact heq ▸ (hlooking x span isOpen hu).1
    · next hne => exact hturn u hne (h.turn_eq u x span isOpen hu)
  · have hu : x ∈ ((s.move t stage).stage u).shut? := hu
    rw [hstage] at hu
    split at hu
    · exact hshut x hu
    · exact h.isOpen_eq u x hu
  · have hlacks : known x ∧ s.Lacks idOf x := by
      rcases hx with hx | ⟨u, hu⟩
      · exact h.lacks x (hreleased x hx)
      · have hu : (s.move t stage).stage u = .failing x := hu
        rw [hstage] at hu
        split at hu
        · exact ⟨hknown x (hu ▸ rfl), hfailing x hu⟩
        · exact h.lacks x (.inr ⟨u, hu⟩)
    obtain ⟨hx, hclosed, hnone, hnobody⟩ := hlacks
    refine ⟨hx, hclosed, hnone, fun u span hu => ?_⟩
    have hu : (s.move t stage).stage u = .looking x span true := hu
    rw [hstage] at hu
    split at hu
    · exact Bool.false_ne_true (hclosed.symm.trans ((hlooking x span true hu).2 rfl))
    · exact hnobody u span hu
  · obtain ⟨hx, hconnection, hkept⟩ := h.keeps x channel hx
    exact ⟨hx, hconnection, hkept⟩

/-- A thread comes to a stage at which it neither has the lock nor has let go of a connection. -/
theorem goOn (h : Sound idOf known s) {t : ThreadId} {stage : Stage}
    (hknown : ∀ x ∈ stage.connection?, known x) (hshut : ∀ x ∈ stage.shut?, s.isOpen x = false)
    (hlooking : ∀ x span isOpen, stage ≠ .looking x span isOpen)
    (hfailing : ∀ x, stage ≠ .failing x) : Sound idOf known (s.move t stage) :=
  h.move hknown (fun _ _ hu => hu) (fun x span isOpen hx => absurd hx (hlooking x span isOpen))
    hshut (fun x hx => absurd hx (hfailing x)) fun _ hx => .inl hx

section DistinctIds

variable (h : Sound idOf known s) (hids : ∀ x y, known x → known y → idOf x = idOf y → x = y)

include h hids

/-- The channel of a closed connection is taken out. -/
theorem erase {table : ChannelTable} {y : ConnectionRef} (hy : known y)
    (hclosed : s.isOpen y = false) (htable : table.channels = s.table.channels.erase (idOf y)) :
    Sound idOf known { s with table } := by
  refine h.change (fun _ hx => hx) (htable ▸ h.filed.erase _) (fun x hx => ?_)
    fun x channel hx hopen hkept => ?_
  · rw [htable, Std.ExtTreeMap.getElem?_erase, (h.lacks x hx).2.channels_eq, ite_self]
  · rw [htable, Std.ExtTreeMap.getElem?_erase, if_neg, hkept]
    intro heq
    obtain rfl := hids y x hy hx (Std.LawfulEqCmp.compare_eq_iff_eq.mp heq)
    cases hopen.symm.trans hclosed

private theorem forget {x : ConnectionRef} (hx : known x) (hclosed : s.isOpen x = false) :
    Sound idOf known (s.forget (idOf x)) := h.erase hids hx hclosed rfl

/-- A channel is added for a connection that was not let go of and has none. -/
theorem insert {table : ChannelTable} {x : ConnectionRef} {channel : Channel} (hx : known x)
    (hstays : ¬ s.IsLetGo x) (hnone : s.table.channels[idOf x]? = none)
    (hconnection : channel.connection = x)
    (htable : table.channels = s.table.channels.insert (idOf x) channel) :
    Sound idOf known { s with table } := by
  refine h.change (fun _ hy => hy) (htable ▸ h.filed.insert hx hconnection) (fun y hy => ?_)
    fun y other _ _ hkept => ?_
  · obtain ⟨hknown, hlacked⟩ := h.lacks y hy
    rw [htable, Std.ExtTreeMap.getElem?_insert, if_neg, hlacked.channels_eq]
    intro heq
    obtain rfl := hids x y hx hknown (Std.LawfulEqCmp.compare_eq_iff_eq.mp heq)
    exact hstays hy
  · rw [htable, Std.ExtTreeMap.getElem?_insert, if_neg, hkept]
    intro heq
    rw [← Std.LawfulEqCmp.compare_eq_iff_eq.mp heq, hnone] at hkept
    cases hkept

/-- The channel of a connection is found, added or taken out by whoever looks into the table, and
returned. -/
theorem getOrAdd {t : ThreadId} {x : ConnectionRef} {span : Duration} {isOpen : Bool}
    (ht : s.stage t = .looking x span isOpen) :
    let (channel, table) := s.table.getOrAdd (idOf x) x isOpen span
    Sound idOf known { s with table, given := (x, channel) :: s.given } := by
  have hx : known x := h.known_of_stage t x (by rw [ht]; rfl)
  generalize hresult : s.table.getOrAdd (idOf x) x isOpen span = result
  obtain ⟨channel, table⟩ := result
  rcases ChannelTable.getOrAdd_cases hresult with
    ⟨rfl, hfound, htable⟩ | ⟨rfl, hnone, hconnection, htable⟩ | ⟨rfl, hconnection, htable⟩
  · have hfiled := h.filed _ _ hfound
    have htable' : Sound idOf known { s with table } :=
      h.change (fun _ hy => hy) (htable ▸ h.filed)
        (fun y hy => htable ▸ (h.lacks y hy).2.channels_eq) fun _ _ _ _ hkept => htable ▸ hkept
    exact htable'.give ⟨hx, hids _ _ hfiled.1 hx hfiled.2, fun _ => htable ▸ hfound⟩
  · -- One with the lock saw the connection open, so that it was not let go of.
    have hstays : ¬ s.IsLetGo x := fun hgone => (h.lacks x hgone).2.not_looking t span ht
    refine (h.insert hids hx hstays hnone hconnection htable).give ⟨hx, hconnection, fun _ => ?_⟩
    exact htable ▸ Std.ExtTreeMap.getElem?_insert_self
  · have hclosed : s.isOpen x = false := h.isOpen_eq t x (by rw [ht]; rfl)
    refine (h.erase hids hx hclosed htable).give ⟨hx, hconnection, fun hopen => ?_⟩
    cases hclosed.symm.trans hopen

/-- Every step of a thread leads from a sound scene to a sound one. -/
theorem next (t : ThreadId) : Sound idOf known (s.next idOf t) := by
  have hknown := h.known_of_stage t
  have hshut := h.isOpen_eq t
  unfold Scene.next
  split
  · next x span ht =>
    rw [ht] at hknown
    split
    · exact h.goOn hknown nofun nofun nofun
    · exact h.goOn nofun nofun nofun nofun
  · next x span ht =>
    rw [ht] at hknown
    split
    · next hfree =>
      refine h.move hknown (fun u _ hu => ?_) (fun y w isOpen heq => ?_) (fun y hy => ?_) nofun
        fun y hy => .inl hy
      · cases hfree.symm.trans hu
      · cases heq
        exact ⟨rfl, id⟩
      · cases hopen : s.isOpen x with
        | false =>
          rw [hopen] at hy
          exact Option.some.inj hy ▸ hopen
        | true =>
          rw [hopen] at hy
          cases hy
    · exact h
  · next x span isOpen ht =>
    refine (h.getOrAdd hids ht).move nofun (fun u hne hu => ?_) nofun nofun nofun
      fun y hy => .inl hy
    cases (h.turn_eq t x span isOpen ht).symm.trans hu
    exact absurd rfl hne
  · next x ht =>
    rw [ht] at hknown
    exact (h.shut x).goOn hknown nofun nofun nofun
  · next x ht =>
    rw [ht] at hknown
    split
    · next hclosed =>
      refine h.goOn hknown (fun y hy => ?_) nofun nofun
      obtain rfl := Option.some.inj hy
      simp only [Bool.and_eq_true, Bool.not_eq_true'] at hclosed
      exact hclosed.2
    · exact h.goOn nofun nofun nofun nofun
  · next x ht =>
    rw [ht] at hknown hshut
    split
    · exact (h.forget hids (hknown x rfl) (hshut x rfl)).goOn nofun nofun nofun nofun
    · exact h
  · next x ht =>
    rw [ht] at hknown
    refine (h.shut x).goOn hknown (fun y hy => ?_) nofun nofun
    obtain rfl := Option.some.inj hy
    exact Function.update_self ..
  · next x ht =>
    rw [ht] at hknown hshut
    split
    · next hfree =>
      -- Nobody has the lock, so nobody is about to add a channel of the connection.
      have hforgot := h.forget hids (hknown x rfl) (hshut x rfl)
      refine hforgot.move hknown (fun _ _ hu => hu) nofun nofun (fun y heq => ?_)
        fun _ hy => .inl hy
      cases heq
      refine ⟨hshut x rfl, Std.ExtTreeMap.getElem?_erase_self, fun u span hu => ?_⟩
      cases hfree.symm.trans (h.turn_eq u x span true hu)
    · exact h
  · next x ht =>
    refine h.move nofun (fun _ _ hu => hu) nofun nofun nofun fun y hy => ?_
    rcases List.mem_cons.mp hy with rfl | hy
    · exact .inr ⟨t, ht⟩
    · exact .inl hy
  · exact h

/-- Every act leads from a sound scene to a sound one. -/
theorem after {act : Act} (hasked : ∀ x ∈ act.asked?, known x) :
    Sound idOf known (s.after idOf act) := by
  cases act with
  | begin t errand =>
    simp only [Scene.after]
    split
    · refine h.goOn (fun x hx => hasked x ?_) (fun x hx => ?_) (fun x span isOpen hx => ?_)
        fun x hx => ?_
      · cases errand <;> exact hx
      all_goals cases errand <;> cases hx
    · exact h
  | go t => exact h.next hids t
  | shut x => exact h.shut x
  | part =>
    exact h.change (fun _ hy => hy) h.filed (fun y hy => (h.lacks y hy).2.channels_eq)
      fun _ _ _ _ hkept => hkept

/-- Every run of errands about known connections leads from a sound scene to a sound one. -/
theorem run {acts : List Act} (hasked : ∀ x ∈ asked acts, known x) :
    Sound idOf known (s.run idOf acts) := by
  induction acts generalizing s with
  | nil => exact h
  | cons act rest ih =>
    refine ih (h.after hids fun x hx => hasked x ?_) fun x hx => hasked x ?_
    · exact List.mem_filterMap.mpr ⟨act, List.mem_cons_self, hx⟩
    · obtain ⟨other, hother, hx⟩ := List.mem_filterMap.mp hx
      exact List.mem_filterMap.mpr ⟨other, List.mem_cons_of_mem _ hother, hx⟩

end DistinctIds

end Sound

variable {s : Scene}

/-- What was let go of to the end remains so. -/
theorem mem_released_after {x : ConnectionRef} (h : x ∈ s.released) (act : Act) :
    x ∈ (s.after idOf act).released := by
  cases act with
  | begin t errand =>
    simp only [after]
    split <;> exact h
  | go t =>
    simp only [after, next]
    repeat' split
    all_goals first | exact h | exact List.mem_cons_of_mem _ h
  | shut x | part => exact h

private theorem mem_released_run {x : ConnectionRef} (h : x ∈ s.released) (acts : List Act) :
    x ∈ (s.run idOf acts).released := by
  induction acts generalizing s with
  | nil => exact h
  | cons act rest ih => exact ih (mem_released_after h act)

/-- Among any threads that get channels, close them and let go of connections, while connections
close at any time: a table holds one channel for an id; whoever asks for the channel of a connection
is given one of that connection, and the one that is kept as long as the connection is open; and
once a connection was let go of, nothing is ever kept for its id. -/
theorem channels_single_own_until_release (idOf : ConnectionRef → ConnectionId)
    (isOpen : ConnectionRef → Bool) (before later : List Act)
    (hids : ∀ x ∈ asked (before ++ later), ∀ y ∈ asked (before ++ later),
      idOf x = idOf y → x = y) :
    let s := ofActs idOf isOpen before
    let s' := s.run idOf later
    (∀ e ∈ s'.table.channels.toList, ∀ e' ∈ s'.table.channels.toList,
      idOf e.2.connection = idOf e'.2.connection → e = e') ∧
      (∀ x channel, (x, channel) ∈ s'.given → channel.connection = x ∧
        (s'.isOpen x = true → s'.table.channels[idOf x]? = some channel)) ∧
        ∀ x ∈ s.released, idOf x ∉ s'.table.channels := by
  intro s s'
  have hrun : s' = ofActs idOf isOpen (before ++ later) := List.foldl_append.symm
  have hsound : Sound idOf (· ∈ asked (before ++ later)) s' := by
    rw [hrun]
    exact (sound_empty isOpen).run (fun x y hx hy => hids x hx y hy) fun _ hx => hx
  refine ⟨fun e he e' he' hid => ?_, fun x channel hx => ?_, fun x hx => ?_⟩
  · have hfound := Std.ExtTreeMap.mem_toList_iff_getElem?_eq_some.mp he
    have hfound' := Std.ExtTreeMap.mem_toList_iff_getElem?_eq_some.mp he'
    have hkey : e.1 = e'.1 :=
      (hsound.filed _ _ hfound).2.symm.trans (hid.trans (hsound.filed _ _ hfound').2)
    rw [hkey, hfound'] at hfound
    exact Prod.ext hkey (Option.some.inj hfound).symm
  · exact ⟨(hsound.keeps x channel hx).connection_eq, (hsound.keeps x channel hx).kept⟩
  · have hnone := (hsound.lacks x (.inl (mem_released_run hx later))).2.channels_eq
    rw [Std.ExtTreeMap.mem_iff_isSome_getElem?, hnone]
    exact Bool.false_ne_true

/-- A connection closes while its channel is being added: it is let go of by another thread, which
takes the channel out once it has the lock. Whoever asks again is given a channel that is not kept,
and the channel of another connection is. -/
theorem channels_forgotten_of_overlap :
    let before : List Act :=
      [.begin 0 (.getOrAdd 7 .zero), .go 0, .begin 1 (.release 7), .go 1, .go 1, .go 0, .go 1,
        .go 1]
    let later := Act.whole 2 (.getOrAdd 7 .zero) ++ Act.whole 2 (.getChannel 8 .zero)
    let s := ofActs id (fun _ => true) before
    let s' := s.run id later
    (∀ x ∈ asked (before ++ later), ∀ y ∈ asked (before ++ later), id x = id y → x = y) ∧
      (ofActs id (fun _ => true) (before.take 6)).table.channels.toList = [(7, ⟨0, 7, .zero⟩)] ∧
        s.released = [7] ∧
        s'.given = [(8, ⟨2, 8, .zero⟩), (7, ⟨1, 7, .zero⟩), (7, ⟨0, 7, .zero⟩)] ∧
        s'.table.channels.toList = [(8, ⟨2, 8, .zero⟩)] ∧
          (∀ e ∈ s'.table.channels.toList, ∀ e' ∈ s'.table.channels.toList,
            id e.2.connection = id e'.2.connection → e = e') ∧
            (∀ x channel, (x, channel) ∈ s'.given → channel.connection = x ∧
              (s'.isOpen x = true → s'.table.channels[id x]? = some channel)) ∧
              ∀ x ∈ s.released, id x ∉ s'.table.channels :=
  ⟨fun _ _ _ _ h => h, by decide +kernel, by decide +kernel, by decide +kernel, by decide +kernel,
    channels_single_own_until_release id (fun _ => true) _ _ fun _ _ _ _ h => h⟩

end Scene

end Switchboard.Channels
