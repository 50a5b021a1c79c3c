import Mathlib.Data.List.Induction
import Switchboard.Proofs.Client.Custody

/-!
# What becomes of a client's connections

Every connection that the transport handed over and that is open is the client's, or is in the
hands of a thread that has yet to put it there or to close it. So once all threads are done, it is
the client's.

A client that was closed may have one nevertheless. A connect looks at the mark once more before it
puts its connection there, and the call that closes the client takes the connection away once, after
it has set the mark. A connect that came past its last look before that, and puts its connection
there after it, leaves a closed client connected. This is the only way.
-/

namespace Switchboard

namespace Custody

/-- After what it is about, a thread has no connection in its hands. -/
theorem Next.held?_stage (next : Next) : next.stage.held? = none := by cases next <;> rfl

/-- A thread that is about to put a connection into its place has it in its hands. -/
theorem Stage.ne_cleared_of_held? {stage : Stage} (h : stage.held? = none) (x : ConnectionRef)
    (next : Next) : stage ≠ .cleared x next := by
  rintro rfl
  cases h

namespace Scene

/-- Whether a thread is about to put a connection into its place: it has seen for the last time
that the client is not closed. -/
def IsPlacing (s : Scene) (x : ConnectionRef) : Prop := ∃ t next, s.stage t = .cleared x next

variable {s : Scene} {t : ThreadId}

/-! ### What an act does -/

/-- What one act does to a scene. -/
inductive Effect (s : Scene) : Scene → Prop where
  /-- Nothing. -/
  | stay : Effect s s
  /-- Work that is none of the client's. -/
  | work {board : Board} (hspares : Board.Spares s.client s.board board) :
      Effect s { s with board }
  /-- A thread goes on with the same in its hands. It does not come to put that into its place if
  the client is closed. -/
  | goOn {t : ThreadId} {stage : Stage} {board : Board} (turn : Option ThreadId)
      (hspares : Board.Spares s.client s.board board)
      (hheld : stage.held? = (s.stage t).held?)
      (hcleared : ∀ x next, stage = .cleared x next → s.isClosed = false) :
      Effect s { s.move t stage with board, turn }
  /-- A thread lets go of what it has in its hands, which is closed then. -/
  | letGo {t : ThreadId} {stage : Stage} {board : Board} {x : ConnectionRef}
      (hspares : Board.Spares s.client s.board board)
      (hheld : (s.stage t).held? = some x) (hnone : stage.held? = none)
      (hclosed : s.board.isWired x = true → board.isOpen x = false) :
      Effect s { s.move t stage with board }
  /-- The transport hands a thread a connection. -/
  | obtain {t : ThreadId} {x : ConnectionRef} {next : Next} (hnone : (s.stage t).held? = none)
      (hwired : s.board.isWired x = true) :
      Effect s { s.move t (.handed x next) with obtained := x :: s.obtained }
  /-- A thread puts what it has in its hands into the client's place and takes what was there. -/
  | swap {t : ThreadId} {stage : Stage} {new : Option ConnectionRef}
      (hnew : (s.stage t).held? = new) (hplacing : ∀ x, new = some x → s.IsPlacing x)
      (hstage : stage.held? = s.connection) (hcleared : ∀ x next, stage ≠ .cleared x next) :
      Effect s { s.move t stage with board := (s.board.replaceConnection s.client new).2 }
  /-- A thread marks the client as closed. The first that does so goes on to take the connection
  away. -/
  | mark {t : ThreadId} (hmarking : s.stage t = .marking) :
      Effect s { s.move t (if s.isClosed then .idle else .taking .drain) with
        board := s.board.onClient s.client fun client => { client with isClosed := true } }

namespace Effect

/-- A thread goes on with nothing in its hands. -/
theorem idly {stage : Stage} {board : Board} (turn : Option ThreadId)
    (hspares : Board.Spares s.client s.board board) (hbefore : (s.stage t).held? = none)
    (hnone : stage.held? = none) : Effect s { s.move t stage with board, turn } :=
  goOn turn hspares (hnone.trans hbefore.symm)
    fun x next hstage => absurd hstage (Stage.ne_cleared_of_held? hnone x next)

/-- A thread closes what it has in its hands. -/
theorem shut {stage : Stage} {x : ConnectionRef} (hheld : (s.stage t).held? = some x)
    (hnone : stage.held? = none) :
    Effect s { s.move t stage with board := s.board.close x } :=
  letGo (.close ..) hheld hnone Board.isOpen_close

/-- What the next step of a thread does. -/
theorem next (s : Scene) (t : ThreadId) : s.Effect (s.next t) := by
  have hsame : ∀ {stage : Stage} {turn : Option ThreadId}, (s.stage t).held? = none →
      stage.held? = none → Effect s { s.move t stage with turn } :=
    fun hbefore hnone => idly _ (.refl ..) hbefore hnone
  unfold Scene.next
  cases hstage : s.stage t with
  | idle | dialing | resting => exact stay
  | waiting next =>
    dsimp only
    split
    · exact hsame (by rw [hstage]; rfl) rfl
    · exact stay
  | entered next | unmarked next | pondering =>
    exact hsame (by rw [hstage]; rfl) (by split <;> rfl)
  | handed x next =>
    dsimp only
    split
    · exact goOn _ (.refl ..) (by rw [hstage]; rfl) (by rintro _ _ ⟨⟩)
    · next hclosed =>
      exact letGo (.refl ..) (by rw [hstage]; rfl) rfl fun _ => by simpa using hclosed
  | live x next =>
    dsimp only
    split
    · exact goOn _ (.refl ..) (by rw [hstage]; rfl) (by rintro _ _ ⟨⟩)
    · next hopen =>
      exact goOn _ (.refl ..) (by rw [hstage]; rfl) fun _ _ _ => by simpa using hopen
  | cleared x next =>
    have hplacing : s.IsPlacing x := ⟨t, next, hstage⟩
    refine swap (by rw [hstage]; rfl) (fun y hy => Option.some.inj hy ▸ hplacing) ?_ ?_
    · change _ = (s.board.client s.client).connection
      cases (s.board.client s.client).connection <;> rfl
    · cases (s.board.client s.client).connection <;> rintro _ _ ⟨⟩
  | spurned x next | shutting x next => exact shut (by rw [hstage]; rfl) rfl
  | leaving next => exact hsame (by rw [hstage]; rfl) next.held?_stage
  | taking next =>
    refine swap (by rw [hstage]; rfl) (by rintro _ ⟨⟩) ?_ ?_
    · change _ = (s.board.client s.client).connection
      cases (s.board.client s.client).connection with
      | none => exact next.held?_stage
      | some y => rfl
    · cases (s.board.client s.client).connection with
      | none => exact Stage.ne_cleared_of_held? next.held?_stage
      | some y => rintro _ _ ⟨⟩
  | forgetting x next =>
    exact idly _ (.of_clients_eq rfl (.of_eq rfl rfl)) (by rw [hstage]; rfl) rfl
  | failing x next => exact idly _ (.changeExchange ..) (by rw [hstage]; rfl) next.held?_stage
  | marking => exact mark hstage
  | draining => exact idly _ (.changeExchange ..) (by rw [hstage]; rfl) rfl

/-- What an act does. -/
theorem after (s : Scene) (act : Act) : s.Effect (s.after act) := by
  have hsame : ∀ {t : ThreadId} {stage : Stage} (turn : Option ThreadId),
      (s.stage t).held? = none → stage.held? = none → Effect s { s.move t stage with turn } :=
    fun turn hbefore hnone => idly turn (.refl ..) hbefore hnone
  cases act with
  | go t => exact next s t
  | begin t errand =>
    simp only [Scene.after]
    split
    · next hidle => exact hsame s.turn (by rw [hidle]; rfl) (by cases errand <;> rfl)
    · exact stay
  | answer t x =>
    simp only [Scene.after]
    split
    · next hdialing => exact hsame s.turn (by rw [hdialing]; rfl) rfl
    · next hdialing =>
      split
      · next hwired => exact obtain (by rw [hdialing]; rfl) hwired
      · exact stay
    · exact stay
  | wake t again =>
    simp only [Scene.after]
    split
    · next hresting => exact hsame s.turn (by rw [hresting]; rfl) (by cases again <;> rfl)
    · exact stay
  | abandon t =>
    simp only [Scene.after]
    split
    · next hwaiting => exact hsame s.turn (by rw [hwaiting]; rfl) rfl
    · next hresting => exact hsame s.turn (by rw [hresting]; rfl) rfl
    · next hdialing => exact hsame none (by rw [hdialing]; rfl) rfl
    · exact stay
  | work board =>
    simp only [Scene.after]
    split
    · next hspares => exact work hspares
    · exact stay

end Effect

/-! ### Open connections are in somebody's hands -/

/-- What holds between any two acts. -/
structure Sound (s : Scene) : Prop where
  /-- The client is on the board. -/
  client_lt : s.client < s.board.clients.size
  /-- What the transport has handed over can be closed. -/
  wired : ∀ x ∈ s.obtained, s.board.isWired x = true
  /-- Threads have nothing else in their hands. -/
  held_mem : ∀ t x, (s.stage t).held? = some x → x ∈ s.obtained
  /-- The client has no other connection. -/
  connection_mem : ∀ x, s.connection = some x → x ∈ s.obtained
  /-- An open connection is the client's or in the hands of a thread. -/
  kept : ∀ x ∈ s.obtained, s.board.isOpen x = true →
    s.connection = some x ∨ ∃ t, (s.stage t).held? = some x

namespace Sound

/-- A thread goes on with no other connection in its hands. The one that it had is closed if it
has it no more. -/
theorem proceed (h : s.Sound) {board : Board} {stage : Stage} (turn : Option ThreadId)
    (hsize : s.board.clients.size ≤ board.clients.size)
    (hconnection : (board.client s.client).connection = s.connection)
    (hkeeps : s.board.KeepsClosed board)
    (hheld : ∀ x, stage.held? = some x → (s.stage t).held? = some x)
    (hlet : ∀ x ∈ s.obtained, (s.stage t).held? = some x →
      stage.held? = some x ∨ board.isOpen x = false) :
    Sound { s.move t stage with board, turn } where
  client_lt := Nat.lt_of_lt_of_le h.client_lt hsize
  wired x hx := hkeeps.isWired (h.wired x hx)
  held_mem u x hx := by
    by_cases hu : u = t
    · subst hu
      exact h.held_mem u x (hheld x (by simpa [move] using hx))
    · exact h.held_mem u x (by simpa [move, hu] using hx)
  connection_mem x hx := h.connection_mem x (hconnection.symm.trans hx)
  kept x hx hopen := by
    obtain hconn | ⟨u, hu⟩ := h.kept x hx (hkeeps.isOpen (h.wired x hx) hopen)
    · exact .inl (hconnection.trans hconn)
    · by_cases hut : u = t
      · subst hut
        obtain hstill | hclosed := hlet x hx hu
        · exact .inr ⟨u, by simpa [move] using hstill⟩
        · cases hclosed.symm.trans hopen
      · exact .inr ⟨u, by simpa [move, hut] using hu⟩

/-- A thread puts what it has in its hands into the client's place and takes what was there. -/
theorem swap (h : s.Sound) {new : Option ConnectionRef} {stage : Stage}
    (hnew : (s.stage t).held? = new) (hstage : stage.held? = s.connection) :
    Sound { s.move t stage with board := (s.board.replaceConnection s.client new).2 } where
  client_lt := by simpa [move, Board.replaceConnection, Board.onClient] using h.client_lt
  wired x hx := (Board.KeepsClosed.of_eq rfl rfl).isWired (h.wired x hx)
  held_mem u x hx := by
    by_cases hu : u = t
    · subst hu
      exact h.connection_mem x (hstage.symm.trans (by simpa [move] using hx))
    · exact h.held_mem u x (by simpa [move, hu] using hx)
  connection_mem x hx := by
    have hconnection : new = some x := by
      simpa [move, connection, Board.replaceConnection, Board.client_onClient h.client_lt]
        using hx
    exact h.held_mem t x (hnew.trans hconnection)
  kept x hx hopen := by
    have hconnection : Scene.connection { s.move t stage with
        board := (s.board.replaceConnection s.client new).2 } = new := by
      simp [move, connection, Board.replaceConnection, Board.client_onClient h.client_lt]
    have hbefore : s.board.isOpen x = true :=
      (Board.KeepsClosed.of_eq rfl rfl).isOpen (h.wired x hx) hopen
    obtain hconn | ⟨u, hu⟩ := h.kept x hx hbefore
    · exact .inr ⟨t, by simpa [move] using hstage.trans hconn⟩
    · by_cases hut : u = t
      · subst hut
        exact .inl (hconnection.trans (hnew.symm.trans hu))
      · exact .inr ⟨u, by simpa [move, hut] using hu⟩

/-- The transport hands a thread a connection. -/
theorem obtain (h : s.Sound) {next : Next} {x : ConnectionRef} (hnone : (s.stage t).held? = none)
    (hwired : s.board.isWired x = true) :
    Sound { s.move t (.handed x next) with obtained := x :: s.obtained } where
  client_lt := h.client_lt
  wired y hy := by
    obtain rfl | hy := List.mem_cons.mp hy
    · exact hwired
    · exact h.wired y hy
  held_mem u y hy := by
    by_cases hu : u = t
    · subst hu
      obtain rfl : x = y := by simpa [move, Stage.held?] using hy
      exact List.mem_cons_self
    · exact List.mem_cons_of_mem _ (h.held_mem u y (by simpa [move, hu] using hy))
  connection_mem y hy := List.mem_cons_of_mem _ (h.connection_mem y hy)
  kept y hy hopen := by
    obtain rfl | hy := List.mem_cons.mp hy
    · exact .inr ⟨t, by simp [move, Stage.held?]⟩
    · obtain hconn | ⟨u, hu⟩ := h.kept y hy hopen
      · exact .inl hconn
      · have hut : u ≠ t := by
          rintro rfl
          cases hnone.symm.trans hu
        exact .inr ⟨u, by simpa [move, hut] using hu⟩

/-- Whatever an act does. -/
theorem step {s' : Scene} (h : s.Sound) (hstep : s.Effect s') : s'.Sound := by
  cases hstep with
  | stay => exact h
  | @work board hspares =>
    obtain ⟨hsize, hconnection, -, hkeeps⟩ := hspares
    -- no thread moves: any one of them comes to where it is
    have hstay : s.move 0 (s.stage 0) = s := by simp [move]
    have hsound := h.proceed (t := 0) s.turn hsize hconnection hkeeps (fun _ hx => hx)
      fun _ _ hx => .inl hx
    rwa [hstay] at hsound
  | goOn turn hspares hheld _ =>
    obtain ⟨hsize, hconnection, -, hkeeps⟩ := hspares
    exact h.proceed turn hsize hconnection hkeeps (fun x hx => hheld.symm.trans hx)
      fun x _ hx => .inl (hheld.trans hx)
  | @letGo t stage board x hspares hheld hnone hclosed =>
    obtain ⟨hsize, hconnection, -, hkeeps⟩ := hspares
    refine h.proceed _ hsize hconnection hkeeps (fun y hy => by cases hnone.symm.trans hy)
      fun y hmem hy => .inr ?_
    obtain rfl : x = y := Option.some.inj (hheld.symm.trans hy)
    exact hclosed (h.wired x hmem)
  | obtain hnone hwired => exact h.obtain hnone hwired
  | swap hnew _ hstage _ => exact h.swap hnew hstage
  | mark hmarking =>
    refine h.proceed _ ?_ ?_ (.of_eq rfl rfl) ?_ ?_
    · simp [Board.onClient]
    · rw [Board.client_onClient h.client_lt]
      rfl
    · split <;> rintro _ ⟨⟩
    · rw [hmarking]
      rintro _ _ ⟨⟩

/-- Any run of acts. -/
theorem run (h : s.Sound) (acts : List Act) : (s.run acts).Sound := by
  induction acts generalizing s with
  | nil => exact h
  | cons act rest ih => exact ih (h.step (.after s act))

/-- A new client. -/
theorem ofActs (b : Board) (address : Address) (settings : ClientSettings) (channels : Nat)
    (acts : List Act) : (ofActs b address settings channels acts).Sound := by
  refine run ⟨?_, ?_, ?_, ?_, ?_⟩ acts
  · simp [Board.addClient]
  · exact fun x hx => absurd hx List.not_mem_nil
  · simp [Stage.held?]
  · simp [connection, Board.addClient, Board.client]
  · exact fun x hx => absurd hx List.not_mem_nil

end Sound

/-- What the transport has handed over once remains so. -/
theorem Effect.mem_obtained {s' : Scene} {x : ConnectionRef} (hstep : s.Effect s')
    (h : x ∈ s.obtained) : x ∈ s'.obtained := by
  cases hstep with
  | obtain => exact List.mem_cons_of_mem _ h
  | stay | work | goOn | letGo | swap | mark => exact h

private theorem mem_obtained_run {acts : List Act} {x : ConnectionRef} (h : x ∈ s.obtained) :
    x ∈ (s.run acts).obtained := by
  induction acts generalizing s with
  | nil => exact h
  | cons act rest ih => exact ih ((Effect.after s act).mem_obtained h)

/-! ### What a closed client is left with -/

/-- The client is marked as closed, and it has no connection and is given none but those of
`Left`. -/
structure Swept (Left : ConnectionRef → Prop) (s : Scene) : Prop where
  /-- The client is marked as closed. -/
  isClosed : s.isClosed = true
  /-- The client has no other connection. -/
  connection : ∀ x, s.connection = some x → Left x
  /-- No thread is about to put another one there. -/
  isPlacing : ∀ x, s.IsPlacing x → Left x

/-- A thread comes to a stage where it is not about to put anything into its place. -/
theorem isPlacing_of_isPlacing_move {stage : Stage} (hstage : ∀ x next, stage ≠ .cleared x next)
    {x : ConnectionRef} (h : (s.move t stage).IsPlacing x) : s.IsPlacing x := by
  obtain ⟨u, next, hu⟩ := h
  by_cases hut : u = t
  · subst hut
    exact absurd (by simpa [move] using hu) (hstage x next)
  · exact ⟨u, next, by simpa [move, hut] using hu⟩

namespace Swept

variable {Left : ConnectionRef → Prop}

/-- A thread goes on and spares the client. -/
theorem proceed (h : s.Swept Left) {board : Board} {stage : Stage} (turn : Option ThreadId)
    (hspares : Board.Spares s.client s.board board) (hcleared : ∀ x next, stage ≠ .cleared x next) :
    Swept Left { s.move t stage with board, turn } := by
  obtain ⟨-, hconnection, hclosed, -⟩ := hspares
  exact ⟨hclosed.trans h.isClosed, fun x hx => h.connection x (hconnection.symm.trans hx),
    fun x hx => h.isPlacing x (isPlacing_of_isPlacing_move hcleared hx)⟩

/-- Whatever an act does. -/
theorem step {s' : Scene} (h : s.Swept Left) (hsound : s.Sound) (hstep : s.Effect s') :
    s'.Swept Left := by
  cases hstep with
  | stay => exact h
  | work hspares =>
    obtain ⟨-, hconnection, hclosed, -⟩ := hspares
    exact ⟨hclosed.trans h.isClosed, fun x hx => h.connection x (hconnection.symm.trans hx),
      h.isPlacing⟩
  | goOn turn hspares _ hcleared =>
    exact h.proceed turn hspares fun x next hstage =>
      absurd h.isClosed (Bool.eq_false_iff.mp (hcleared x next hstage))
  | letGo hspares _ hnone _ => exact h.proceed _ hspares (Stage.ne_cleared_of_held? hnone)
  | obtain _ _ =>
    refine ⟨h.isClosed, h.connection, fun x hx =>
      h.isPlacing x (isPlacing_of_isPlacing_move ?_ hx)⟩
    rintro _ _ ⟨⟩
  | swap _ hplacing _ hcleared =>
    refine ⟨(Board.isClosed_replaceConnection ..).trans h.isClosed, fun x hx => ?_, fun x hx =>
      h.isPlacing x (isPlacing_of_isPlacing_move hcleared hx)⟩
    refine h.isPlacing x (hplacing x ?_)
    simpa [move, Scene.connection, Board.replaceConnection,
      Board.client_onClient hsound.client_lt] using hx
  | mark _ =>
    have hmark := Board.client_onClient hsound.client_lt
      fun client => { client with isClosed := true }
    refine ⟨congrArg Client.isClosed hmark, fun x hx => ?_, fun x hx => ?_⟩
    · exact h.connection x ((congrArg Client.connection hmark).symm.trans hx)
    · refine h.isPlacing x (isPlacing_of_isPlacing_move ?_ hx)
      split <;> rintro _ _ ⟨⟩

/-- Any run of acts. -/
theorem run (h : s.Swept Left) (hsound : s.Sound) (acts : List Act) :
    (s.run acts).Swept Left := by
  induction acts generalizing s with
  | nil => exact h
  | cons act rest ih => exact ih (h.step hsound (.after s act)) (hsound.step (.after s act))

end Swept

/-- A closing thread takes the client's connection away. -/
theorem swept_next (hsound : s.Sound) (hclosed : s.isClosed = true) {next : Next}
    (htaking : s.stage t = .taking next) : (s.next t).Swept s.IsPlacing := by
  have hnone : ∀ stage, (∀ x next, stage ≠ .cleared x next) →
      Swept s.IsPlacing
        { s.move t stage with board := (s.board.replaceConnection s.client none).2 } := by
    intro stage hstage
    refine ⟨(Board.isClosed_replaceConnection ..).trans hclosed, fun x hx => ?_,
      fun x hx => isPlacing_of_isPlacing_move hstage hx⟩
    simp [move, Scene.connection, Board.replaceConnection,
      Board.client_onClient hsound.client_lt] at hx
  unfold Scene.next
  rw [htaking]
  refine hnone _ ?_
  cases (s.board.client s.client).connection with
  | none => exact Stage.ne_cleared_of_held? next.held?_stage
  | some y => rintro _ _ ⟨⟩

/-- A client that becomes closed is about to lose its connection. -/
theorem exists_taking {s' : Scene} (hstep : s.Effect s') (hopen : s.isClosed = false)
    (hclosed : s'.isClosed = true) : ∃ t, s'.stage t = .taking .drain := by
  cases hstep with
  | @mark t hmarking => exact ⟨t, by simp [move, hopen]⟩
  | stay | obtain => cases hclosed.symm.trans hopen
  | work hspares | goOn _ hspares | letGo hspares =>
    cases (hspares.2.2.1.symm.trans hclosed).symm.trans hopen
  | swap =>
    cases ((Board.isClosed_replaceConnection ..).symm.trans hclosed).symm.trans hopen

/-- A thread that is about to take the connection away does so when it goes on. -/
theorem stage_after_of_taking {act : Act} {next : Next} (h : s.stage t = .taking next)
    (hact : act ≠ .go t) : (s.after act).stage t = .taking next := by
  by_cases hthread : act.thread? = some t
  · cases act with
    | go u => exact absurd (congrArg Act.go (Option.some.inj hthread)) hact
    | work board => cases hthread
    | begin u errand | answer u x | wake u again | abandon u =>
      obtain rfl : u = t := Option.some.inj hthread
      simp [after, h]
  · rw [stage_after_of_ne hthread, h]

section Runs

variable (b : Board) (address : Address) (settings : ClientSettings) (channels : Nat)

private theorem ofActs_append (before later : List Act) :
    ofActs b address settings channels (before ++ later) =
      (ofActs b address settings channels before).run later :=
  List.foldl_append

/-- A thread has closed the client and is about to take its connection away, or it has done so. -/
theorem exists_sweep {acts : List Act}
    (hclosed : (ofActs b address settings channels acts).isClosed = true) :
    (∃ t, (ofActs b address settings channels acts).stage t = .taking .drain) ∨
      ∃ before t later, acts = before ++ .go t :: later ∧
        (ofActs b address settings channels before).isClosed = true ∧
        (ofActs b address settings channels before).stage t = .taking .drain := by
  -- the client became closed in the last act, or it was closed before and a thread that was about
  -- to take the connection away still is, unless the last act was that step of it
  induction acts using List.reverseRecOn with
  | nil => simp [ofActs, Scene.run, isClosed, Board.client, Board.addClient] at hclosed
  | append_singleton acts act ih =>
    rw [ofActs_append] at hclosed ⊢
    change ((ofActs b address settings channels acts).after act).isClosed = true at hclosed
    change (∃ t, ((ofActs b address settings channels acts).after act).stage t = _) ∨ _
    cases hbefore : (ofActs b address settings channels acts).isClosed with
    | false => exact .inl (exists_taking (.after _ act) hbefore hclosed)
    | true =>
      obtain ⟨t, ht⟩ | ⟨before, t, later, rfl, hsweep⟩ := ih hbefore
      · by_cases hact : act = .go t
        · exact .inr ⟨acts, t, [], by rw [hact], hbefore, ht⟩
        · exact .inl ⟨t, stage_after_of_taking ht hact⟩
      · exact .inr ⟨before, t, later ++ [act], by simp, hsweep⟩

variable {b address settings channels}

/-- Once all threads are done, every open connection that the transport handed over is the
client's. A closed client has one if and only if it was about to be put into its place when a
closing thread took away what was there: that was too late for the thread that connected to see the
mark, and too early for the one that closed to see the connection. -/
theorem connection_of_atRest {acts : List Act}
    (hrest : (ofActs b address settings channels acts).AtRest) :
    let s := ofActs b address settings channels acts
    (∀ x ∈ s.obtained, s.board.isOpen x = true → s.connection = some x) ∧
      (s.isClosed = true → ∃ before t later, acts = before ++ .go t :: later ∧
        let swept := ofActs b address settings channels before
        swept.isClosed = true ∧ swept.stage t = .taking .drain ∧
          ∀ x, s.connection = some x ∧ s.board.isOpen x = true ↔
            swept.IsPlacing x ∧ s.board.isOpen x = true) := by
  intro s
  have hsound : s.Sound := .ofActs b address settings channels acts
  have hkept : ∀ x ∈ s.obtained, s.board.isOpen x = true → s.connection = some x := by
    intro x hx hopen
    obtain hconnection | ⟨t, ht⟩ := hsound.kept x hx hopen
    · exact hconnection
    · rw [hrest t] at ht
      cases ht
  refine ⟨hkept, fun hclosed => ?_⟩
  obtain ⟨t, ht⟩ | ⟨before, t, later, rfl, hmarked, htaking⟩ := exists_sweep _ _ _ _ hclosed
  · cases (hrest t).symm.trans ht
  · refine ⟨before, t, later, rfl, hmarked, htaking, fun x => and_congr_left fun hopen => ?_⟩
    have hbefore := Sound.ofActs b address settings channels before
    have hlater : s = ((ofActs b address settings channels before).next t).run later :=
      ofActs_append ..
    constructor
    · intro hconnection
      have hswept := (swept_next hbefore hmarked htaking).run (hbefore.step (.next _ t)) later
      exact hswept.connection x (hlater ▸ hconnection)
    · rintro ⟨u, next, hu⟩
      have hmem := hbefore.held_mem u x (by rw [hu]; rfl)
      have hstill : x ∈ s.obtained := by
        rw [show s = (ofActs b address settings channels before).run (.go t :: later) from
          ofActs_append ..]
        exact mem_obtained_run hmem
      exact hkept x hstill hopen

/-- A thread that connects looks at the mark for the last time, then the client is closed, and then
the thread puts its connection into its place. -/
theorem connection_of_closed_while_connecting :
    let linked := ((Board.addClient {} {}).2.openLink {} (.exchange 0)).2
    let connecting : List Act := [.work linked, .begin 0 .connect, .go 0, .go 0, .go 0,
      .answer 0 (some 0), .go 0, .go 0]
    let closing : List Act := [.begin 1 .close, .go 1, .go 1, .go 1]
    let placing : List Act := [.go 0, .go 0]
    ∃ s, s = ofActs {} {} {} 0 (connecting ++ closing ++ placing) ∧ s.AtRest ∧
      s.isClosed = true ∧ s.connection = some 0 ∧ s.board.isOpen 0 = true ∧
      ∃ before t later, connecting ++ closing ++ placing = before ++ .go t :: later ∧
        (ofActs {} {} {} 0 before).stage t = .taking .drain ∧
          (ofActs {} {} {} 0 before).IsPlacing 0 := by
  intro linked connecting closing placing
  have hat := @connection_of_atRest {} {} {} 0 (connecting ++ closing ++ placing)
  obtain ⟨s, hs⟩ : ∃ s, s = ofActs {} {} {} 0 (connecting ++ closing ++ placing) := ⟨_, rfl⟩
  rw [← hs] at hat
  have hrest : s.AtRest := by
    rw [hs]
    exact atRest_run (fun _ => rfl)
      (by decide : ∀ act ∈ connecting ++ closing ++ placing, ∀ u ∈ act.thread?, u < 2)
      (by decide +kernel)
  have hclosed : s.isClosed = true := by
    rw [hs]
    decide +kernel
  have hmem : 0 ∈ s.obtained := by
    rw [hs]
    decide +kernel
  have hopen : s.board.isOpen 0 = true := by
    rw [hs]
    decide +kernel
  obtain ⟨hkept, hleft⟩ := hat hrest
  have hconnection : s.connection = some 0 := hkept 0 hmem hopen
  obtain ⟨before, t, later, hacts, -, htaking, hiff⟩ := hleft hclosed
  exact ⟨s, hs, hrest, hclosed, hconnection, hopen, before, t, later, hacts, htaking,
    ((hiff 0).mp ⟨hconnection, hopen⟩).1⟩

end Runs

end Scene

end Custody

end Switchboard
