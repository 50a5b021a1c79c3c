import Switchboard.Proofs.CommandTable
import Switchboard.Proofs.Exchange.Settlement

/-!
# Conversations

One exchange asks, a table of commands answers, and frames reach either side in any order. What a
handler comes to may differ from request to request, and handlers may come and go between them, so
every request is served by a table of its own. A reply brings the caller of its question what that
table made of the question, and nobody else hears of it.
-/

namespace Switchboard

/-- A question that was asked: the number and the promise of its request, and what was asked. -/
structure Question where
  /-- The number of the request. -/
  id : UInt64
  /-- The promise of the response. -/
  promise : PromiseId
  /-- The command. -/
  command : String
  /-- The encoded arguments. -/
  payload : Bytes

/-- The request of a question. -/
def Question.request (q : Question) : Envelope := .request q.id q.command q.payload

/-- An exchange among its callers, what it asked, the frames under way on both sides, and what was
served. -/
structure Conversation where
  /-- The exchange and its callers. -/
  scene : Exchange.Scene := {}
  /-- The questions, latest first. -/
  questions : List Question := []
  /-- The frames on their way to the table. -/
  requests : List Bytes := []
  /-- The frames on their way to the exchange. -/
  replies : List Bytes := []
  /-- The requests that were served, each with the table that served it, latest first. -/
  served : List (Bytes × CommandTable) := []

/-- Whether an act neither takes a request up nor receives a frame. -/
def Exchange.Act.isAside : Exchange.Act → Bool
  | .take | .received _ => false
  | _ => true

namespace Conversation

/-- The question that is asked next for a command with a payload. -/
def next (c : Conversation) (command : String) (payload : Bytes) : Question :=
  let (id, promise) := (c.scene.exchange.take c.scene.store).1
  { id, promise, command, payload }

/-- The requests that were served and those that are under way. -/
def frames (c : Conversation) : List Bytes := c.served.map Prod.fst ++ c.requests

/-- One step of a conversation. Whatever is under way may be next, or be lost. -/
inductive Step : Conversation → Conversation → Prop where
  /-- A question is asked. -/
  | ask (c : Conversation) (command : String) (payload : Bytes)
      (hfits : Frame.Fits (c.next command payload).request) :
      Step c { c with
        scene := c.scene.after .take
        questions := c.next command payload :: c.questions
        requests := Frame.encode (c.next command payload).request :: c.requests }
  /-- The exchange or a caller does something else. -/
  | act (c : Conversation) (a : Exchange.Act) (ha : a.isAside = true) :
      Step c { c with scene := c.scene.after a }
  /-- A request reaches a table, and the answer is under way. -/
  | serve (c : Conversation) (t : CommandTable) (frame : Bytes) (hm : frame ∈ c.requests)
      (hfits : ∀ request response, CommandTable.request? frame = some request →
        CommandTable.respond (t.handler? request.command) request = some response →
          Frame.Fits response) :
      Step c { c with
        requests := c.requests.erase frame
        replies := t.answers frame ++ c.replies
        served := (frame, t) :: c.served }
  /-- A reply reaches the exchange. -/
  | deliver (c : Conversation) (frame : Bytes) (hm : frame ∈ c.replies) :
      Step c { c with
        scene := c.scene.after (.received frame)
        replies := c.replies.erase frame }
  /-- A request is lost. -/
  | loseRequest (c : Conversation) (frame : Bytes) :
      Step c { c with requests := c.requests.erase frame }
  /-- A reply is lost. -/
  | loseReply (c : Conversation) (frame : Bytes) :
      Step c { c with replies := c.replies.erase frame }

/-- What a conversation can come to. -/
inductive Reachable : Conversation → Prop where
  /-- Nothing was asked yet. -/
  | start : Reachable {}
  /-- One step more. -/
  | step {c c' : Conversation} (h : Reachable c) (hs : Step c c') : Reachable c'

/-- What is under way belongs to questions that were asked, each under its own number, and no
request is served twice. -/
structure Sound (c : Conversation) : Prop where
  scene : c.scene.Sound
  length_questions : c.questions.length = c.scene.store.size
  numbered : ∀ q, q ∈ c.questions →
    q.promise < c.scene.store.size ∧ q.id = Exchange.number q.promise
  /-- No two questions share a promise. -/
  distinct : ∀ q q', q ∈ c.questions → q' ∈ c.questions → q.promise = q'.promise → q = q'
  frames : ∀ frame, frame ∈ c.frames → ∃ q, q ∈ c.questions ∧ Frame.Fits q.request ∧
    frame = Frame.encode q.request
  nodup_frames : c.frames.Nodup
  /-- A reply carries what the table that served its question came to. -/
  replies : ∀ frame, frame ∈ c.replies → ∃ q t outcome, q ∈ c.questions ∧
    (Frame.encode q.request, t) ∈ c.served ∧ t.outcome? q.command q.payload = some outcome ∧
    Frame.Fits (.responseTo q.request outcome) ∧
    frame = Frame.encode (.responseTo q.request outcome)

variable {c : Conversation}

/-- A conversation that did not begin yet is sound. -/
theorem sound_start : Sound {} := by
  constructor
  · exact Exchange.Scene.sound_empty
  all_goals simp [Promises.size, frames]

namespace Sound

/-- Acts that open no promise keep a conversation sound. -/
theorem act (h : Sound c) {a : Exchange.Act} (ha : a.isTake = false) :
    Sound { c with scene := c.scene.after a } := by
  have hopened := Exchange.Scene.length_opened_after c.scene a
  rw [ha] at hopened
  have hlt : (c.scene.after a).opened.length < 2 ^ 64 := by
    rw [hopened, h.scene.length_opened]
    exact h.scene.size_lt
  have hscene := h.scene.after a hlt
  have hsize : (c.scene.after a).store.size = c.scene.store.size := by
    rw [← hscene.length_opened, hopened, h.scene.length_opened]
    rfl
  constructor
  · exact hscene
  · change c.questions.length = (c.scene.after a).store.size
    rw [hsize]
    exact h.length_questions
  · intro q hq
    change q.promise < (c.scene.after a).store.size ∧ _
    rw [hsize]
    exact h.numbered q hq
  · exact h.distinct
  · exact h.frames
  · exact h.nodup_frames
  · exact h.replies

/-- The next question takes the next promise. -/
theorem promise_next (c : Conversation) (command : String) (payload : Bytes) :
    (c.next command payload).promise = c.scene.store.size := by
  simp only [next, Exchange.take_fst]

/-- The next question takes the next number. -/
theorem id_next (h : Sound c) (command : String) (payload : Bytes) :
    (c.next command payload).id = Exchange.number c.scene.store.size := by
  simp only [next, Exchange.take_fst]
  exact h.scene.nextId_eq

/-- The next question shares its promise with none before it. -/
theorem distinct_next (h : Sound c) (command : String) (payload : Bytes) (q q' : Question)
    (hq : q ∈ c.next command payload :: c.questions)
    (hq' : q' ∈ c.next command payload :: c.questions) (heq : q.promise = q'.promise) :
    q = q' := by
  have hnew : ∀ q, q ∈ c.questions → q.promise ≠ (c.next command payload).promise := by
    intro q hq
    rw [promise_next]
    exact Nat.ne_of_lt (h.numbered q hq).1
  rcases List.mem_cons.mp hq with rfl | hq <;> rcases List.mem_cons.mp hq' with rfl | hq'
  · rfl
  · exact absurd heq.symm (hnew q' hq')
  · exact absurd heq (hnew q hq)
  · exact h.distinct q q' hq hq' heq

/-- The request of the next question is none of those before. -/
theorem encode_next_notMem (h : Sound c) {command : String} {payload : Bytes}
    (hfits : Frame.Fits (c.next command payload).request) :
    Frame.encode (c.next command payload).request ∉ c.frames := by
  intro hm
  obtain ⟨q, hq, hfitsq, hframe⟩ := h.frames _ hm
  have hrequest : some (c.next command payload).request = some q.request := by
    rw [← Frame.decode?_encode hfits, ← Frame.decode?_encode hfitsq, hframe]
  have hid : (c.next command payload).id = q.id := congrArg Envelope.id (Option.some.inj hrequest)
  obtain ⟨hp, hn⟩ := h.numbered q hq
  rw [h.id_next, hn, Exchange.number_inj h.scene.size_lt (Nat.lt_trans hp h.scene.size_lt)] at hid
  exact Nat.ne_of_lt hp hid.symm

/-- Asking keeps a conversation sound until the numbers come round. -/
theorem ask (h : Sound c) {command : String} {payload : Bytes}
    (hfits : Frame.Fits (c.next command payload).request)
    (hlt : c.questions.length + 1 < 2 ^ 64) :
    Sound { c with
      scene := c.scene.after .take
      questions := c.next command payload :: c.questions
      requests := Frame.encode (c.next command payload).request :: c.requests } := by
  have hopened := Exchange.Scene.length_opened_after c.scene .take
  rw [h.scene.length_opened, ← h.length_questions] at hopened
  change _ = c.questions.length + 1 at hopened
  have hscene := h.scene.after .take (by rw [hopened]; exact hlt)
  have hsize : (c.scene.after .take).store.size = c.scene.store.size + 1 := by
    rw [← hscene.length_opened, hopened, h.length_questions]
  constructor
  · exact hscene
  · change c.questions.length + 1 = (c.scene.after .take).store.size
    rw [hsize, h.length_questions]
  · intro q hq
    change q.promise < (c.scene.after .take).store.size ∧ _
    rw [hsize]
    rcases List.mem_cons.mp hq with rfl | hq
    · rw [promise_next, h.id_next]
      exact ⟨Nat.lt_succ_self _, rfl⟩
    · obtain ⟨hp, hn⟩ := h.numbered q hq
      exact ⟨Nat.lt_succ_of_lt hp, hn⟩
  · exact h.distinct_next command payload
  · intro frame hm
    rcases List.mem_cons.mp (List.perm_middle.mem_iff.mp hm) with heq | hm
    · exact ⟨c.next command payload, List.mem_cons_self, hfits, heq⟩
    · obtain ⟨q, hq, hrest⟩ := h.frames frame hm
      exact ⟨q, List.mem_cons_of_mem _ hq, hrest⟩
  · exact List.perm_middle.nodup_iff.mpr
      (List.nodup_cons.mpr ⟨h.encode_next_notMem hfits, h.nodup_frames⟩)
  · intro frame hm
    obtain ⟨q, t, outcome, hq, hrest⟩ := h.replies frame hm
    exact ⟨q, t, outcome, List.mem_cons_of_mem _ hq, hrest⟩

/-- A sound conversation stays sound when frames are lost. -/
theorem lose (h : Sound c) {requests replies : List Bytes}
    (hrequests : requests.Sublist c.requests)
    (hreplies : ∀ frame, frame ∈ replies → frame ∈ c.replies) :
    Sound { c with requests, replies } := by
  have hframes : (c.served.map Prod.fst ++ requests).Sublist c.frames :=
    hrequests.append_left _
  exact ⟨h.scene, h.length_questions, h.numbered, h.distinct,
    fun frame hm => h.frames frame (hframes.mem hm), h.nodup_frames.sublist hframes,
    fun frame hm => h.replies frame (hreplies frame hm)⟩

/-- A request that is served stays among those that were served or are under way. -/
theorem perm_serve {frame : Bytes} (hm : frame ∈ c.requests) :
    (frame :: (c.served.map Prod.fst ++ c.requests.erase frame)).Perm c.frames :=
  List.perm_middle.symm.trans ((List.perm_cons_erase hm).symm.append_left _)

/-- Answering a request keeps a conversation sound. -/
theorem serve (h : Sound c) {t : CommandTable} {frame : Bytes} (hm : frame ∈ c.requests)
    (hfits : ∀ request response, CommandTable.request? frame = some request →
      CommandTable.respond (t.handler? request.command) request = some response →
        Frame.Fits response) :
    Sound { c with
      requests := c.requests.erase frame
      replies := t.answers frame ++ c.replies
      served := (frame, t) :: c.served } := by
  obtain ⟨q, hq, hfitsq, hframe⟩ := h.frames frame (List.mem_append_right _ hm)
  have hrequest : CommandTable.request? frame = some q.request := by
    rw [hframe]
    exact CommandTable.request?_encode hfitsq
  have hperm := perm_serve hm
  constructor
  · exact h.scene
  · exact h.length_questions
  · exact h.numbered
  · exact h.distinct
  · exact fun frame hm => h.frames frame (hperm.mem_iff.mp hm)
  · exact hperm.nodup_iff.mpr h.nodup_frames
  · intro reply hreply
    rcases List.mem_append.mp hreply with hreply | hreply
    · simp only [CommandTable.answers, hrequest, Option.mem_toList, Option.map_eq_some_iff]
        at hreply
      obtain ⟨response, hresponse, rfl⟩ := hreply
      have hfit := hfits _ _ hrequest hresponse
      rw [t.respond_eq, Option.map_eq_some_iff] at hresponse
      obtain ⟨outcome, houtcome, rfl⟩ := hresponse
      rw [hframe]
      exact ⟨q, t, outcome, hq, List.mem_cons_self, houtcome, hfit, rfl⟩
    · obtain ⟨q, t', outcome, hq, hserved, hrest⟩ := h.replies reply hreply
      exact ⟨q, t', outcome, hq, List.mem_cons_of_mem _ hserved, hrest⟩

end Sound

/-- A step asks at most one question. -/
theorem length_questions_le {c c' : Conversation} (hs : Step c c') :
    c.questions.length ≤ c'.questions.length := by
  cases hs with
  | ask => exact Nat.le_succ _
  | _ => exact Nat.le_refl _

/-- Every step keeps a conversation sound until the numbers come round. -/
theorem Sound.step {c c' : Conversation} (h : Sound c) (hs : Step c c')
    (hlt : c'.questions.length < 2 ^ 64) : Sound c' := by
  cases hs with
  | ask command payload hfits => exact h.ask hfits hlt
  | act a ha =>
    apply h.act
    cases a <;> first | rfl | cases ha
  | serve t frame hm hfits => exact h.serve hm hfits
  | deliver frame hm =>
    exact (h.act (a := .received frame) rfl).lose (.refl _) fun _ hm => List.mem_of_mem_erase hm
  | loseRequest frame => exact h.lose List.erase_sublist fun _ hm => hm
  | loseReply frame => exact h.lose (.refl _) fun _ hm => List.mem_of_mem_erase hm

/-- Whatever a conversation comes to is sound until the numbers come round. -/
theorem Reachable.sound (h : Reachable c) (hlt : c.questions.length < 2 ^ 64) : Sound c := by
  induction h with
  | start => exact sound_start
  | step h hs ih => exact (ih (Nat.lt_of_le_of_lt (length_questions_le hs) hlt)).step hs hlt

/-- A reply completes the promise of its question if that is pending and any handle on it is
left. -/
theorem Sound.outcome_deliver (h : Sound c) {q : Question} {outcome : Outcome Bytes}
    (hq : q ∈ c.questions) (hfits : Frame.Fits (.responseTo q.request outcome))
    (hpend : c.scene.IsPending q.promise) (hleft : 0 < (c.scene.store.get q.promise).handles) :
    ((c.scene.after (.received (Frame.encode (.responseTo q.request outcome)))).store.get
      q.promise).outcome = some (.ok (Envelope.responseTo q.request outcome).toResponse) := by
  obtain ⟨hp, hid⟩ := h.numbered q hq
  rw [h.scene.outcome_received (Frame.decode?_encode hfits) rfl hp]
  have hfiled := h.scene.isFiled_of_handles hp hpend hleft
  rw [if_pos ⟨hfiled, hid⟩]
  unfold Exchange.Scene.IsPending at hpend
  rw [hpend]
  rfl

/-- A reply changes no outcome but that of the pending promise of its question. -/
theorem Sound.outcome_deliver_of_ne (h : Sound c) {q q' : Question} {outcome : Outcome Bytes}
    (hq' : q' ∈ c.questions) (hfits : Frame.Fits (.responseTo q.request outcome))
    (hne : q'.id ≠ q.id ∨ ¬ c.scene.IsPending q'.promise) :
    ((c.scene.after (.received (Frame.encode (.responseTo q.request outcome)))).store.get
      q'.promise).outcome = (c.scene.store.get q'.promise).outcome := by
  obtain ⟨hp, hid⟩ := h.numbered q' hq'
  rw [h.scene.outcome_received (Frame.decode?_encode hfits) rfl hp, ← hid]
  split
  · next hcase =>
    rcases hne with hne | hdone
    · exact absurd hcase.2.symm hne
    · unfold Exchange.Scene.IsPending at hdone
      obtain ⟨o, ho⟩ := Option.ne_none_iff_exists'.mp hdone
      rw [ho]
      rfl
  · rfl

end Conversation

/-- It is not so that every readable request has exactly one answer: a handler that crashes leaves
its request without any. -/
theorem not_forall_length_answers_eq_one :
    ¬ ∀ (t : CommandTable) (frame : Bytes) (request : Envelope),
      CommandTable.request? frame = some request → (t.answers frame).length = 1 := by
  intro hall
  have hfits : Frame.Fits (.request 9 "add" [2, 3]) := by
    unfold Frame.Fits
    decide
  have hrequest := CommandTable.request?_encode hfits
  let t : CommandTable := ⟨(∅ : Std.ExtTreeMap String CommandHandler).insert "add"
    { serve := fun _ => none }⟩
  have hone := hall t _ _ hrequest
  have hcrash : t.outcome? "add" [2, 3] = none := by
    simp [CommandTable.outcome?, CommandTable.handler?, t]
  have hnone : t.outcome? (Envelope.request 9 "add" [2, 3]).command
      ((Envelope.request 9 "add" [2, 3]).payload.getD []) = none := hcrash
  rw [t.length_answers hrequest, hnone] at hone
  cases hone

/-- In whatever a conversation of fewer than `2 ^ 64` questions comes to: a readable request has
exactly one answer, or none if the handler of its command crashes on its payload; a frame on its way
to a table is the request of a question, and no request is served twice; and a frame on its way to
the exchange is the reply to one question. It says what is relayed of the outcome that the table
which served this question came to for its command and its payload, it completes the promise of this
question if that is still pending and any handle on it is left, and it changes no other outcome. -/
theorem replies_reach_their_questions {c : Conversation} (hc : Conversation.Reachable c)
    (hlt : c.questions.length < 2 ^ 64) :
    (∀ (t : CommandTable) frame request, CommandTable.request? frame = some request →
      (t.answers frame).length =
        if (t.outcome? request.command (request.payload.getD [])).isSome then 1 else 0) ∧
    (∀ frame, frame ∈ c.requests → ∃ q, q ∈ c.questions ∧
      CommandTable.request? frame = some (.request q.id q.command q.payload)) ∧
    (c.served.map Prod.fst).Nodup ∧
    ∀ frame, frame ∈ c.replies → ∃ q t outcome response, q ∈ c.questions ∧
      (∀ q', q' ∈ c.questions → q'.id = q.id → q' = q) ∧
      (Frame.encode q.request, t) ∈ c.served ∧
      t.outcome? q.command q.payload = some outcome ∧
      Frame.decode? frame = some (.responseTo q.request outcome) ∧
      response.toOutcome = relayed outcome ∧
      (c.scene.IsPending q.promise → 0 < (c.scene.store.get q.promise).handles →
        ((c.scene.after (.received frame)).store.get q.promise).outcome = some (.ok response)) ∧
      ∀ q', q' ∈ c.questions → q' ≠ q ∨ ¬ c.scene.IsPending q'.promise →
        ((c.scene.after (.received frame)).store.get q'.promise).outcome =
          (c.scene.store.get q'.promise).outcome := by
  have h := hc.sound hlt
  refine ⟨fun t frame request => t.length_answers, ?_, ?_, ?_⟩
  · intro frame hm
    obtain ⟨q, hq, hfits, hframe⟩ := h.frames frame (List.mem_append_right _ hm)
    rw [hframe]
    exact ⟨q, hq, CommandTable.request?_encode hfits⟩
  · exact h.nodup_frames.sublist (List.sublist_append_left ..)
  · intro frame hm
    obtain ⟨q, t, outcome, hq, hserved, houtcome, hfits, hframe⟩ := h.replies frame hm
    have hunique : ∀ q', q' ∈ c.questions → q'.id = q.id → q' = q := by
      intro q' hq' hid
      obtain ⟨hp, hn⟩ := h.numbered q hq
      obtain ⟨hp', hn'⟩ := h.numbered q' hq'
      rw [hn, hn', Exchange.number_inj (Nat.lt_trans hp' h.scene.size_lt)
        (Nat.lt_trans hp h.scene.size_lt)] at hid
      exact h.distinct q' q hq' hq hid
    rw [hframe]
    refine ⟨q, t, outcome, (Envelope.responseTo q.request outcome).toResponse, hq, hunique, hserved,
      houtcome, Frame.decode?_encode hfits, toOutcome_responseTo q.request outcome,
      h.outcome_deliver hq hfits, ?_⟩
    intro q' hq' hne
    apply h.outcome_deliver_of_ne hq' hfits
    rcases hne with hne | hdone
    · exact .inl fun hid => hne (hunique q' hq' hid)
    · exact .inr hdone

/-- A table whose handler says a value whenever it is asked for the next one. -/
def saying (value : UInt8) : CommandTable :=
  ⟨(∅ : Std.ExtTreeMap String CommandHandler).insert "next"
    { serve := fun _ => some (.ok [value]) }⟩

private theorem outcome?_saying (value : UInt8) :
    (saying value).outcome? "next" [] = some (.ok [value]) := by
  simp [CommandTable.outcome?, CommandTable.handler?, saying]

/-- A table that says a value may serve a question for the next one. -/
theorem Conversation.Reachable.serve_saying {c : Conversation} (h : Reachable c) {id : UInt64}
    (value : UInt8) (hfits : Frame.Fits (.request id "next" []))
    (hreply : Frame.Fits (.responseTo (.request id "next" []) (.ok [value])))
    (hm : Frame.encode (.request id "next" []) ∈ c.requests) :
    Reachable { c with
      requests := c.requests.erase (Frame.encode (.request id "next" []))
      replies := Frame.encode (.responseTo (.request id "next" []) (.ok [value])) :: c.replies
      served := (Frame.encode (.request id "next" []), saying value) :: c.served } := by
  have hrequest := CommandTable.request?_encode hfits
  have hrespond : CommandTable.respond ((saying value).handler? "next") (.request id "next" []) =
      some (.responseTo (.request id "next" []) (.ok [value])) := by
    have houtcome : (saying value).outcome? (Envelope.request id "next" []).command
        ((Envelope.request id "next" []).payload.getD []) = some (.ok [value]) :=
      outcome?_saying value
    have hrespond := (saying value).respond_eq (.request id "next" [])
    rw [houtcome] at hrespond
    exact hrespond
  have hstep := h.step (.serve c (saying value) _ hm fun request response hr hresponse => by
    rw [hrequest] at hr
    cases hr
    cases hrespond.symm.trans hresponse
    exact hreply)
  have hanswers : (saying value).answers (Frame.encode (.request id "next" [])) =
      [Frame.encode (.responseTo (.request id "next" []) (.ok [value]))] := by
    simp only [CommandTable.answers, hrequest]
    exact congrArg (fun o : Option Envelope => (o.map Frame.encode).toList) hrespond
  rw [hanswers] at hstep
  exact hstep

/-- A reply with a value tells its question and the value. -/
theorem responseTo_ok_inj {q q' : Question} {outcome : Outcome Bytes} {value : Bytes}
    (h : Envelope.responseTo q'.request outcome = .responseTo q.request (.ok value)) :
    q'.id = q.id ∧ outcome = .ok value := by
  refine ⟨congrArg Envelope.id h, ?_⟩
  have hvalue : outcome.toOption = some value := congrArg Envelope.payload h
  cases outcome with
  | ok value' => exact congrArg Except.ok (Option.some.inj hvalue)
  | error f => cases hvalue

namespace Conversation

/-- The first question for the next value. -/
def first : Question := ⟨1, 0, "next", []⟩

/-- The second one. -/
def second : Question := ⟨2, 1, "next", []⟩

/-- The reply to a question with a value. -/
def reply (q : Question) (value : UInt8) : Bytes :=
  Frame.encode (.responseTo q.request (.ok [value]))

/-- Both were asked. -/
def bothAsked : Conversation where
  scene := .ofActs [.take, .take]
  questions := [second, first]
  requests := [Frame.encode second.request, Frame.encode first.request]

/-- Both were served, the second one first. -/
def bothServed : Conversation :=
  { bothAsked with
    requests := []
    replies := [reply first 2, reply second 1]
    served := [(Frame.encode first.request, saying 2), (Frame.encode second.request, saying 1)] }

private theorem fits_first : Frame.Fits first.request := by
  unfold Frame.Fits
  decide

private theorem fits_second : Frame.Fits second.request := by
  unfold Frame.Fits
  decide

private theorem fits_reply_first : Frame.Fits (.responseTo first.request (.ok [2])) := by
  unfold Frame.Fits
  decide

private theorem fits_reply_second : Frame.Fits (.responseTo second.request (.ok [1])) := by
  unfold Frame.Fits
  decide

private theorem reachable_bothServed : Reachable bothServed := by
  have hasked : Reachable bothAsked :=
    (Reachable.start.step (.ask {} "next" [] fits_first)).step (.ask _ "next" [] fits_second)
  have hserved := hasked.serve_saying 1 fits_second fits_reply_second List.mem_cons_self
  rw [show bothAsked.requests.erase (Frame.encode (.request second.id "next" [])) =
    [Frame.encode first.request] from List.erase_cons_head ..] at hserved
  have hserved := hserved.serve_saying 2 fits_first fits_reply_first List.mem_cons_self
  rw [show [Frame.encode first.request].erase (Frame.encode (.request first.id "next" [])) = [] from
    List.erase_cons_head ..] at hserved
  exact hserved

end Conversation

open Conversation in
/-- Two callers ask for the next value. The second question is answered first, the first one after
it with another value, and each caller gets the value that was said to its own question. -/
theorem replies_to_two_questions :
    ∃ c, Reachable c ∧ c.questions.length = 2 ∧ c.replies = [] ∧
      ∃ said said', (c.scene.store.get first.promise).outcome = some (.ok said) ∧
        said.toOutcome = .ok [2] ∧ (c.scene.store.get second.promise).outcome = some (.ok said') ∧
        said'.toOutcome = .ok [1] := by
  have hreply {c : Conversation} (hc : Reachable c) (hquestions : c.questions = [second, first])
      {q : Question} (hq : q ∈ [second, first]) {value : UInt8}
      (hfits : Frame.Fits (.responseTo q.request (.ok [value]))) (hm : reply q value ∈ c.replies) :
      ∃ response, response.toOutcome = .ok [value] ∧
        (c.scene.IsPending q.promise → 0 < (c.scene.store.get q.promise).handles →
          ((c.scene.after (.received (reply q value))).store.get q.promise).outcome =
            some (.ok response)) ∧
        ∀ q', q' ∈ [second, first] → q' ≠ q ∨ ¬ c.scene.IsPending q'.promise →
          ((c.scene.after (.received (reply q value))).store.get q'.promise).outcome =
            (c.scene.store.get q'.promise).outcome := by
    obtain ⟨-, -, -, hreplies⟩ := replies_reach_their_questions hc (by rw [hquestions]; decide)
    obtain ⟨q', t, outcome, response, -, hunique, -, -, hframe, hsays, hends⟩ := hreplies _ hm
    rw [reply, Frame.decode?_encode hfits] at hframe
    obtain ⟨hid, rfl⟩ := responseTo_ok_inj (Option.some.inj hframe).symm
    obtain rfl := hunique q (hquestions ▸ hq) hid.symm
    rw [hquestions] at hends
    exact ⟨response, hsays, hends⟩
  have hm : reply second 1 ∈ bothServed.replies := List.mem_cons_of_mem _ List.mem_cons_self
  have hfirst : first ∈ [second, first] := List.mem_cons_of_mem _ List.mem_cons_self
  have hsecond : second ∈ [second, first] := List.mem_cons_self
  -- The reply to the second question comes in; the caller of the first one waits on.
  obtain ⟨said', hsaid', hcompletes', hothers'⟩ :=
    hreply reachable_bothServed rfl hsecond fits_reply_second hm
  obtain ⟨told, htold, hquestions, hreplies, hscene⟩ : ∃ c, Reachable c ∧
      c.questions = [second, first] ∧ c.replies = [reply first 2] ∧
      c.scene = bothServed.scene.after (.received (reply second 1)) :=
    ⟨_, reachable_bothServed.step (.deliver _ _ hm), rfl, by decide, rfl⟩
  have htoldSecond := hcompletes' rfl (by decide)
  have hwaits := hothers' first hfirst (.inl (by simp [first, second]))
  rw [← hscene] at htoldSecond hwaits
  have hheld : 0 < (told.scene.store.get first.promise).handles := by
    have hsound := (htold.sound (by rw [hquestions]; decide)).scene
    have hmem : first.promise ∈ told.scene.held := by
      rw [hscene]
      exact List.mem_cons_of_mem _ List.mem_cons_self
    rw [hsound.handles_eq _ (hsound.held_lt _ hmem)]
    exact Nat.add_pos_left (List.count_pos_iff.mpr hmem) _
  -- The reply to the first question comes in, and changes nothing for the other caller.
  have hm' : reply first 2 ∈ told.replies := hreplies ▸ List.mem_cons_self
  obtain ⟨said, hsaid, hcompletes, hothers⟩ :=
    hreply htold hquestions hfirst fits_reply_first hm'
  have hkept := hothers second hsecond (.inl (by simp [first, second]))
  refine ⟨_, htold.step (.deliver _ _ hm'), congrArg List.length hquestions, ?_, said, said',
    hcompletes hwaits hheld, hsaid, hkept.trans htoldSecond, hsaid'⟩
  simp only [hreplies, List.erase_cons_head]

end Switchboard
